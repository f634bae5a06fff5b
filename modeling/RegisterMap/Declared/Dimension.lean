import RegisterMap.Declared.Value

/-!
# Dimensions

A register or field with a dimension stands for a row of elements. The
dimension gives their number, the distance between neighbours (one if it says
nothing), and maybe the index of each, either as a range or as a list. An
element gets its name from the declared one, by putting its index in the place
of `[%s]` or `%s`.

A range is written out before its length is compared with the count. One that
is longer than any list can be (`maxEntries`) breaks the program off, whatever
the count says. The memory of a machine is no part of this: a list below that
bound is made, also where a machine would have no room for it.
-/

namespace RegisterMap

/-- The dimension of a declaration. Elements without listed indices are numbered from
    zero. -/
structure Dimension where
  count : Nat
  increment : Nat
  index : Option (List String)
  deriving Repr, DecidableEq

/-- An element of a row: its name, and its place as an offset. -/
structure Instance where
  name : String
  offset : Nat
  deriving Repr, DecidableEq

namespace Dimension

/-! ## Indices -/

/-- The letter that a text consists of. -/
def letter? : List Char → Option Char
  | [c] => if c.isAlpha then some c else none
  | _ => none

/-- The most entries that a list of texts can have: 24 bytes are taken by each, and fewer
    than 2^63 by all of them. -/
def maxEntries : Nat := 384307168202282325

/-- Why a text gives no list of indices: it is malformed, or the list is too long. -/
inductive IndexFault where
  | malformed (flaw : DimensionFlaw)
  | overflow
  deriving Repr, DecidableEq

/-- The indices of a range of numbers. The room for them is taken before the first one is
    made. -/
def numbers (low high : Nat) : Except IndexFault (List String) :=
  if maxEntries < high + 1 - low then .error .overflow
  else .ok ((List.range' low (high + 1 - low)).map toString)

/-- The indices of a range of letters, by their code points. -/
def letters (low high : Char) : List String :=
  (List.range' low.toNat (high.toNat + 1 - low.toNat)).map fun n => (Char.ofNat n).toString

/-- The indices of a range, given the texts of its bounds. -/
def range (low high : List Char) : Except IndexFault (List String) :=
  match Numeral.unsigned? 10 low, Numeral.unsigned? 10 high with
  | some l, some h => if h < l then .error (.malformed .reversedRange) else numbers l h
  | _, _ =>
    -- bounds of which only one is a number may still be two letters
    match letter? low, letter? high with
    | some l, some h => if h < l then .error (.malformed .reversedRange) else .ok (letters l h)
    | _, _ => .error (.malformed .rangeBounds)

/-- The entries of a list, without blanks at their ends. -/
def entries (text : List Char) : Except IndexFault (List String) :=
  let parts := (text.splitOn ',').map fun part => String.ofList (Text.trimChars part)
  if parts.contains "" then .error (.malformed .emptyEntry) else .ok parts

/-- The indices that a text lists: a range if it has a hyphen and no comma, a list of
    entries otherwise. -/
def indices (text : List Char) : Except IndexFault (List String) :=
  if text.contains ',' then entries text
  else
    match text.dropWhile (· ≠ '-') with
    | [] => entries text
    | _ :: high =>
      range (Text.trimChars (text.takeWhile (· ≠ '-'))) (Text.trimChars high)

/-! ## Reading -/

/-- A number of a dimension. -/
def toNumber (content : String) (flaw : DimensionFlaw) (loc : Location) : Checked Nat :=
  Checked.require (Numeral.scalar? content) (.malformedDimension loc content flaw)

/-- The fault of a dimension whose text of indices gives no list. -/
def IndexFault.toFault (content : String) (loc : Location) : IndexFault → Fault
  | malformed flaw => .malformedDimension loc content flaw
  | overflow => .capacityOverflow

/-- The indices that a text lists, which have to be as many as the dimension counts. -/
def toIndex (content : String) (count : Nat) (loc : Location) : Checked (List String) :=
  match indices content.toList with
  | .error fault => Checked.fail (fault.toFault content loc)
  | .ok index =>
    if index.length = count then pure index
    else Checked.fail (.dimensionMismatch loc count content index.length)

/-- The dimension of a declaration that has one. -/
def read? (e : Xml.Element) (loc : Location) : Checked (Option Dimension) :=
  match e.childText? "dim" with
  | none => pure none
  | some content => do
    let count ← toNumber content .count loc
    let increment ←
      match e.childText? "dimIncrement" with
      | none => pure 1
      | some content => toNumber content .increment loc
    let index ←
      match e.childText? "dimIndex" with
      | none => pure none
      | some content => some <$> toIndex content count loc
    return some ⟨count, increment, index⟩

/-! ## Expanding -/

/-- Puts an index in the place of every occurrence of a mark, which is not empty. -/
def substitute (mark index : List Char) : List Char → List Char
  | [] => []
  | c :: cs =>
    if mark.isPrefixOf (c :: cs) then index ++ substitute mark index (cs.drop (mark.length - 1))
    else c :: substitute mark index cs
termination_by cs => cs.length

/-- The name of the element with an index: marks in brackets are replaced first, then
    those without. -/
def elementName (template index : String) : String :=
  String.ofList
    (substitute ['%', 's'] index.toList
      (substitute ['[', '%', 's', ']'] index.toList template.toList))

/-- The index of the `i`-th element, counted from zero. -/
def label (d : Dimension) (i : Nat) : String :=
  match d.index with
  | none => toString i
  | some labels => labels.getD i ""

/-- The offset of the `i`-th element of a row that starts at `base`, if a word holds it. -/
def offset? (d : Dimension) (base i : Nat) : Option Nat :=
  (Word.mul? i d.increment).bind (Word.add? · base)

/-- The elements from the `i`-th on, given how many there are left. -/
def instancesFrom (d : Dimension) (template : String) (base : Nat) (loc : Location) (i : Nat) :
    Nat → Except Fault (List Instance)
  | 0 => .ok []
  | left + 1 =>
    match d.offset? base i with
    | none =>
      .error (.malformedDimension loc (template ++ "[" ++ d.label i ++ "]") .offsetOverflow)
    | some offset =>
      (d.instancesFrom template base loc (i + 1) left).map
        (⟨elementName template (d.label i), offset⟩ :: ·)

/-- The elements that a declared name and offset stand for. -/
def instances (d : Dimension) (template : String) (base : Nat) (loc : Location) :
    Except Fault (List Instance) :=
  d.instancesFrom template base loc 0 d.count

end Dimension

/-- What a declaration stands for: itself, if it has no dimension, or a row of elements. -/
inductive Expansion where
  | single
  | row (elements : List Instance)
  deriving Repr, DecidableEq

/-- The expansion of a declaration with a name and an offset. -/
def Expansion.read (e : Xml.Element) (name : String) (base : Nat) (loc : Location) :
    Checked Expansion := do
  match ← Dimension.read? e loc with
  | none => return .single
  | some d => return .row (← Checked.ofExcept (d.instances name base loc))

/-- The elements of an expansion. -/
def Expansion.instances (name : String) (base : Nat) : Expansion → List Instance
  | single => [⟨name, base⟩]
  | row elements => elements

end RegisterMap
