import RegisterMap.Declared.Dimension
import RegisterMap.Device

/-!
# Declared fields

The fields of a register. The bits of a field are given by the lowest bit and
the width, by the lowest and the highest bit, or by both bits in brackets; the
first form whose first part is present decides. Fields of one name must take
the same bits, and the first one is kept.
-/

namespace RegisterMap

/-- The bits of a field. -/
def Field.span (f : Field) : BitSpan := ⟨f.bitOffset, f.bitWidth⟩

namespace Declared

open Xml (Element)

/-! ## Bits -/

/-- The span from a lowest to a highest bit. The text that gave the highest bit is
    blamed if they are reversed. Of words, only the bits 0 and 2^64 - 1 make a width that is
    no word. That pair is out of the scope of this definition: the program counts the bits
    with 64 bits, and whether it breaks off there or takes none depends on how it was built. -/
def toSpan (low high : Nat) (tag content : String) (loc : Location) : Checked BitSpan :=
  if high < low then Checked.fail (.invalidNumber loc tag content)
  else pure ⟨low, high - low + 1⟩

/-- The highest and the lowest bit that a text in brackets gives, in decimal. -/
def bracketed? (content : List Char) : Option (Nat × Nat) :=
  match content with
  | '[' :: rest =>
    match rest.reverse with
    | ']' :: inner =>
      let bits := inner.reverse
      match bits.dropWhile (· ≠ ':') with
      | _ :: low => do
        let high ← Numeral.unsigned? 10 (Text.trimChars (bits.takeWhile (· ≠ ':')))
        let low ← Numeral.unsigned? 10 (Text.trimChars low)
        return (high, low)
      | [] => none
    | _ => none
  | _ => none

/-- The bits of a field. -/
def bitSpan (e : Element) (loc : Location) : Checked BitSpan := do
  match ← number? e "bitOffset" loc with
  | some offset => return ⟨offset, ← number e "bitWidth" loc⟩
  | none =>
    match ← number? e "lsb" loc with
    | some low =>
      let high ← number e "msb" loc
      toSpan low high "msb" (toString high) loc
    | none =>
      match e.childText? "bitRange" with
      | some content =>
        let (high, low) ←
          Checked.require (bracketed? content.toList) (.invalidNumber loc "bitRange" content)
        toSpan low high "bitRange" content loc
      | none => Checked.fail (.missingElement loc "bitOffset")

/-! ## Fields -/

/-- The fields that a declaration stands for. -/
def fieldRow (e : Element) (loc : Location) : Checked (List Field) := do
  let name ← text e "name" loc
  let loc := loc.named name
  let span ← bitSpan e loc
  let expansion ← Expansion.read e name span.offset loc
  (expansion.instances name span.offset).mapM fun i => do
    checkName i.name loc
    return ⟨i.name, i.offset, span.width, description e⟩

/-- The fields of a register with one more. -/
def addField (loc : Location) (fields : List Field) (f : Field) : Checked (List Field) :=
  match FirstWins.offer Field.name Field.span fields f with
  | .added fields' => pure fields'
  | .repeated => do
    Checked.note (.fieldRepeated loc f.name)
    return fields
  | .clash first => Checked.fail (.fieldConflict (loc.named f.name) f.name first.span f.span)

/-- The fields of a register with those of one more declaration, the `i`-th. -/
def addFields (loc : Location) (fields : List Field) (e : Element) (i : Nat) :
    Checked (List Field) := do
  let loc := loc.child "field" i none
  (← fieldRow e loc).foldlM (addField loc) fields

/-- The fields that a register declares. -/
def fields (e : Element) (loc : Location) : Checked (List Field) :=
  (e.nested "fields" "field").zipIdx.foldlM (fun fs (f, i) => addFields loc fs f i) []

end Declared
end RegisterMap
