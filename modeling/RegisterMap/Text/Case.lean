import RegisterMap.Text.Blank
import RegisterMap.Text.CaseTable

/-!
# Letter case

The full upper-case form of one character (`upper`), which begins a
description, and the full lower-case form of a text (`lowercase`), by which
filters compare names. Both can be longer than what they start from, and the
lower-case form of a capital sigma depends on the letters around it.
-/

namespace RegisterMap.Text

/-! ## Simple mappings -/

/-- The code point that a table of runs `(first, last, step, target)` maps `n` to. -/
def shifted? (runs : List (Nat × Nat × Nat × Nat)) (n : Nat) : Option Nat :=
  runs.findSome? fun (first, last, step, target) =>
    if first ≤ n ∧ n ≤ last ∧ (n - first) % step = 0 then some (target + (n - first)) else none

/-! ## Upper case -/

/-- The full upper-case form of a character. -/
def upper (c : Char) : List Char :=
  match Table.upperExpansions.lookup c.toNat with
  | some codes => codes.map Char.ofNat
  | none =>
    match shifted? Table.upperRuns c.toNat with
    | some n => [Char.ofNat n]
    | none => [c]

/-! ## Lower case -/

/-- The lower-case form of a character that does not depend on its neighbours. The
    capital I with a dot keeps the dot as a combining character. -/
def lower (c : Char) : List Char :=
  if c = 'İ' then ['i', '\u0307']
  else
    match shifted? Table.lowerRuns c.toNat with
    | some n => [Char.ofNat n]
    | none => [c]

/-- Whether the first character that is not case-ignorable is a cased one. -/
def meetsCased (cs : List Char) : Bool :=
  match cs.dropWhile fun c => inRanges Table.caseIgnorableRanges c.toNat with
  | [] => false
  | c :: _ => inRanges Table.casedRanges c.toNat

/-- The lower-case form of the rest of a text, where `before` holds the characters
    already passed, the nearest first. A capital sigma that ends a word (a cased
    character stands before it and none behind it) takes its final form. -/
def lowerFrom (before : List Char) : List Char → List Char
  | [] => []
  | c :: rest =>
    (if c = 'Σ' then [if meetsCased before && !meetsCased rest then 'ς' else 'σ'] else lower c)
      ++ lowerFrom (c :: before) rest

/-- The lower-case form of a text. -/
def lowercase (s : String) : String := String.ofList (lowerFrom [] s.toList)

end RegisterMap.Text
