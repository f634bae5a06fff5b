import RegisterMap.Numeral
import RegisterMap.Xml.Token

/-!
# References and line ends

What the characters of a text or of an attribute value stand for. References
are resolved first (`pieces?`); then line ends are made uniform in a text
(`lineEnds`), and white space becomes plain spaces in an attribute value
(`spaced`). A character that a reference stands for is never changed.
-/

namespace RegisterMap.Xml

/-! ## References -/

/-- The references that have a name. -/
def namedReferences : List (String × Char) :=
  [("amp", '&'), ("lt", '<'), ("gt", '>'), ("quot", '"'), ("apos", '\'')]

/-- The character with a code point. A 32-bit number that is no code point of a
    character stands for the replacement character. -/
def codePoint? (n : Nat) : Option Char :=
  if 0x100000000 ≤ n then none
  else
    let c := if n.isValidChar then Char.ofNat n else '\uFFFD'
    if isCharacter c then some c else none

/-- The character that a reference stands for, given what is between `&` and `;`. -/
def denoted? : List Char → Option Char
  | '#' :: 'x' :: digits => (Numeral.digits? 16 digits).bind codePoint?
  | '#' :: digits => (Numeral.digits? 10 digits).bind codePoint?
  | name => namedReferences.lookup (String.ofList name)

/-- A character, with the way it is written. -/
inductive Piece where
  | literal (c : Char)
  | reference (c : Char)
  deriving Repr, DecidableEq

/-- The characters of a text, its references resolved. -/
def pieces? : List Char → Option (List Piece)
  | [] => some []
  | c :: cs =>
    if c = '&' then
      match _hu : until? [';'] cs with
      | none => none
      | some (body, rest) =>
        (denoted? body).bind fun d => (pieces? rest).map (.reference d :: ·)
    else (pieces? cs).map (.literal c :: ·)
termination_by cs => cs.length
decreasing_by
  · have := until?_length _hu
    simp only [List.length_cons]
    omega
  · simp

/-! ## Line ends -/

/-- The characters of a text with uniform line ends: a carriage return with the line
    feed behind it, and one that stands alone, become a line feed. The rule looks at
    neighbouring literal characters: a carriage return right before a reference is
    kept, and so is one between a reference (`behind` is set) and the end. -/
def lineEnds (behind : Bool) : List Piece → List Char
  | [] => []
  | .reference c :: ps => c :: lineEnds true ps
  | .literal c :: ps =>
    if c = '\r' then
      match ps with
      | [] => if behind then ['\r'] else ['\n']
      | .reference d :: qs => '\r' :: d :: lineEnds true qs
      | .literal d :: qs =>
        if d = '\n' then '\n' :: lineEnds false qs else '\n' :: lineEnds false (.literal d :: qs)
    else c :: lineEnds false ps

/-- The content of a run of text. -/
def textContent? (raw : List Char) : Option String :=
  (pieces? raw).map fun ps => String.ofList (lineEnds false ps)

/-- The content of a CDATA section, in which nothing is a reference. -/
def cdataContent (raw : List Char) : String :=
  String.ofList (lineEnds false (raw.map .literal))

/-! ## Attribute values -/

/-- The characters of an attribute value: a line end or a tab becomes one space. -/
def spaced : List Piece → List Char
  | [] => []
  | .reference c :: ps => c :: spaced ps
  | .literal '\r' :: .literal '\n' :: ps => ' ' :: spaced ps
  | .literal c :: ps => (if c = '\n' ∨ c = '\r' ∨ c = '\t' then ' ' else c) :: spaced ps

/-- The value of an attribute. -/
def attributeValue? (raw : List Char) : Option String :=
  (pieces? raw).map fun ps => String.ofList (spaced ps)

end RegisterMap.Xml
