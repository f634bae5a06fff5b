import RegisterMap.Text.Blank
import RegisterMap.Word

/-!
# Numerals

How numbers are read from a description and written into a listing. A scalar
is hexadecimal behind `0x` or `0X` and decimal otherwise, may carry one plus
sign, and must be a 64-bit word. Addresses are written in hexadecimal, for
messages plainly (`hex`) and for listings in groups of four digits (`grouped`).
-/

namespace RegisterMap.Numeral

/-! ## Reading -/

/-- The value of a digit in a base of at most sixteen; letters count in either case. -/
def digit? (base : Nat) (c : Char) : Option Nat :=
  let value? : Option Nat :=
    if '0' ≤ c ∧ c ≤ '9' then some (c.toNat - '0'.toNat)
    else if 'a' ≤ c ∧ c ≤ 'f' then some (c.toNat - 'a'.toNat + 10)
    else if 'A' ≤ c ∧ c ≤ 'F' then some (c.toNat - 'A'.toNat + 10)
    else none
  value?.filter (· < base)

/-- The value of a run of digits read on from `n`, if all of them are digits. -/
def digitsFrom? (base n : Nat) : List Char → Option Nat
  | [] => some n
  | c :: cs => (digit? base c).bind fun d => digitsFrom? base (base * n + d) cs

/-- The value of a non-empty run of digits. -/
def digits? (base : Nat) : List Char → Option Nat
  | [] => none
  | cs => digitsFrom? base 0 cs

/-- The word written by an optional plus sign and a non-empty run of digits. -/
def unsigned? (base : Nat) : List Char → Option Nat
  | '+' :: cs => (digits? base cs).bind Word.ofNat?
  | cs => (digits? base cs).bind Word.ofNat?

/-- The rest of the text behind a hexadecimal mark. -/
def behindHexMark? : List Char → Option (List Char)
  | '0' :: 'x' :: cs => some cs
  | '0' :: 'X' :: cs => some cs
  | _ => none

/-- Whether a text, apart from blanks at its ends, starts with a hexadecimal mark. -/
def isHexForm (s : String) : Bool := (behindHexMark? (Text.trimChars s.toList)).isSome

/-- The word a text stands for, apart from blanks at its ends: hexadecimal behind a
    mark, decimal otherwise. -/
def scalar? (s : String) : Option Nat :=
  let cs := Text.trimChars s.toList
  match behindHexMark? cs with
  | some digits => unsigned? 16 digits
  | none => unsigned? 10 cs

/-! ## Writing -/

/-- The hexadecimal text of a number, `0x0` for zero. -/
def hex (n : Nat) : String := String.ofList ('0' :: 'x' :: Nat.toDigits 16 n)

/-- Digits with an underscore before every group of four, counted from the right. -/
def group : List Char → List Char
  | [] => []
  | c :: cs => if cs ≠ [] ∧ cs.length % 4 = 0 then c :: '_' :: group cs else c :: group cs

/-- The text of a number in a listing: decimal up to nine, above that hexadecimal
    with an underscore between groups of four digits. -/
def grouped (n : Nat) : String :=
  if n ≤ 9 then toString n else String.ofList ('0' :: 'x' :: group (Nat.toDigits 16 n))

end RegisterMap.Numeral
