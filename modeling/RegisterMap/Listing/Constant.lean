import RegisterMap.Listing.Claim

/-!
# Constants

The constants of a listing. All of them have the integer type of the device's
address width, and an item whose value is beyond it is left out.
-/

namespace RegisterMap.Listing

/-! ## Literals -/

/-- A value as it is written: addresses in groups of hexadecimal digits, bit offsets and
    interrupt numbers in decimal. -/
inductive Literal where
  | address (value : Nat)
  | number (value : Nat)
  deriving Repr, DecidableEq

namespace Literal

/-- The value that is written. -/
def value : Literal → Nat
  | address n => n
  | number n => n

/-- The text of a literal. -/
def text : Literal → String
  | address n => Numeral.grouped n
  | number n => toString n

end Literal

/-! ## Constants -/

/-- A constant with its value and its description. -/
structure Constant where
  name : String
  literal : Literal
  description : Option String
  deriving Repr, DecidableEq

/-- Something that is written if a value is within a width. -/
def within {α : Type} (w : Width) (label : String) (value : Nat) (a : α) : Verdict α :=
  if value ≤ w.maxValue then .written a else .omitted (.tooWide label value w)

/-- A value that a width holds is written. -/
theorem within_of_le {α : Type} {w : Width} {value : Nat} (h : value ≤ w.maxValue)
    (label : String) (a : α) : within w label value a = .written a := if_pos h

/-- A value beyond a width is omitted, with a notice that says so. -/
theorem within_of_lt {α : Type} {w : Width} {value : Nat} (h : w.maxValue < value)
    (label : String) (a : α) : within w label value a = .omitted (.tooWide label value w) :=
  if_neg (Nat.not_le.2 h)

/-- A constant as an item of a module. -/
def Constant.item (w : Width) (label : String) (c : Constant) : Verdict (Item Constant) :=
  within w label c.literal.value ⟨label, some c.name, c⟩

end RegisterMap.Listing
