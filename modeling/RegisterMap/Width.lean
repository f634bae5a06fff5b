/-!
# Address widths

The width of the address-sized integers of a device, which is also the integer
type of every constant in its listing.
-/

namespace RegisterMap

/-- One of the four widths that an address can have. -/
inductive Width where
  | w8 | w16 | w32 | w64
  deriving Repr, DecidableEq

namespace Width

/-- The number of bits. -/
def bits : Width → Nat
  | w8 => 8
  | w16 => 16
  | w32 => 32
  | w64 => 64

/-- The width with a number of bits. -/
def ofBits? : Nat → Option Width
  | 8 => some w8
  | 16 => some w16
  | 32 => some w32
  | 64 => some w64
  | _ => none

/-- The name of the integer type of this width. -/
def typeName : Width → String
  | w8 => "u8"
  | w16 => "u16"
  | w32 => "u32"
  | w64 => "u64"

/-- The largest value of this width, with every bit set. -/
def maxValue : Width → Nat
  | w8 => 0xFF
  | w16 => 0xFFFF
  | w32 => 0xFFFFFFFF
  | w64 => 0xFFFFFFFFFFFFFFFF

/-- A width is found by its number of bits. -/
theorem ofBits?_bits (w : Width) : ofBits? w.bits = some w := by
  cases w <;> rfl

end Width
end RegisterMap
