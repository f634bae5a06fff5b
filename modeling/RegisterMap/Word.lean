/-!
# Words of 64 bits

Addresses, offsets and bit positions are naturals below `Word.limit`. The
readers refuse larger numerals, and sums and products are checked: `add?` and
`mul?` give no result where a word could not hold it.
-/

namespace RegisterMap.Word

/-- One more than the largest 64-bit word. -/
def limit : Nat := 0x10000000000000000

/-- The natural itself if a word holds it. -/
def ofNat? (n : Nat) : Option Nat := if n < limit then some n else none

/-- The sum, if a word holds it. -/
def add? (a b : Nat) : Option Nat := ofNat? (a + b)

/-- The product, if a word holds it. -/
def mul? (a b : Nat) : Option Nat := ofNat? (a * b)

/-- Numbers below the limit are words. -/
theorem ofNat?_eq_some_iff {n m : Nat} : ofNat? n = some m ↔ n < limit ∧ n = m := by
  unfold ofNat?
  split
  · next h => simp [h]
  · next h => simp [h]

/-- Numbers from the limit on are none. -/
theorem ofNat?_eq_none_iff {n : Nat} : ofNat? n = none ↔ limit ≤ n := by
  unfold ofNat?
  split <;> simp_all

end RegisterMap.Word
