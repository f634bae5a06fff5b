import RegisterMap.Listing.Constant
import RegisterMap.Proofs.Name
import RegisterMap.Proofs.Numeral

/-!
# Theory of literals

A literal is a decimal numeral, or a hexadecimal one with a mark in front and
underscores between its digits. Either is read back as the value it was written
for.

- `isLiteral_text`: the form of a literal
- `Literal.value?_text`: reading a literal gives its value
-/

namespace RegisterMap.Listing

/-! ## Form -/

/-- A hexadecimal digit as listings write it, or an underscore between two of them. -/
def isHexChar (c : Char) : Bool := c.isDigit || ('a' ≤ c && c ≤ 'f') || c == '_'

/-- The characters of a literal. -/
inductive IsLiteral : List Char → Prop
  /-- A decimal numeral. -/
  | decimal {ds : List Char} (hne : ds ≠ []) (hds : ∀ d ∈ ds, d.isDigit = true) : IsLiteral ds
  /-- A hexadecimal numeral behind its mark. -/
  | hex {ds : List Char} (hne : ds ≠ []) (hds : ∀ d ∈ ds, isHexChar d = true) :
      IsLiteral ('0' :: 'x' :: ds)

/-- A decimal numeral is a literal. -/
theorem isLiteral_toString (n : Nat) : IsLiteral (toString n).toList := by
  rw [Nat.toString_eq_repr, Nat.toList_repr]
  exact .decimal Nat.toDigits_ne_nil
    fun d hd => Nat.isDigit_of_mem_toDigits (by decide) (by decide) hd

/-- So is a grouped one. -/
theorem isLiteral_grouped (n : Nat) : IsLiteral (Numeral.grouped n).toList := by
  unfold Numeral.grouped
  split
  · exact isLiteral_toString n
  · rw [String.toList_ofList]
    have hdigits : ∀ d ∈ Nat.toDigits 16 n, isHexChar d = true :=
      Numeral.forall_mem_toDigits (by decide) (by decide)
    refine .hex (Numeral.group_ne_nil Nat.toDigits_ne_nil) fun d hd => ?_
    -- an underscore between groups, or a digit
    obtain hd | hd := Numeral.mem_group hd
    · exact hd ▸ rfl
    · exact hdigits d hd

/-- The text of a literal has the form of one. -/
theorem Literal.isLiteral_text (literal : Literal) : IsLiteral literal.text.toList := by
  cases literal with
  | address n => exact isLiteral_grouped n
  | number n => exact isLiteral_toString n

/-- The characters of a literal are word characters. -/
theorem isWordChar_of_isHexChar {c : Char} (h : isHexChar c = true) :
    Name.isWordChar c = true := by
  simp only [isHexChar, Bool.or_eq_true, Bool.and_eq_true, decide_eq_true_eq, beq_iff_eq] at h
  simp only [Name.isWordChar, Char.isAlphanum, Bool.or_eq_true, beq_iff_eq]
  obtain (h | ⟨hlow, hhigh⟩) | h := h
  · exact .inl (.inr h)
  · -- `f` comes before `z`
    have hlower : (c.val ≥ 97 && c.val ≤ 122) = true := by
      simp only [Bool.and_eq_true, decide_eq_true_eq]
      exact ⟨hlow, UInt32.le_trans hhigh (by decide)⟩
    exact .inl (.inl (Bool.or_eq_true_iff.2 (.inr hlower)))
  · exact .inr h

/-- A literal holds nothing but letters, digits and underscores. -/
theorem IsLiteral.isWordChar {cs : List Char} (h : IsLiteral cs) :
    ∀ c ∈ cs, Name.isWordChar c = true := by
  cases h with
  | decimal _ hds =>
    intro c hc
    simp [Name.isWordChar, Char.isAlphanum, hds c hc]
  | hex _ hds =>
    refine List.forall_mem_cons.2 ⟨by decide, List.forall_mem_cons.2 ⟨by decide, ?_⟩⟩
    exact fun c hc => isWordChar_of_isHexChar (hds c hc)

/-! ## Reading -/

/-- The value of the characters of a literal. -/
def Literal.value? (cs : List Char) : Option Nat :=
  match cs.filter (· != '_') with
  | '0' :: 'x' :: digits => Numeral.unsigned? 16 digits
  | digits => Numeral.unsigned? 10 digits

/-- A decimal literal has the value that it was written for. -/
theorem Literal.value?_toString {n : Nat} (hn : n < Word.limit) :
    value? (toString n).toList = some n := by
  unfold value?
  rw [Numeral.filter_toString, Nat.toString_eq_repr, Nat.toList_repr]
  have hmark : ∀ d ∈ Nat.toDigits 10 n, d ≠ 'x' :=
    Numeral.forall_mem_toDigits (by decide) (by decide)
  -- a decimal numeral is not taken for one in hexadecimal
  split
  · next digits heq => exact absurd rfl (hmark 'x' (by simp [heq]))
  · exact Numeral.unsigned?_toDigits (by decide) (by decide) hn

/-- So has a grouped one. -/
theorem Literal.value?_grouped {n : Nat} (hn : n < Word.limit) :
    value? (Numeral.grouped n).toList = some n := by
  by_cases hle : n ≤ 9
  · rw [Numeral.grouped, if_pos hle]
    exact value?_toString hn
  · unfold value?
    rw [Numeral.filter_grouped (Nat.lt_of_not_le hle)]
    exact Numeral.unsigned?_toDigits (by decide) (by decide) hn

/-- Reading a literal gives its value. -/
theorem Literal.value?_text {literal : Literal} (h : literal.value < Word.limit) :
    value? literal.text.toList = some literal.value := by
  cases literal with
  | address n => exact value?_grouped h
  | number n => exact value?_toString h

end RegisterMap.Listing
