import RegisterMap.Numeral
import RegisterMap.Proofs.Blank

/-!
# Theory of numerals

A number that is written is read back, in either base, and the underscores of a
grouped number do not matter for that.

- `unsigned?_toDigits`: the digits of a word are read back
- `unsigned?_eq_some_iff`, `unsigned?_ten`: which texts are read at all
- `unsigned?_ten_trimChars`: texts that are read in decimal only
- `scalar?_hex`, `scalar?_toString`: so are its texts in either base
- `filter_group`, `filter_grouped`: grouping only puts underscores between digits
-/

namespace RegisterMap.Numeral

/-! ## Digits -/

/-- The character of a digit is read as that digit. -/
theorem digit?_digitChar : ∀ base ≤ 16, ∀ d < base, digit? base d.digitChar = some d := by
  decide

/-- The digits of a number are digits of the base. -/
theorem mem_toDigits {base n : Nat} (hbase : 1 < base) {c : Char} (h : c ∈ Nat.toDigits base n) :
    ∃ d < base, c = d.digitChar := by
  induction n using Nat.strongRecOn with
  | ind n ih =>
    rw [Nat.toDigits_eq_if hbase] at h
    -- the last digit is the rest of the division, those in front are the digits of the quotient
    by_cases hn : n < base
    · rw [if_pos hn] at h
      exact ⟨n, hn, List.mem_singleton.1 h⟩
    · rw [if_neg hn] at h
      obtain h | h := List.mem_append.1 h
      · exact ih (n / base) (Nat.div_lt_self (by omega) hbase) h
      · exact ⟨n % base, Nat.mod_lt n (by omega), List.mem_singleton.1 h⟩

/-- A character of a number in a base of at most sixteen has what all sixteen digits have. -/
theorem forall_mem_toDigits {base n : Nat} {P : Char → Prop} (hbase : 1 < base)
    (h : ∀ d < base, P d.digitChar) : ∀ c ∈ Nat.toDigits base n, P c := by
  intro c hc
  obtain ⟨d, hd, hcd⟩ := mem_toDigits hbase hc
  exact hcd ▸ h d hd

/-! ## Reading back -/

/-- Digits are read on from where those in front have led. -/
theorem digitsFrom?_append {base n : Nat} (cs ds : List Char) :
    digitsFrom? base n (cs ++ ds)
      = (digitsFrom? base n cs).bind fun m => digitsFrom? base m ds := by
  induction cs generalizing n with
  | nil => rfl
  | cons c cs ih =>
    rw [List.cons_append, digitsFrom?, digitsFrom?, Option.bind_assoc]
    simp only [ih]

/-- The digits of a number are read as that number. -/
theorem digitsFrom?_toDigits {base : Nat} (hbase : 1 < base) (hle : base ≤ 16) (n : Nat) :
    digitsFrom? base 0 (Nat.toDigits base n) = some n := by
  induction n using Nat.strongRecOn with
  | ind n ih =>
    rw [Nat.toDigits_eq_if hbase]
    by_cases hn : n < base
    · rw [if_pos hn, digitsFrom?, digit?_digitChar base hle n hn]
      simp [digitsFrom?]
    · -- the digits of the quotient are read first, then the last one
      have hlt : n / base < n := Nat.div_lt_self (by omega) hbase
      have hdigit := digit?_digitChar base hle (n % base) (Nat.mod_lt n (by omega))
      rw [if_neg hn, digitsFrom?_append, ih (n / base) hlt, Option.bind_some, digitsFrom?, hdigit]
      simp [digitsFrom?, Nat.div_add_mod]

/-- Different numbers have different texts. -/
theorem eq_of_toString_eq {n m : Nat} (h : toString n = toString m) : n = m := by
  have hdigits : Nat.toDigits 10 n = Nat.toDigits 10 m := by
    rw [← Nat.toList_repr, ← Nat.toList_repr]
    exact congrArg String.toList h
  -- equal digits are read as equal numbers
  have hread := congrArg (digitsFrom? 10 0) hdigits
  rw [digitsFrom?_toDigits (by decide) (by decide),
    digitsFrom?_toDigits (by decide) (by decide)] at hread
  exact Option.some.inj hread

/-- The digits of a word are read back. -/
theorem unsigned?_toDigits {base : Nat} (hbase : 1 < base) (hle : base ≤ 16) {n : Nat}
    (hn : n < Word.limit) : unsigned? base (Nat.toDigits base n) = some n := by
  have hread : (digits? base (Nat.toDigits base n)).bind Word.ofNat? = some n := by
    -- the reader asks for one digit at least
    have hdigits : digits? base (Nat.toDigits base n) = digitsFrom? base 0 (Nat.toDigits base n) := by
      cases hcs : Nat.toDigits base n with
      | nil => exact absurd hcs Nat.toDigits_ne_nil
      | cons c cs => rfl
    rw [hdigits, digitsFrom?_toDigits hbase hle, Option.bind_some]
    exact Word.ofNat?_eq_some_iff.2 ⟨hn, rfl⟩
  -- the reader would skip a plus in front of the digits
  have hplus : ∀ c ∈ Nat.toDigits base n, c ≠ '+' := by
    refine forall_mem_toDigits hbase fun d hd => ?_
    have key : ∀ d < 16, d.digitChar ≠ '+' := by decide
    exact key d (Nat.lt_of_lt_of_le hd hle)
  cases hcs : Nat.toDigits base n with
  | nil => exact absurd hcs Nat.toDigits_ne_nil
  | cons c cs =>
    rw [hcs] at hread hplus
    unfold unsigned?
    split
    · next heq => exact absurd (List.cons.inj heq).1 (hplus c List.mem_cons_self)
    · exact hread

/-! ## What the readers accept -/

/-- The decimal digits are the characters that are called digits. -/
theorem digit?_ten (c : Char) :
    digit? 10 c = if c.isDigit = true then some (c.toNat - '0'.toNat) else none := by
  have hdigit : c.isDigit = true ↔ '0' ≤ c ∧ c ≤ '9' := by
    simp [Char.isDigit, Char.le_def]
  unfold digit?
  by_cases hc : '0' ≤ c ∧ c ≤ '9'
  · have hlt : c.toNat - '0'.toNat < 10 := by
      have hle : c.toNat ≤ 57 := hc.2
      have hzero : '0'.toNat = 48 := rfl
      omega
    rw [if_pos hc, if_pos (hdigit.2 hc)]
    simpa using hlt
  · -- the letters stand for digits of ten and more
    rw [if_neg hc, if_neg (mt hdigit.1 hc)]
    split
    · simp
    · split <;> simp

/-- A run of decimal digits is read by the value that it has. -/
theorem digitsFrom?_ten {cs : List Char} {n m : Nat} :
    digitsFrom? 10 n cs = some m
      ↔ (∀ c ∈ cs, c.isDigit = true) ∧ Nat.ofDigitChars 10 cs n = m := by
  induction cs generalizing n with
  | nil => simp [digitsFrom?]
  | cons c cs ih =>
    rw [digitsFrom?, digit?_ten, List.forall_mem_cons, Nat.ofDigitChars_cons]
    by_cases hc : c.isDigit = true
    · simp [hc, ih]
    · simp [hc]

/-- Digits are read from a text that is not empty. -/
theorem digits?_eq_some_iff {base : Nat} {cs : List Char} {n : Nat} :
    digits? base cs = some n ↔ cs ≠ [] ∧ digitsFrom? base 0 cs = some n := by
  cases cs <;> simp [digits?]

/-- A plus sign is no digit. -/
theorem digitsFrom?_plus (base n : Nat) (cs : List Char) :
    digitsFrom? base n ('+' :: cs) = none := rfl

/-- A word is written by its digits, with a plus sign in front of them or without one. -/
theorem unsigned?_eq_some_iff {base : Nat} {cs : List Char} {n : Nat} :
    unsigned? base cs = some n
      ↔ ∃ ds, (cs = ds ∨ cs = '+' :: ds) ∧ ds ≠ [] ∧ digitsFrom? base 0 ds = some n
        ∧ n < Word.limit := by
  have hread : ∀ ds : List Char, (digits? base ds).bind Word.ofNat? = some n
      ↔ ds ≠ [] ∧ digitsFrom? base 0 ds = some n ∧ n < Word.limit := by
    intro ds
    simp only [Option.bind_eq_some_iff, digits?_eq_some_iff, Word.ofNat?_eq_some_iff]
    constructor
    · intro h
      obtain ⟨m, ⟨hne, hm⟩, hlt, rfl⟩ := h
      exact ⟨hne, hm, hlt⟩
    · intro h
      obtain ⟨hne, hn, hlt⟩ := h
      exact ⟨n, ⟨hne, hn⟩, hlt, rfl⟩
  unfold unsigned?
  split
  · next ds =>
    rw [hread]
    constructor
    · exact fun h => ⟨ds, .inr rfl, h⟩
    · intro h
      obtain ⟨ds', rfl | hcs, hne, hds, hlt⟩ := h
      · -- a plus sign is no digit
        rw [digitsFrom?_plus] at hds
        cases hds
      · obtain rfl := (List.cons.inj hcs).2
        exact ⟨hne, hds, hlt⟩
  · next hplus =>
    rw [hread]
    constructor
    · exact fun h => ⟨cs, .inl rfl, h⟩
    · intro h
      obtain ⟨ds, rfl | rfl, hds⟩ := h
      · exact hds
      · exact absurd rfl (hplus ds)

/-- A decimal numeral: digits, maybe behind a plus sign, whose value is a word. -/
def IsDecimal (cs : List Char) (n : Nat) : Prop :=
  ∃ ds, (cs = ds ∨ cs = '+' :: ds) ∧ ds ≠ [] ∧ (∀ c ∈ ds, c.isDigit = true)
    ∧ Nat.ofDigitChars 10 ds 0 = n ∧ n < Word.limit

/-- What is read in decimal is a decimal numeral. -/
theorem unsigned?_ten {cs : List Char} {n : Nat} : unsigned? 10 cs = some n ↔ IsDecimal cs n := by
  simp only [unsigned?_eq_some_iff, digitsFrom?_ten, IsDecimal, and_assoc]

/-- A character that is neither a digit nor a plus sign stands in no decimal numeral. -/
theorem unsigned?_ten_eq_none {cs : List Char} {c : Char} (hc : c ∈ cs) (hplus : c ≠ '+')
    (hdigit : c.isDigit = false) : unsigned? 10 cs = none := by
  rw [Option.eq_none_iff_forall_ne_some]
  intro n hn
  obtain ⟨ds, hcs, _, hdigits, _⟩ := unsigned?_ten.1 hn
  -- the character would be one of the digits, behind the plus sign if there is one
  have hmem : c ∈ ds := by
    obtain rfl | rfl := hcs
    · exact hc
    · exact (List.mem_cons.1 hc).resolve_left hplus
  rw [hdigits c hmem] at hdigit
  cases hdigit

/-! ## Scalars -/

/-- A hexadecimal mark holds a letter. -/
theorem mem_of_behindHexMark? {cs ds : List Char} (h : behindHexMark? cs = some ds) :
    'x' ∈ cs ∨ 'X' ∈ cs := by
  unfold behindHexMark? at h
  split at h
  · exact .inl (by simp)
  · exact .inr (by simp)
  · cases h

/-- The decimal reader takes a text for what it stands for, unless it has a hexadecimal mark. -/
theorem unsigned?_ten_trimChars (s : String) :
    unsigned? 10 (Text.trimChars s.toList) = if isHexForm s = true then none else scalar? s := by
  unfold isHexForm scalar?
  cases hmark : behindHexMark? (Text.trimChars s.toList) with
  | none => simp [hmark]
  | some ds =>
    rw [if_pos (by simp)]
    -- the mark has an `x`, which is no decimal digit
    obtain hx | hx := mem_of_behindHexMark? hmark
    · exact unsigned?_ten_eq_none hx (by decide) (by decide)
    · exact unsigned?_ten_eq_none hx (by decide) (by decide)

/-- No digit is a blank. -/
theorem isBlank_of_mem_toDigits {base n : Nat} (hbase : 1 < base) (hle : base ≤ 16) :
    ∀ c ∈ Nat.toDigits base n, Text.isBlank c = false := by
  refine forall_mem_toDigits hbase fun d hd => ?_
  have key : ∀ d < 16, Text.isBlank d.digitChar = false := by decide
  exact key d (by omega)

/-- There is no blank at the ends of a numeral in decimal. -/
theorem isTrimmed_toString (n : Nat) : Text.IsTrimmed (toString n).toList := by
  rw [Nat.toString_eq_repr, Nat.toList_repr]
  exact Text.isTrimmed_of_forall (isBlank_of_mem_toDigits (by decide) (by decide))

/-- Nor at the ends of one in hexadecimal. -/
theorem isTrimmed_hex (n : Nat) : Text.IsTrimmed (hex n).toList := by
  rw [hex, String.toList_ofList]
  apply Text.isTrimmed_of_forall
  rw [List.forall_mem_cons, List.forall_mem_cons]
  exact ⟨by decide, by decide, isBlank_of_mem_toDigits (by decide) (by decide)⟩

/-- The hexadecimal text of a word stands for it. -/
theorem scalar?_hex {n : Nat} (hn : n < Word.limit) : scalar? (hex n) = some n := by
  rw [scalar?, Text.trimChars_of_isTrimmed (isTrimmed_hex n), hex, String.toList_ofList]
  exact unsigned?_toDigits (by decide) (by decide) hn

/-- The decimal text of a word stands for it. -/
theorem scalar?_toString {n : Nat} (hn : n < Word.limit) : scalar? (toString n) = some n := by
  rw [scalar?, Text.trimChars_of_isTrimmed (isTrimmed_toString n), Nat.toString_eq_repr,
    Nat.toList_repr]
  -- no decimal digit is the second character of a hexadecimal mark
  have hmark : ∀ c ∈ Nat.toDigits 10 n, c ≠ 'x' ∧ c ≠ 'X' :=
    forall_mem_toDigits (by decide) (by decide)
  have hnone : behindHexMark? (Nat.toDigits 10 n) = none := by
    unfold behindHexMark?
    split
    · next heq => exact absurd rfl (hmark 'x' (by simp [heq])).1
    · next heq => exact absurd rfl (hmark 'X' (by simp [heq])).2
    · rfl
  rw [hnone]
  exact unsigned?_toDigits (by decide) (by decide) hn

/-! ## Grouping -/

/-- Grouping puts in nothing but underscores. -/
theorem mem_group {c : Char} {ds : List Char} (h : c ∈ group ds) : c = '_' ∨ c ∈ ds := by
  fun_induction group ds with
  | case1 => exact absurd h List.not_mem_nil
  | case2 d ds _ ih =>
    obtain h | h := List.mem_cons.1 h
    · exact .inr (h ▸ List.mem_cons_self)
    · -- an underscore stands behind the digit here
      obtain h | h := List.mem_cons.1 h
      · exact .inl h
      · exact (ih h).imp_right (List.mem_cons_of_mem d)
  | case3 d ds _ ih =>
    obtain h | h := List.mem_cons.1 h
    · exact .inr (h ▸ List.mem_cons_self)
    · exact (ih h).imp_right (List.mem_cons_of_mem d)

/-- It leaves no digits out. -/
theorem group_ne_nil {ds : List Char} (h : ds ≠ []) : group ds ≠ [] := by
  cases ds with
  | nil => exact absurd rfl h
  | cons d ds =>
    rw [group]
    split <;> exact List.cons_ne_nil _ _

/-- Grouping only puts underscores between digits. -/
theorem filter_group {ds : List Char} (h : ∀ d ∈ ds, d ≠ '_') :
    (group ds).filter (· != '_') = ds := by
  fun_induction group ds with
  | case1 => rfl
  -- an underscore that was put in is taken out again
  | case2 d ds _ ih =>
    obtain ⟨hd, hds⟩ := List.forall_mem_cons.1 h
    rw [List.filter_cons_of_pos (by simpa using hd), List.filter_cons_of_neg (by simp), ih hds]
  | case3 d ds _ ih =>
    obtain ⟨hd, hds⟩ := List.forall_mem_cons.1 h
    rw [List.filter_cons_of_pos (by simpa using hd), ih hds]

/-- A numeral in decimal has no underscore to be left out. -/
theorem filter_toString (n : Nat) : (toString n).toList.filter (· != '_') = (toString n).toList := by
  rw [Nat.toString_eq_repr, Nat.toList_repr]
  have hdigits : ∀ d ∈ Nat.toDigits 10 n, d ≠ '_' := forall_mem_toDigits (by decide) (by decide)
  exact List.filter_eq_self.2 fun d hd => by simpa using hdigits d hd

/-- Without its underscores a grouped number is written in plain digits. -/
theorem filter_grouped {n : Nat} (hn : 9 < n) :
    (grouped n).toList.filter (· != '_') = '0' :: 'x' :: Nat.toDigits 16 n := by
  have hdigits : ∀ d ∈ Nat.toDigits 16 n, d ≠ '_' := forall_mem_toDigits (by decide) (by decide)
  rw [grouped, if_neg (by omega), String.toList_ofList, List.filter_cons_of_pos (by decide),
    List.filter_cons_of_pos (by decide), filter_group hdigits]

end RegisterMap.Numeral
