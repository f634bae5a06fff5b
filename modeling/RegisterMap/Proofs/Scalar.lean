import Mathlib.Data.List.Forall2
import Mathlib.Data.Nat.Digits.Defs
import Mathlib.Tactic.Ring
import RegisterMap.Proofs.Numeral

/-!
# Theory of scalars

The texts that stand for a number: blanks at both ends, a hexadecimal mark or
none, at most one plus sign, and digits of the base, which are worth what their
places say.

- `digit?_eq_some_iff`, `digitsFrom?_eq_some_iff`: digits and their value
- `IsScalar`: the texts that stand for a number
- `scalar?_eq_some_iff`: these are the ones that are read
-/

namespace RegisterMap.Numeral

/-! ## Digits -/

/-- The sixteen digits by their values. -/
def lowerDigits : List Char :=
  ['0', '1', '2', '3', '4', '5', '6', '7', '8', '9', 'a', 'b', 'c', 'd', 'e', 'f']

/-- The sixteen digits by their values, with letters in upper case. -/
def upperDigits : List Char :=
  ['0', '1', '2', '3', '4', '5', '6', '7', '8', '9', 'A', 'B', 'C', 'D', 'E', 'F']

/-- A character is the digit of a value in a base. Letters count in either case. -/
def IsDigit (base : Nat) (c : Char) (d : Nat) : Prop :=
  d < base ∧ (lowerDigits[d]? = some c ∨ upperDigits[d]? = some c)

/-- In a table that lists the characters between two others, each is found at its distance from the
    first one. -/
theorem getElem?_of_between {digits : List Char} {low high c : Char} {start : Nat}
    (h : ∀ k < high.toNat + 1 - low.toNat, digits[k + start]? = some (Char.ofNat (low.toNat + k)))
    (hlow : low ≤ c) (hhigh : c ≤ high) : digits[c.toNat - low.toNat + start]? = some c := by
  have hle : low.toNat ≤ c.toNat := hlow
  have hle' : c.toNat ≤ high.toNat := hhigh
  rw [h _ (by omega), Nat.add_sub_cancel' hle, c.ofNat_toNat]

/-- A character is read as the digit that it is. -/
theorem digit?_eq_some_iff {base d : Nat} {c : Char} : digit? base c = some d ↔ IsDigit base c d := by
  constructor
  · intro h
    obtain ⟨hvalue, hd⟩ := Option.filter_eq_some_iff.1 h
    refine ⟨of_decide_eq_true hd, ?_⟩
    split at hvalue
    · next hc =>
      have hdecimal : lowerDigits[c.toNat - '0'.toNat + 0]? = some c :=
        getElem?_of_between (by decide) hc.1 hc.2
      rw [← Option.some.inj hvalue]
      exact .inl hdecimal
    · split at hvalue
      · next hc =>
        rw [← Option.some.inj hvalue]
        exact .inl (getElem?_of_between (by decide) hc.1 hc.2)
      · obtain ⟨hc, hsome⟩ := Option.ite_none_right_eq_some.1 hvalue
        rw [← Option.some.inj hsome]
        exact .inr (getElem?_of_between (by decide) hc.1 hc.2)
  · intro h
    obtain ⟨hd, hdigit⟩ := h
    have hread : ∀ d < 16, lowerDigits[d]?.bind (digit? 16) = some d
        ∧ upperDigits[d]?.bind (digit? 16) = some d := by
      decide
    -- a base below sixteen only refuses more
    have hsixteen : digit? 16 c = some d := by
      obtain hlower | hupper := hdigit
      · have hvalue := (hread d (List.getElem?_eq_some_iff.1 hlower).1).1
        rwa [hlower] at hvalue
      · have hvalue := (hread d (List.getElem?_eq_some_iff.1 hupper).1).2
        rwa [hupper] at hvalue
    exact Option.filter_eq_some_iff.2
      ⟨(Option.filter_eq_some_iff.1 hsixteen).1, decide_eq_true hd⟩

/-- Digits are read to what their places say, behind the number that is read on from. -/
theorem digitsFrom?_eq_some_iff {base n m : Nat} {cs : List Char} :
    digitsFrom? base n cs = some m
      ↔ ∃ ds, List.Forall₂ (IsDigit base) cs ds
        ∧ m = n * base ^ cs.length + Nat.ofDigits base ds.reverse := by
  induction cs generalizing n with
  | nil => simp [digitsFrom?, eq_comm]
  | cons c cs ih =>
    simp only [digitsFrom?, Option.bind_eq_some_iff, digit?_eq_some_iff, ih,
      List.forall₂_cons_left_iff]
    -- what has been read so far moves up by one place for each digit behind it
    have hplace : ∀ (d : Nat) (ds : List Nat), List.Forall₂ (IsDigit base) cs ds →
        (base * n + d) * base ^ cs.length + Nat.ofDigits base ds.reverse
          = n * base ^ (c :: cs).length + Nat.ofDigits base (d :: ds).reverse := by
      intro d ds hds
      rw [List.reverse_cons, Nat.ofDigits_append, List.length_reverse, ← hds.length_eq,
        Nat.ofDigits_singleton, List.length_cons]
      ring
    constructor
    · intro h
      obtain ⟨d, hd, ds, hds, rfl⟩ := h
      exact ⟨d :: ds, ⟨d, ds, hd, hds, rfl⟩, hplace d ds hds⟩
    · intro h
      obtain ⟨_, ⟨d, ds, hd, hds, rfl⟩, rfl⟩ := h
      exact ⟨d, hd, ds, hds, (hplace d ds hds).symm⟩

/-! ## Numerals -/

/-- A numeral of a base: digits, maybe behind a plus sign, whose places give its value. -/
def IsNumeral (base : Nat) (cs : List Char) (n : Nat) : Prop :=
  ∃ digits ds, (cs = digits ∨ cs = '+' :: digits) ∧ digits ≠ []
    ∧ List.Forall₂ (IsDigit base) digits ds ∧ n = Nat.ofDigits base ds.reverse

/-- A text is read in a base if it is a numeral of a word. -/
theorem unsigned?_iff_isNumeral {base n : Nat} {cs : List Char} :
    unsigned? base cs = some n ↔ n < Word.limit ∧ IsNumeral base cs n := by
  simp only [unsigned?_eq_some_iff, digitsFrom?_eq_some_iff, Nat.zero_mul, Nat.zero_add, IsNumeral]
  constructor
  · intro h
    obtain ⟨digits, hcs, hne, ⟨ds, hds, hn⟩, hlt⟩ := h
    exact ⟨hlt, digits, ds, hcs, hne, hds, hn⟩
  · intro h
    obtain ⟨hlt, digits, ds, hcs, hne, hds, hn⟩ := h
    exact ⟨digits, hcs, hne, ⟨ds, hds, hn⟩, hlt⟩

/-- A hexadecimal mark in front of some digits. -/
def IsMarked (cs digits : List Char) : Prop := cs = '0' :: 'x' :: digits ∨ cs = '0' :: 'X' :: digits

/-- What is behind a mark is found in both of its forms. -/
theorem behindHexMark?_eq_some_iff {cs digits : List Char} :
    behindHexMark? cs = some digits ↔ IsMarked cs digits := by
  unfold behindHexMark? IsMarked
  split
  · simp [eq_comm]
  · simp [eq_comm]
  · -- a text that begins with neither form has no mark
    next hlower hupper =>
    constructor
    · intro h
      cases h
    · intro h
      obtain h | h := h
      · exact absurd h (hlower digits)
      · exact absurd h (hupper digits)

/-- A text that stands for a number, apart from blanks: a hexadecimal numeral behind a mark, or a
    decimal one if there is no mark. -/
inductive IsScalar (cs : List Char) (n : Nat) : Prop
  | hexadecimal {digits : List Char} (hmark : IsMarked cs digits) (hdigits : IsNumeral 16 digits n)
  | decimal (hmark : ∀ digits, ¬ IsMarked cs digits) (hdigits : IsNumeral 10 cs n)

/-- What is read of a text without the blanks at its ends. -/
theorem scalar?_iff_isScalar {s : String} {n : Nat} :
    scalar? s = some n ↔ n < Word.limit ∧ IsScalar (Text.trimChars s.toList) n := by
  unfold scalar?
  cases hmark : behindHexMark? (Text.trimChars s.toList) with
  | some digits =>
    -- a text with a mark is read in hexadecimal, and in no other way
    have hmarked := behindHexMark?_eq_some_iff.1 hmark
    simp only [hmark, unsigned?_iff_isNumeral]
    refine and_congr_right fun _ => ⟨fun h => .hexadecimal hmarked h, fun h => ?_⟩
    cases h with
    | hexadecimal hmarked' hdigits =>
      have heq := hmark.symm.trans (behindHexMark?_eq_some_iff.2 hmarked')
      exact Option.some.inj heq ▸ hdigits
    | decimal hnone hdigits => exact absurd hmarked (hnone digits)
  | none =>
    -- one without is read in decimal
    have hnone : ∀ digits, ¬ IsMarked (Text.trimChars s.toList) digits := by
      intro digits hmarked
      rw [behindHexMark?_eq_some_iff.2 hmarked] at hmark
      cases hmark
    simp only [hmark, unsigned?_iff_isNumeral]
    refine and_congr_right fun _ => ⟨fun h => .decimal hnone h, fun h => ?_⟩
    cases h with
    | hexadecimal hmarked hdigits => exact absurd hmarked (hnone _)
    | decimal _ hdigits => exact hdigits

/-! ## Blanks -/

/-- A digit is no blank. -/
theorem IsDigit.not_blank {base d : Nat} {c : Char} (h : IsDigit base c d) :
    Text.isBlank c = false := by
  have hnone : (lowerDigits ++ upperDigits).any Text.isBlank = false := by decide
  have hmem : c ∈ lowerDigits ++ upperDigits :=
    List.mem_append.2 (h.2.imp List.mem_of_getElem? List.mem_of_getElem?)
  exact Bool.eq_false_iff.2 (List.any_eq_false.1 hnone c hmem)

/-- Digits have no blank among them. -/
theorem not_blank_of_digits {base : Nat} {digits : List Char} {ds : List Nat}
    (h : List.Forall₂ (IsDigit base) digits ds) : ∀ c ∈ digits, Text.isBlank c = false := by
  induction h with
  | nil => exact fun c hc => absurd hc List.not_mem_nil
  | cons hdigit _ ih => exact List.forall_mem_cons.2 ⟨hdigit.not_blank, ih⟩

/-- A numeral has no blank in it, since a plus sign is none either. -/
theorem IsNumeral.not_blank {base n : Nat} {cs : List Char} (h : IsNumeral base cs n) :
    ∀ c ∈ cs, Text.isBlank c = false := by
  obtain ⟨digits, ds, hcs, _, hds, _⟩ := h
  obtain rfl | rfl := hcs
  · exact not_blank_of_digits hds
  · exact List.forall_mem_cons.2 ⟨by decide, not_blank_of_digits hds⟩

/-- A number has no blanks in it. -/
theorem IsScalar.not_blank {cs : List Char} {n : Nat} (h : IsScalar cs n) :
    ∀ c ∈ cs, Text.isBlank c = false := by
  cases h with
  | @hexadecimal digits hmark hdigits =>
    -- the mark in both forms
    have hmarked : ∀ x : Char, Text.isBlank x = false →
        ∀ c ∈ '0' :: x :: digits, Text.isBlank c = false := by
      intro x hx
      exact List.forall_mem_cons.2 ⟨by decide, List.forall_mem_cons.2 ⟨hx, hdigits.not_blank⟩⟩
    obtain rfl | rfl := hmark
    · exact hmarked 'x' (by decide)
    · exact hmarked 'X' (by decide)
  | decimal _ hdigits => exact hdigits.not_blank

/-! ## Texts -/

/-- A text stands for a number if and only if it is read to it: blanks at its ends do not count, and
    the number is a word. The hexadecimal text of a word stands for it. -/
theorem scalar?_eq_some_iff :
    (∀ (s : String) (n : Nat), scalar? s = some n
        ↔ n < Word.limit ∧ ∃ front cs back, s.toList = front ++ cs ++ back
          ∧ (∀ c ∈ front ++ back, Text.isBlank c = true) ∧ IsScalar cs n)
      ∧ ∀ n < Word.limit, scalar? (hex n) = some n := by
  refine ⟨fun s n => ?_, fun n hn => scalar?_hex hn⟩
  rw [scalar?_iff_isScalar]
  refine and_congr_right fun _ => ⟨fun h => ?_, fun h => ?_⟩
  · obtain ⟨front, back, hs, hblank⟩ := Text.exists_append_trimChars s.toList
    exact ⟨front, _, back, hs, hblank, h⟩
  · obtain ⟨front, cs, back, hs, hblank, hscalar⟩ := h
    -- no blank of the text itself is taken off, since a number holds none
    rw [hs, Text.trimChars_append hblank (Text.isTrimmed_of_forall hscalar.not_blank)]
    exact hscalar

/-- A sign, a mark in capitals, and digits of both cases. -/
theorem scalar?_eq_some_iff_plus :
    scalar? "\t0X+1f " = some 0x1F
      ∧ (∃ front cs back, "\t0X+1f ".toList = front ++ cs ++ back
        ∧ (∀ c ∈ front ++ back, Text.isBlank c = true) ∧ IsScalar cs 0x1F)
      ∧ 0x40020000 < Word.limit ∧ scalar? (hex 0x40020000) = some 0x40020000 := by
  have hread : scalar? "\t0X+1f " = some 0x1F := by decide +kernel
  obtain ⟨hiff, hhex⟩ := scalar?_eq_some_iff
  exact ⟨hread, ((hiff _ _).1 hread).2, by decide, hhex _ (by decide)⟩

end RegisterMap.Numeral
