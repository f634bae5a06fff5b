import RegisterMap.Description
import RegisterMap.Proofs.Collapse
import RegisterMap.Proofs.LetterCase

/-!
# Theory of descriptions

A description is one single-spaced line. Collapsing a text leaves single spaces
between its words, and the upper-case form of a character that is no blank holds
none, which is read off the case tables as intervals. The line starts with a
character that is its own upper-case form, so that a description which is read
once more stays as it is.

- `normalize_eq_some_iff`, `normalize_eq_none_iff`: which line is read from a
  text, and when there is none
- `normalize_stable`: a description is one line and is its own description
-/

namespace RegisterMap.Text

/-! ## Upper case -/

/-- No run of the table leads to a blank. -/
theorem upperRuns_apart : ∀ run ∈ Table.upperRuns, ∀ blank ∈ blankRanges,
    blank.2 < run.2.2.2 ∨ run.2.2.2 + (run.2.1 - run.1) < blank.1 := by
  decide +kernel

/-- No expansion to upper case has a blank in it. -/
theorem upperExpansions_apart : ∀ expansion ∈ Table.upperExpansions, ∀ n ∈ expansion.2,
    isBlank (Char.ofNat n) = false := by
  decide +kernel

/-- The character zero is no blank. -/
theorem blankRanges_pos : ∀ blank ∈ blankRanges, 0 < blank.1 := by decide

/-- No character is shifted onto a blank. -/
theorem not_blank_of_shifted {n m : Nat} (h : shifted? Table.upperRuns n = some m) :
    isBlank (Char.ofNat m) = false := by
  obtain ⟨run, hrun, ⟨hfirst, hlast, _⟩, hm⟩ := exists_run_of_shifted? h
  rw [isBlank, inRanges, List.any_eq_false]
  intro blank hblank
  -- the targets of a run and the blanks are apart, by the tables
  have hapart := upperRuns_apart _ hrun blank hblank
  have hlow : 0 < blank.1 := blankRanges_pos blank hblank
  have hcode := toNat_ofNat_or m
  simp only [Bool.and_eq_true, decide_eq_true_eq]
  omega

/-- The upper-case form of a character that is no blank holds no blank. -/
theorem isUnbroken_upper {c : Char} (hc : isBlank c = false) : IsUnbroken (upper c) where
  ne_nil := by
    obtain ⟨d, ds, hupper, -⟩ := exists_upper_eq_cons c
    exact hupper ▸ List.cons_ne_nil d ds
  not_blank d hd := by
    -- an expansion, a shifted character, or the character itself
    obtain ⟨codes, hmem, hupper⟩ | ⟨n, hn, hupper⟩ | hupper := upper_cases c
    · rw [hupper] at hd
      obtain ⟨n, hn, rfl⟩ := List.mem_map.1 hd
      exact upperExpansions_apart _ hmem n hn
    · rw [hupper] at hd
      exact List.mem_singleton.1 hd ▸ not_blank_of_shifted hn
    · rw [hupper] at hd
      exact List.mem_singleton.1 hd ▸ hc

end RegisterMap.Text

namespace RegisterMap.Description

open Text

/-! ## Capitals -/

/-- Capitals put no blanks into a spaced text. -/
theorem isSpaced_capitalize {line : List Char} (h : IsSpaced line) :
    IsSpaced (capitalize line) := by
  cases line with
  | nil => exact h
  | cons c line => exact h.append_of_cons (isUnbroken_upper (h.head c rfl))

/-- A capitalized text stays as it is. -/
theorem capitalize_capitalize (cs : List Char) : capitalize (capitalize cs) = capitalize cs := by
  cases cs with
  | nil => rfl
  | cons c cs =>
    obtain ⟨d, ds, hupper, hd⟩ := exists_upper_eq_cons c
    rw [capitalize, hupper, List.cons_append, capitalize, hd, List.singleton_append]

/-- Only the empty text has an empty capitalized form. -/
theorem capitalize_eq_nil_iff {cs : List Char} : capitalize cs = [] ↔ cs = [] := by
  cases cs with
  | nil => simp [capitalize]
  | cons c cs =>
    obtain ⟨d, ds, hupper, -⟩ := exists_upper_eq_cons c
    simp [capitalize, hupper]

/-- The lone letter A comes from itself and from the lone small letter. -/
theorem capitalize_eq_capitalA_iff {cs : List Char} :
    capitalize cs = ['A'] ↔ cs = ['a'] ∨ cs = ['A'] := by
  cases cs with
  | nil => simp [capitalize]
  | cons c cs =>
    -- a capital may be several characters, but is never none
    have hsplit : upper c ++ cs = ['A'] ↔ upper c = ['A'] ∧ cs = [] := by
      obtain ⟨d, ds, hupper, -⟩ := exists_upper_eq_cons c
      rw [hupper, List.cons_append, List.cons.injEq, List.append_eq_nil_iff, List.cons.injEq,
        and_assoc]
    rw [capitalize, hsplit, upper_eq_capitalA_iff, List.cons.injEq, List.cons.injEq, or_and_right]

/-! ## Descriptions -/

/-- A description is the collapsed text with a capital, unless nothing or the letter A is left. -/
theorem normalize_eq_some_iff {text s : String} : normalize text = some s
    ↔ s ≠ "" ∧ s ≠ "A" ∧ s.toList = capitalize (collapse text.toList) := by
  have hempty : s = "" ↔ s.toList = [] := by rw [← String.toList_inj]; rfl
  have hletter : s = "A" ↔ s.toList = ['A'] := by rw [← String.toList_inj]; rfl
  rw [Ne, Ne, hempty, hletter, normalize]
  split
  · -- the two texts that stand for no description
    next hnil => exact iff_of_false (by simp) fun h => h.1 (h.2.2.trans hnil)
  · next hcapital => exact iff_of_false (by simp) fun h => h.2.1 (h.2.2.trans hcapital)
  · next hnil hcapital =>
    rw [Option.some.injEq, ← String.toList_inj, String.toList_ofList]
    constructor
    · intro h
      exact ⟨h ▸ hnil, h ▸ hcapital, h.symm⟩
    · intro h
      exact h.2.2.symm

/-- There is no description of a blank text, nor of a single letter `a` of either case. -/
theorem normalize_eq_none_iff {text : String} : normalize text = none
    ↔ collapse text.toList = [] ∨ collapse text.toList = ['a'] ∨ collapse text.toList = ['A'] := by
  rw [← capitalize_eq_capitalA_iff, ← capitalize_eq_nil_iff, normalize]
  split
  · next hnil => exact iff_of_true rfl (.inl hnil)
  · next hcapital => exact iff_of_true rfl (.inr hcapital)
  · next hnil hcapital => exact iff_of_false (by simp) (not_or.2 ⟨hnil, hcapital⟩)

/-- A description is a single-spaced line. -/
theorem isSpaced_of_normalize {text s : String} (h : normalize text = some s) :
    IsSpaced s.toList := by
  rw [(normalize_eq_some_iff.1 h).2.2]
  exact isSpaced_capitalize (isSpaced_collapse _)

/-- The only blanks of a description are spaces. -/
theorem blank_of_mem_normalize {text s : String} (h : normalize text = some s) :
    ∀ c ∈ s.toList, isBlank c → c = ' ' :=
  (isSpaced_of_normalize h).space

/-- A description is its own description. -/
theorem normalize_of_normalize {text s : String} (h : normalize text = some s) :
    normalize s = some s := by
  obtain ⟨hne, hne', heq⟩ := normalize_eq_some_iff.1 h
  refine normalize_eq_some_iff.2 ⟨hne, hne', ?_⟩
  calc s.toList = capitalize (collapse text.toList) := heq
    _ = capitalize (capitalize (collapse text.toList)) := (capitalize_capitalize _).symm
    _ = capitalize s.toList := by rw [heq]
    _ = capitalize (collapse s.toList) := by rw [collapse_of_isSpaced (isSpaced_of_normalize h)]

/-- A description is a single-spaced line, which has the words of the text with the first character
    in upper case and is its own description. There is none for blanks and for a lone letter A. -/
theorem normalize_stable (text : String) :
    (∀ s, normalize text = some s →
      s ≠ "" ∧ s ≠ "A" ∧ IsSpaced s.toList
        ∧ (∃ c rest, Collapses text.toList (c :: rest) ∧ s.toList = upper c ++ rest)
        ∧ normalize s = some s)
    ∧ (normalize text = none ↔ (∀ c ∈ text.toList, isBlank c = true)
        ∨ Collapses text.toList ['a'] ∨ Collapses text.toList ['A']) := by
  constructor
  · intro s h
    obtain ⟨hne, hne', heq⟩ := normalize_eq_some_iff.1 h
    refine ⟨hne, hne', isSpaced_of_normalize h, ?_, normalize_of_normalize h⟩
    cases hline : collapse text.toList with
    | nil =>
      -- nothing is left of blanks, and that is no description
      have hnone := normalize_eq_none_iff.2 (.inl hline)
      rw [h] at hnone
      cases hnone
    | cons c rest =>
      rw [hline, capitalize] at heq
      exact ⟨c, rest, collapses_iff.2 hline, heq⟩
  · rw [normalize_eq_none_iff, collapse_eq_nil_iff, collapses_iff, collapses_iff]

/-- The ligature of two letters has an upper-case form of two letters. -/
theorem normalize_stable_ligature :
    normalize "  \ufb01rst\u2003port\n\tmode " = some "FIrst port mode"
      ∧ IsSpaced "FIrst port mode".toList
      ∧ normalize "FIrst port mode" = some "FIrst port mode" := by
  have h : normalize "  \ufb01rst\u2003port\n\tmode " = some "FIrst port mode" := by
    decide +kernel
  obtain ⟨-, -, hspaced, -, hstable⟩ := (normalize_stable _).1 _ h
  exact ⟨h, hspaced, hstable⟩

end RegisterMap.Description
