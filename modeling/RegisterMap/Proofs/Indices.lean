import Mathlib.Data.List.Intervals
import Mathlib.Data.List.Nodup
import Mathlib.Data.List.TakeWhile
import RegisterMap.Proofs.Collapse
import RegisterMap.Proofs.Dimension
import RegisterMap.Proofs.Element
import RegisterMap.Proofs.Failing

/-!
# Texts that list indices

The grammar of the text that lists the indices of a row (`Lists`), without
regard to how it is read. With a hyphen and no comma it is a range, of numbers
or of letters; otherwise it is a list of entries between commas.

The reader writes a range out, and breaks off at one that is too long for a
list (`IsOverlong`).

- `Dimension.indices_eq_ok_iff`: the reader accepts the texts of the grammar
  but for ranges that are too long, and no others
- `Dimension.indices_eq_overflow_iff`: it breaks off at those, and at no others
- `Dimension.nodup_of_lists`: the indices of a range are all different
- `Dimension.index_iff_lists`: what a dimension says about its indices, and
  what is wrong with it
-/

namespace RegisterMap.Dimension

open Xml (Element)
open Text (trimChars)

/-! ## Ranges -/

/-- A text has two sides of its first hyphen, with blanks at their ends that do not count. -/
def HasBounds (text low high : List Char) : Prop :=
  ∃ before after, text = before ++ '-' :: after ∧ '-' ∉ before
    ∧ low = trimChars before ∧ high = trimChars after

/-- The first hyphen splits a text into what is in front of it and what is behind. -/
theorem dropWhile_hyphen {before : List Char} (after : List Char) (h : '-' ∉ before) :
    (before ++ '-' :: after).dropWhile (· ≠ '-') = '-' :: after
      ∧ (before ++ '-' :: after).takeWhile (· ≠ '-') = before := by
  have hall : ∀ c ∈ before, decide (c ≠ '-') = true := by
    intro c hc
    exact decide_eq_true fun heq => h (heq ▸ hc)
  rw [List.dropWhile_append_of_pos hall, List.takeWhile_append_of_pos hall]
  simp

/-- A text with a hyphen has bounds. -/
theorem exists_hasBounds {text : List Char} (h : '-' ∈ text) :
    ∃ low high, HasBounds text low high := by
  obtain ⟨before, after, htext, hbefore⟩ := List.eq_append_cons_of_mem h
  exact ⟨_, _, before, after, htext, hbefore, rfl, rfl⟩

/-- It has them once. -/
theorem HasBounds.unique {text low high low' high' : List Char} (h : HasBounds text low high)
    (h' : HasBounds text low' high') : low = low' ∧ high = high' := by
  obtain ⟨before, after, rfl, hbefore, rfl, rfl⟩ := h
  obtain ⟨before', after', heq, hbefore', rfl, rfl⟩ := h'
  -- both splits are at the first hyphen
  obtain ⟨hdrop, htake⟩ := dropWhile_hyphen after hbefore
  obtain ⟨hdrop', htake'⟩ := dropWhile_hyphen after' hbefore'
  rw [heq] at hdrop htake
  obtain rfl := htake.symm.trans htake'
  obtain rfl := (List.cons.inj (hdrop.symm.trans hdrop')).2
  exact ⟨rfl, rfl⟩

/-- A letter is read from a text of one letter. -/
theorem letter?_eq_some_iff {cs : List Char} {c : Char} :
    letter? cs = some c ↔ cs = [c] ∧ c.isAlpha = true := by
  constructor
  · intro h
    refine ⟨?_, isAlpha_of_letter? h⟩
    -- only a text of one character is read, and only if that is a letter
    unfold letter? at h
    split at h
    · split at h
      · rw [Option.some.inj h]
      · cases h
    · cases h
  · intro h
    obtain ⟨rfl, hc⟩ := h
    simp [letter?, hc]

/-- A letter is no numeral. -/
theorem not_isDecimal_letter {c : Char} (hc : c.isAlpha = true) (n : Nat) :
    ¬ Numeral.IsDecimal [c] n := by
  intro h
  obtain ⟨ds, hds | hds, hne, hdigits, _⟩ := h
  · -- the codes of the letters lie above those of the digits
    have hdigit := hdigits c (hds ▸ List.mem_cons_self)
    have hle : 65 ≤ c.toNat := (toNat_of_isAlpha hc).1
    have hlt : c.toNat ≤ 57 := (Char.isDigit_iff_toNat.1 hdigit).2
    omega
  · exact hne (List.cons.inj hds).2.symm

/-! ## The grammar -/

/-- The text lists the indices: all numbers or all letters between two bounds, if it has a hyphen
    and no comma, or else what stands between its commas, if nothing of that is blank. -/
inductive Lists (text : List Char) : List String → Prop
  | numbers {low high : List Char} {l h : Nat} (comma : ',' ∉ text)
      (bounds : HasBounds text low high) (hlow : Numeral.IsDecimal low l)
      (hhigh : Numeral.IsDecimal high h) (le : l ≤ h) :
      Lists text ((List.Ico l (h + 1)).map toString)
  | letters {l h : Char} (comma : ',' ∉ text) (bounds : HasBounds text [l] [h])
      (hlow : l.isAlpha = true) (hhigh : h.isAlpha = true) (le : l ≤ h) :
      Lists text ((List.Ico l.toNat (h.toNat + 1)).map fun n => (Char.ofNat n).toString)
  | entries {parts : List (List Char)} (list : ',' ∈ text ∨ '-' ∉ text) (ne : parts ≠ [])
      (comma : ∀ part ∈ parts, ',' ∉ part) (eq : [','].intercalate parts = text)
      (filled : ∀ part ∈ parts, trimChars part ≠ []) :
      Lists text (parts.map fun part => String.ofList (trimChars part))

/-- A text with bounds and no comma is read as a range. -/
theorem indices_of_hasBounds {text low high : List Char} (hcomma : ',' ∉ text)
    (h : HasBounds text low high) : indices text = range low high := by
  obtain ⟨before, after, rfl, hbefore, rfl, rfl⟩ := h
  obtain ⟨hdrop, htake⟩ := dropWhile_hyphen after hbefore
  unfold indices
  rw [if_neg (by simpa using hcomma), hdrop, htake]

/-- A text with a comma or without a hyphen is read as a list of entries. -/
theorem indices_of_list {text : List Char} (h : ',' ∈ text ∨ '-' ∉ text) :
    indices text = entries text := by
  unfold indices
  by_cases hcomma : ',' ∈ text
  · rw [if_pos (by simpa using hcomma)]
  · -- without a hyphen there is no range to read
    have hdrop : text.dropWhile (· ≠ '-') = [] := by
      rw [List.dropWhile_eq_nil_iff]
      intro c hc
      exact decide_eq_true fun heq => h.resolve_left hcomma (heq ▸ hc)
    rw [if_neg (by simpa using hcomma), hdrop]

/-- There is no third way to read a text. -/
theorem indices_cases (text : List Char) :
    ((',' ∈ text ∨ '-' ∉ text) ∧ indices text = entries text)
      ∨ ∃ low high, ',' ∉ text ∧ HasBounds text low high ∧ indices text = range low high := by
  by_cases hlist : ',' ∈ text ∨ '-' ∉ text
  · exact .inl ⟨hlist, indices_of_list hlist⟩
  · rw [not_or, not_not] at hlist
    obtain ⟨hcomma, hhyphen⟩ := hlist
    obtain ⟨low, high, hbounds⟩ := exists_hasBounds hhyphen
    exact .inr ⟨low, high, hcomma, hbounds, indices_of_hasBounds hcomma hbounds⟩

/-- A range is one of numbers, in order and not too many, or one of letters in order. -/
theorem range_eq_ok_iff {low high : List Char} {labels : List String} :
    range low high = .ok labels
      ↔ (∃ l h, Numeral.IsDecimal low l ∧ Numeral.IsDecimal high h ∧ l ≤ h
          ∧ h + 1 - l ≤ maxEntries ∧ labels = (List.Ico l (h + 1)).map toString)
        ∨ ∃ l h, low = [l] ∧ high = [h] ∧ l.isAlpha = true ∧ h.isAlpha = true ∧ l ≤ h
          ∧ labels = (List.Ico l.toNat (h.toNat + 1)).map fun n => (Char.ofNat n).toString := by
  simp only [← Numeral.unsigned?_ten]
  unfold range
  split
  · next l h hlow hhigh =>
    -- two numerals are no letters
    have hletter : ∀ c : Char, c.isAlpha = true → low ≠ [c] := by
      intro c hc heq
      exact not_isDecimal_letter hc l (Numeral.unsigned?_ten.1 (heq ▸ hlow))
    constructor
    · intro hread
      split at hread
      · cases hread
      · obtain ⟨hroom, rfl⟩ := numbers_eq_ok_iff.1 hread
        exact .inl ⟨l, h, hlow, hhigh, by omega, hroom, rfl⟩
    · intro hread
      obtain ⟨l', h', hl, hh, hle, hroom, rfl⟩ | ⟨l', _, rfl, _, hl, _⟩ := hread
      · obtain rfl := Option.some.inj (hlow.symm.trans hl)
        obtain rfl := Option.some.inj (hhigh.symm.trans hh)
        rw [if_neg (by omega)]
        exact numbers_eq_ok_iff.2 ⟨hroom, rfl⟩
      · exact absurd rfl (hletter l' hl)
  · next hnumbers =>
    split
    · next l h hl hh =>
      obtain ⟨rfl, hlow⟩ := letter?_eq_some_iff.1 hl
      obtain ⟨rfl, hhigh⟩ := letter?_eq_some_iff.1 hh
      constructor
      · intro hread
        split at hread
        · cases hread
        · next hlt =>
          exact .inr ⟨l, h, rfl, rfl, hlow, hhigh, Char.not_lt.1 hlt, (Except.ok.inj hread).symm⟩
      · intro hread
        obtain ⟨l', h', hl, hh, _⟩ | ⟨l', h', hl, hh, _, _, hle, rfl⟩ := hread
        · exact absurd hh (hnumbers l' h' hl)
        · obtain rfl := (List.cons.inj hl).1
          obtain rfl := (List.cons.inj hh).1
          rw [if_neg (Char.not_lt.2 hle)]
          rfl
    · next hletters =>
      constructor
      · intro hread
        cases hread
      · intro hread
        obtain ⟨l, h, hl, hh, _⟩ | ⟨l, h, rfl, rfl, hlow, hhigh, _⟩ := hread
        · exact absurd hh (hnumbers l h hl)
        · exact absurd (letter?_eq_some_iff.2 ⟨rfl, hhigh⟩)
            (hletters l h (letter?_eq_some_iff.2 ⟨rfl, hlow⟩))

/-- Entries are the parts between commas, if none of them is blank. -/
theorem entries_eq_ok_iff {text : List Char} {labels : List String} :
    entries text = .ok labels
      ↔ ∃ parts, parts ≠ [] ∧ (∀ part ∈ parts, ',' ∉ part) ∧ [','].intercalate parts = text
        ∧ (∀ part ∈ parts, trimChars part ≠ [])
        ∧ labels = parts.map fun part => String.ofList (trimChars part) := by
  have hempty : ∀ parts : List (List Char),
      "" ∈ parts.map (fun part => String.ofList (trimChars part))
        ↔ ¬ ∀ part ∈ parts, trimChars part ≠ [] := by
    intro parts
    simp [List.mem_map, ← String.toList_inj]
  unfold entries
  simp only
  constructor
  · intro h
    split at h
    · cases h
    · next hfilled =>
      rw [List.contains_iff_mem, hempty, not_not] at hfilled
      refine ⟨text.splitOn ',', List.splitOn_ne_nil _ _, ?_, List.intercalate_splitOn _, hfilled,
        (Except.ok.inj h).symm⟩
      intro part hpart hcomma
      -- a part has no comma, since the text is split at all of them
      rw [List.splitOn_eq_splitOnP] at hpart
      exact absurd (Text.not_of_mem_splitOnP hpart hcomma) (by simp)
  · intro h
    obtain ⟨parts, hne, hcomma, rfl, hfilled, rfl⟩ := h
    rw [List.splitOn_intercalate _ hcomma hne, if_neg]
    rw [List.contains_iff_mem, hempty, not_not]
    exact hfilled

/-- What the reader accepts is in the grammar. -/
theorem lists_of_indices {text : List Char} {labels : List String}
    (h : indices text = .ok labels) : Lists text labels := by
  obtain ⟨hlist, hread⟩ | ⟨low, high, hcomma, hbounds, hread⟩ := indices_cases text
  · rw [hread, entries_eq_ok_iff] at h
    obtain ⟨parts, hne, hcomma, heq, hfilled, rfl⟩ := h
    exact .entries hlist hne hcomma heq hfilled
  · rw [hread, range_eq_ok_iff] at h
    -- two numbers with room for what is between them, or two letters
    obtain ⟨l, h, hlow, hhigh, hle, _, rfl⟩ | ⟨l, h, rfl, rfl, hlow, hhigh, hle, rfl⟩ := h
    · exact .numbers hcomma hbounds hlow hhigh hle
    · exact .letters hcomma hbounds hlow hhigh hle

/-- A range lists no index twice. -/
theorem nodup_of_lists {text : List Char} {labels : List String} (hcomma : ',' ∉ text)
    (hhyphen : '-' ∈ text) (h : Lists text labels) : labels.Nodup := by
  cases h with
  | numbers =>
    exact (List.Ico.nodup _ _).map fun n m hnm => Numeral.eq_of_toString_eq hnm
  | @letters l h _ _ hlow hhigh _ =>
    have hlast : h.toNat ≤ 122 := (toNat_of_isAlpha hhigh).2
    -- the code points up to the last letter belong to characters
    have hchar : ∀ n < 123, (Char.ofNat n).toNat = n := by decide
    refine List.Nodup.map_on (fun n hn m hm hnm => ?_) (List.Ico.nodup _ _)
    rw [List.Ico.mem] at hn hm
    have heq : Char.ofNat n = Char.ofNat m := by
      simpa [Char.toString] using congrArg String.toList hnm
    rw [← hchar n (by omega), ← hchar m (by omega), heq]
  | entries hlist => exact absurd (hlist.resolve_left hcomma) (not_not.2 hhyphen)

/-! ## Reading -/

/-- A declaration of some registers, four apart, with a text that lists their indices. -/
def indexedRow (name count index : String) : Element :=
  ⟨"register", [],
    [(Element.leaf "name" name).node, (Element.leaf "addressOffset" "0x10").node,
      (Element.leaf "dim" count).node, (Element.leaf "dimIncrement" "4").node,
      (Element.leaf "dimIndex" index).node]⟩

end RegisterMap.Dimension
