import Mathlib.Data.List.Chain
import RegisterMap.Proofs.Blank

/-!
# Theory of collapsed texts

The words of a text are read from the left (`HasWords`), and a line is
single-spaced if it has no blanks but single spaces between its words
(`IsSpaced`). A text collapses to the single-spaced line that has its words
(`Collapses`), and there is just one.

- `hasWords_iff`: the words of a text are those that are read from it
- `IsSpaced.eq_intercalate`: a single-spaced line is given by its words
- `collapses_iff`: what a text collapses to
-/

namespace RegisterMap.Text

variable {c : Char} {cs w line : List Char} {ws : List (List Char)}

/-- The pieces between separators hold no separator. -/
theorem not_of_mem_splitOnP {α : Type} {p : α → Bool} {as piece : List α} {a : α}
    (hpiece : piece ∈ as.splitOnP p) (ha : a ∈ piece) : p a = false := by
  induction as generalizing piece with
  | nil =>
    rw [List.splitOnP_nil, List.mem_singleton] at hpiece
    exact absurd (hpiece ▸ ha) List.not_mem_nil
  | cons b as ih =>
    rw [List.splitOnP_cons_eq_if_modifyHead] at hpiece
    by_cases hb : p b
    · rw [if_pos hb] at hpiece
      obtain h | h := List.mem_cons.1 hpiece
      · exact absurd (h ▸ ha) List.not_mem_nil
      · exact ih h ha
    · rw [if_neg hb] at hpiece
      cases hrest : as.splitOnP p with
      | nil => exact absurd hrest (List.splitOnP_ne_nil p as)
      | cons first rest =>
        rw [hrest, List.modifyHead_cons] at hpiece
        -- a character that is no separator joins the piece behind it
        obtain h | h := List.mem_cons.1 hpiece
        · obtain hab | ha := List.mem_cons.1 (h ▸ ha)
          · exact hab ▸ Bool.eq_false_iff.2 hb
          · exact ih (hrest ▸ List.mem_cons_self) ha
        · exact ih (hrest ▸ List.mem_cons_of_mem _ h) ha

/-! ## Words -/

/-- One or more characters of which none is a blank. -/
structure IsUnbroken (w : List Char) : Prop where
  ne_nil : w ≠ []
  not_blank : ∀ c ∈ w, isBlank c = false

/-- A character that is no blank is unbroken on its own. -/
theorem isUnbroken_singleton (hc : isBlank c = false) : IsUnbroken [c] :=
  ⟨List.cons_ne_nil c [], List.forall_mem_singleton.2 hc⟩

/-- An unbroken text stays so with one more such character in front. -/
theorem IsUnbroken.cons (hw : IsUnbroken w) (hc : isBlank c = false) : IsUnbroken (c :: w) :=
  ⟨List.cons_ne_nil c w, List.forall_mem_cons.2 ⟨hc, hw.not_blank⟩⟩

/-- The words of a text: blanks are passed over, and a word goes on to the next blank
    or to the end. -/
inductive HasWords : List Char → List (List Char) → Prop
  | nil : HasWords [] []
  | blank {c : Char} {cs : List Char} {ws : List (List Char)} (hc : isBlank c = true)
      (h : HasWords cs ws) : HasWords (c :: cs) ws
  | word {w cs : List Char} {ws : List (List Char)} (hw : IsUnbroken w)
      (hend : ∀ c, cs.head? = some c → isBlank c = true) (h : HasWords cs ws) :
      HasWords (w ++ cs) (w :: ws)

/-- An unbroken text is one word. -/
theorem IsUnbroken.hasWords (hw : IsUnbroken w) : HasWords w [w] := by
  have h : HasWords (w ++ []) [w] := .word hw (by simp) .nil
  rwa [List.append_nil] at h

/-- A blank takes the words of a text apart. -/
theorem words_append_cons (cs : List Char) {ds : List Char} (hc : isBlank c = true) :
    words (cs ++ c :: ds) = words cs ++ words ds := by
  rw [words, List.splitOnP_append_cons cs ds hc, List.filter_append, words, words]

/-- A blank in front adds no word. -/
theorem words_cons_of_blank (hc : isBlank c = true) : words (c :: cs) = words cs :=
  words_append_cons [] hc

/-- An unbroken text is read as one word. -/
theorem words_of_isUnbroken (hw : IsUnbroken w) : words w = [w] := by
  have hsplit : w.splitOnP isBlank = [w] :=
    List.splitOnP_eq_singleton fun c hc => hw.not_blank c hc
  rw [words, hsplit]
  simp [hw.ne_nil]

/-- What stands in front of the first blank is the first word. -/
theorem words_append (hw : IsUnbroken w) (hend : ∀ c, cs.head? = some c → isBlank c = true) :
    words (w ++ cs) = w :: words cs := by
  -- at the end of the text there is no blank to stop the word
  cases cs with
  | nil =>
    rw [List.append_nil, words_of_isUnbroken hw]
    rfl
  | cons c cs =>
    have hc := hend c rfl
    rw [words_append_cons w hc, words_cons_of_blank hc, words_of_isUnbroken hw,
      List.singleton_append]

/-- The words that a text has are those that are read. -/
theorem HasWords.words_eq (h : HasWords cs ws) : words cs = ws := by
  induction h with
  | nil => rfl
  | blank hc _ ih => rw [words_cons_of_blank hc, ih]
  | word hw hend _ ih => rw [words_append hw hend, ih]

/-- The head of a text with a blank in front is that blank. -/
theorem blank_of_head_cons (hc : isBlank c = true) :
    ∀ d, (c :: cs).head? = some d → isBlank d = true := by
  intro d hd
  exact Option.some.inj hd ▸ hc

/-- A character in front of a text starts a word or joins the first one. -/
theorem HasWords.exists_cons (h : HasWords cs ws) (hc : isBlank c = false) :
    ∃ ws', HasWords (c :: cs) ws' := by
  cases h with
  | nil => exact ⟨_, .word (isUnbroken_singleton hc) (by simp) .nil⟩
  | blank hd h => exact ⟨_, .word (isUnbroken_singleton hc) (blank_of_head_cons hd) (.blank hd h)⟩
  | word hw hend h => exact ⟨_, .word (hw.cons hc) hend h⟩

/-- Every text has words, if only none. -/
theorem exists_hasWords (cs : List Char) : ∃ ws, HasWords cs ws := by
  induction cs with
  | nil => exact ⟨[], .nil⟩
  | cons c cs ih =>
    obtain ⟨ws, h⟩ := ih
    -- a blank ends no word here, any other character starts or extends one
    by_cases hc : isBlank c = true
    · exact ⟨ws, .blank hc h⟩
    · exact h.exists_cons (Bool.eq_false_iff.2 hc)

/-- The words of a text, and no others, are read from it. -/
theorem hasWords_iff : HasWords cs ws ↔ words cs = ws := by
  constructor
  · exact HasWords.words_eq
  · rintro rfl
    obtain ⟨ws, h⟩ := exists_hasWords cs
    exact h.words_eq ▸ h

/-- Every word that is read is unbroken. -/
theorem isUnbroken_of_mem_words (h : w ∈ words cs) : IsUnbroken w := by
  obtain ⟨hpiece, hne⟩ := List.mem_filter.1 h
  exact ⟨by simpa using hne, fun c hc => not_of_mem_splitOnP hpiece hc⟩

/-- Blanks have no words. -/
theorem hasWords_nil_iff : HasWords cs [] ↔ ∀ c ∈ cs, isBlank c = true := by
  constructor
  · intro h
    -- no word was read at any step
    generalize hws : ([] : List (List Char)) = ws at h
    induction h with
    | nil => exact fun c hc => absurd hc List.not_mem_nil
    | blank hc _ ih => exact List.forall_mem_cons.2 ⟨hc, ih hws⟩
    | word => cases hws
  · intro h
    induction cs with
    | nil => exact .nil
    | cons c cs ih =>
      obtain ⟨hc, hcs⟩ := List.forall_mem_cons.1 h
      exact .blank hc (ih hcs)

/-! ## Single-spaced lines -/

/-- The blanks of a line are single spaces between characters that are no blanks: none
    stands at an end or next to another one. -/
structure IsSpaced (line : List Char) : Prop extends IsTrimmed line where
  space : ∀ c ∈ line, isBlank c = true → c = ' '
  apart : line.IsChain fun c d => isBlank c = false ∨ isBlank d = false

/-- The empty text is spaced. -/
theorem isSpaced_nil : IsSpaced [] := ⟨isTrimmed_of_forall (by simp), by simp, .nil⟩

/-- So is a single word. -/
theorem IsUnbroken.isSpaced (hw : IsUnbroken w) : IsSpaced w where
  toIsTrimmed := isTrimmed_of_forall hw.not_blank
  space c hc hblank := by
    rw [hw.not_blank c hc] at hblank
    cases hblank
  apart := (List.pairwise_of_forall_mem_list fun c hc _ _ => .inl (hw.not_blank c hc)).isChain

/-- A word in front of what can end a single-spaced line. -/
theorem IsUnbroken.isSpaced_append (hw : IsUnbroken w)
    (hlast : ∀ c, cs.getLast? = some c → isBlank c = false)
    (hspace : ∀ c ∈ cs, isBlank c = true → c = ' ')
    (hapart : cs.IsChain fun c d => isBlank c = false ∨ isBlank d = false) :
    IsSpaced (w ++ cs) where
  head c hc := by
    rw [List.head?_append_of_ne_nil w hw.ne_nil] at hc
    exact hw.isSpaced.head c hc
  last c hc := by
    -- the last character is that of the part behind, if there is one
    by_cases hne : cs = []
    · rw [hne, List.append_nil] at hc
      exact hw.isSpaced.last c hc
    · rw [List.getLast?_append_of_ne_nil w hne] at hc
      exact hlast c hc
  space c hc hblank := by
    obtain hc | hc := List.mem_append.1 hc
    · exact hw.isSpaced.space c hc hblank
    · exact hspace c hc hblank
  apart := by
    -- where the two parts meet, the last character of the word is no blank
    rw [List.isChain_append]
    exact ⟨hw.isSpaced.apart, hapart, fun c hc _ _ => .inl (hw.isSpaced.last c hc)⟩

/-- A word and a space may be put in front of a spaced text that is not empty. -/
theorem IsSpaced.append_space (hw : IsUnbroken w) (h : IsSpaced line) (hne : line ≠ []) :
    IsSpaced (w ++ ' ' :: line) := by
  apply hw.isSpaced_append
  · intro c hc
    rw [getLast?_of_suffix (List.suffix_cons ' ' line) hne] at hc
    exact h.last c hc
  · exact List.forall_mem_cons.2 ⟨fun _ => rfl, h.space⟩
  · exact List.isChain_cons.2 ⟨fun d hd => .inr (h.head d hd), h.apart⟩

/-- The first character of a single-spaced line can be replaced by a word. -/
theorem IsSpaced.append_of_cons (h : IsSpaced (c :: line)) (hw : IsUnbroken w) :
    IsSpaced (w ++ line) := by
  apply hw.isSpaced_append
  · -- the last character is still that of the line
    intro d hd
    have hne : line ≠ [] := by
      rintro rfl
      cases hd
    exact h.last d ((getLast?_of_suffix (List.suffix_cons c line) hne).trans hd)
  · exact (List.forall_mem_cons.1 h.space).2
  · exact (List.isChain_cons.1 h.apart).2

/-- What is behind a blank of a single-spaced line is such a line, and not empty. -/
theorem IsSpaced.behind_blank (h : IsSpaced (w ++ c :: line)) (hc : isBlank c = true) :
    c = ' ' ∧ line ≠ [] ∧ IsSpaced line := by
  -- with nothing behind it the blank would end the line
  have hne : line ≠ [] := by
    rintro rfl
    have hlast := h.last c (by simp)
    rw [hc] at hlast
    cases hlast
  obtain ⟨hfront, happart⟩ := List.isChain_cons.1 h.apart.right_of_append
  refine ⟨h.space c (by simp) hc, hne, ⟨⟨?_, ?_⟩, ?_, happart⟩⟩
  · intro d hd
    exact (hfront d hd).resolve_left (by simp [hc])
  · intro d hd
    have hsuffix : line <:+ w ++ c :: line := ⟨w ++ [c], by simp⟩
    exact h.last d ((getLast?_of_suffix hsuffix hne).trans hd)
  · intro d hd
    exact h.space d (List.mem_append_right w (List.mem_cons_of_mem c hd))

/-- Words with one space between neighbours are the words of that line. -/
theorem hasWords_intercalate (h : ∀ w ∈ ws, IsUnbroken w) :
    HasWords ([' '].intercalate ws) ws := by
  induction ws with
  | nil => exact .nil
  | cons w ws ih =>
    obtain ⟨hw, hws⟩ := List.forall_mem_cons.1 h
    -- the last word has no space behind it
    by_cases hne : ws = []
    · rw [hne, List.intercalate_singleton]
      exact hw.hasWords
    · rw [List.intercalate_cons_of_ne_nil hne, List.append_assoc, List.singleton_append]
      exact .word hw (blank_of_head_cons rfl) (.blank rfl (ih hws))

/-- Words with one space between neighbours are a single-spaced line. -/
theorem isSpaced_intercalate (h : ∀ w ∈ ws, IsUnbroken w) : IsSpaced ([' '].intercalate ws) := by
  induction ws with
  | nil => exact isSpaced_nil
  | cons w ws ih =>
    obtain ⟨hw, hws⟩ := List.forall_mem_cons.1 h
    by_cases hne : ws = []
    · rw [hne, List.intercalate_singleton]
      exact hw.isSpaced
    · rw [List.intercalate_cons_of_ne_nil hne, List.append_assoc, List.singleton_append]
      -- words that make an empty text are none
      refine (ih hws).append_space hw fun hnil => hne ?_
      exact (hnil ▸ hasWords_intercalate hws).words_eq.symm

/-- A single-spaced line is given by its words. -/
theorem IsSpaced.eq_intercalate (h : IsSpaced line) (hwords : HasWords line ws) :
    line = [' '].intercalate ws := by
  induction ws generalizing line with
  | nil =>
    cases line with
    | nil => rfl
    | cons c line =>
      have hblank := hasWords_nil_iff.1 hwords c List.mem_cons_self
      rw [h.head c rfl] at hblank
      cases hblank
  | cons w ws ih =>
    cases hwords with
    | blank hc _ =>
      -- no blank stands in front
      rw [h.head _ rfl] at hc
      cases hc
    | @word _ rest _ hw hend hrest =>
      cases rest with
      | nil =>
        obtain rfl : [] = ws := hrest.words_eq
        rw [List.append_nil, List.intercalate_singleton]
      | cons c rest =>
        -- the blank behind the word is one space, and the rest is a shorter line of the same kind
        have hc := hend c rfl
        obtain ⟨rfl, hne, hspaced⟩ := h.behind_blank hc
        have hrest' : HasWords rest ws := by
          rwa [hasWords_iff, words_cons_of_blank hc, ← hasWords_iff] at hrest
        have heq := ih hspaced hrest'
        -- something stands behind the space, so there is another word
        have hws : ws ≠ [] := by
          rintro rfl
          exact hne heq
        rw [List.intercalate_cons_of_ne_nil hws, ← heq, List.append_assoc, List.singleton_append]

/-! ## Collapsed texts -/

/-- A text collapses to a single-spaced line that has its words. -/
structure Collapses (cs line : List Char) : Prop where
  isSpaced : IsSpaced line
  sameWords : ∃ ws, HasWords cs ws ∧ HasWords line ws

/-- A text collapses to the line that is made of its words. -/
theorem collapses_iff : Collapses cs line ↔ collapse cs = line := by
  constructor
  · intro h
    obtain ⟨ws, hcs, hline⟩ := h.sameWords
    rw [collapse, hcs.words_eq, h.isSpaced.eq_intercalate hline]
  · rintro rfl
    -- the words of a text are unbroken, with one blank between each two
    have hwords : ∀ w ∈ words cs, IsUnbroken w := fun w => isUnbroken_of_mem_words
    exact ⟨isSpaced_intercalate hwords, words cs, hasWords_iff.2 rfl, hasWords_intercalate hwords⟩

/-- A spaced text stays as it is. -/
theorem collapse_of_isSpaced (h : IsSpaced line) : collapse line = line :=
  collapses_iff.1 ⟨h, words line, hasWords_iff.2 rfl, hasWords_iff.2 rfl⟩

/-- Collapsing makes a text spaced. -/
theorem isSpaced_collapse (cs : List Char) : IsSpaced (collapse cs) :=
  (collapses_iff.2 rfl).isSpaced

/-- Only blanks collapse to nothing. -/
theorem collapse_eq_nil_iff : collapse cs = [] ↔ ∀ c ∈ cs, isBlank c = true := by
  rw [← hasWords_nil_iff, ← collapses_iff]
  constructor
  · intro h
    obtain ⟨ws, hcs, hline⟩ := h.sameWords
    -- an empty line has no words, so the text has none
    obtain rfl : [] = ws := hline.words_eq
    exact hcs
  · intro h
    exact ⟨isSpaced_nil, [], h, .nil⟩

end RegisterMap.Text
