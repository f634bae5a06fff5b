import Mathlib.Data.List.Basic
import Mathlib.Data.List.TakeWhile
import RegisterMap.Proofs.Name
import RegisterMap.Text.Blank

/-!
# Theory of trimmed texts

A text is trimmed if no blank stands at its ends. Trimming leaves such a text
alone (`trimChars_of_isTrimmed`), and always gives one (`isTrimmed_trimChars`).
-/

namespace RegisterMap.Text

variable {cs : List Char}

/-- No blank stands at either end of a text. -/
structure IsTrimmed (cs : List Char) : Prop where
  head : ∀ c, cs.head? = some c → isBlank c = false
  last : ∀ c, cs.getLast? = some c → isBlank c = false

/-- Both ends of a text are free of blanks, so that it may be turned around. -/
theorem IsTrimmed.reverse (h : IsTrimmed cs) : IsTrimmed cs.reverse where
  head := by
    rw [List.head?_reverse]
    exact h.last
  last := by
    rw [List.getLast?_reverse]
    exact h.head

/-- A text without any blank is trimmed. -/
theorem isTrimmed_of_forall (h : ∀ c ∈ cs, isBlank c = false) : IsTrimmed cs where
  head c hc := h c (List.mem_of_head? hc)
  last c hc := h c (List.mem_of_getLast? hc)

/-- Words have no blanks. -/
theorem isTrimmed_of_isWord {s : String} (h : Name.isWord s = true) : IsTrimmed s.toList :=
  isTrimmed_of_forall fun c hc =>
    Name.forall_wordChar (P := fun c => isBlank c = false) (by decide +kernel)
      (Name.allWordChars_of_isWord h c hc)

/-- There is no blank to be dropped in front of a trimmed text. -/
theorem dropWhile_of_isTrimmed (h : IsTrimmed cs) : cs.dropWhile isBlank = cs := by
  cases cs with
  | nil => rfl
  | cons c cs => exact List.dropWhile_cons_of_neg (by simp [h.head c rfl])

/-! ## Trimming -/

/-- Trimming changes nothing of a trimmed text. -/
theorem trimChars_of_isTrimmed (h : IsTrimmed cs) : trimChars cs = cs := by
  rw [trimChars, dropWhile_of_isTrimmed h, trimEnd, dropWhile_of_isTrimmed h.reverse,
    List.reverse_reverse]

/-- The same of strings. -/
theorem trim_of_isTrimmed {s : String} (h : IsTrimmed s.toList) : trim s = s := by
  rw [trim, trimChars_of_isTrimmed h, String.ofList_toList]

/-- The first character behind blanks is none. -/
theorem head_dropWhile (cs : List Char) :
    ∀ c, (cs.dropWhile isBlank).head? = some c → isBlank c = false := by
  intro c hc
  have h := List.head?_dropWhile_not isBlank cs
  rwa [hc] at h

/-- A text ends as any end of it does. -/
theorem getLast?_of_suffix {ds : List Char} (hsuffix : ds <:+ cs) (hne : ds ≠ []) :
    cs.getLast? = ds.getLast? := by
  obtain ⟨front, rfl⟩ := hsuffix
  exact List.getLast?_append_of_ne_nil front hne

/-- Trimming makes a text trimmed. -/
theorem isTrimmed_trimChars (cs : List Char) : IsTrimmed (trimChars cs) where
  head c hc := by
    rw [trimChars, trimEnd, List.head?_reverse] at hc
    -- the blanks at the end are dropped from a text that starts with no blank
    have hne : (cs.dropWhile isBlank).reverse.dropWhile isBlank ≠ [] := by
      intro hnil
      rw [hnil] at hc
      cases hc
    rw [← getLast?_of_suffix (List.dropWhile_suffix isBlank) hne, List.getLast?_reverse] at hc
    exact head_dropWhile cs c hc
  last c hc := by
    rw [trimChars, trimEnd, List.getLast?_reverse] at hc
    exact head_dropWhile _ c hc

/-- The same of strings. -/
theorem isTrimmed_trim (s : String) : IsTrimmed (trim s).toList := by
  rw [trim, String.toList_ofList]
  exact isTrimmed_trimChars _

/-- A character that is no blank is not dropped with the blanks in front of it. -/
theorem mem_dropWhile_isBlank {c : Char} (h : c ∈ cs) (hc : isBlank c = false) :
    c ∈ cs.dropWhile isBlank := by
  rw [← List.takeWhile_append_dropWhile (p := isBlank) (l := cs), List.mem_append] at h
  refine h.resolve_left fun hblank => ?_
  rw [List.mem_takeWhile_imp hblank] at hc
  cases hc

/-- Trimming drops blanks only. -/
theorem mem_trimChars {c : Char} (h : c ∈ cs) (hc : isBlank c = false) : c ∈ trimChars cs := by
  have hfront : c ∈ (cs.dropWhile isBlank).reverse :=
    List.mem_reverse.2 (mem_dropWhile_isBlank h hc)
  exact List.mem_reverse.2 (mem_dropWhile_isBlank hfront hc)

/-- What is dropped at the ends of a text are blanks. -/
theorem exists_append_trimChars (cs : List Char) :
    ∃ front back, cs = front ++ trimChars cs ++ back ∧ ∀ c ∈ front ++ back, isBlank c = true := by
  have hblank : ∀ ds : List Char, ∀ c ∈ ds.takeWhile isBlank, isBlank c = true :=
    fun ds c hc => List.mem_takeWhile_imp hc
  -- the blanks at the end are those in front of the reversed text
  have hend : cs.dropWhile isBlank
      = trimChars cs ++ ((cs.dropWhile isBlank).reverse.takeWhile isBlank).reverse := by
    rw [trimChars, trimEnd, ← List.reverse_append, List.takeWhile_append_dropWhile,
      List.reverse_reverse]
  refine ⟨cs.takeWhile isBlank, ((cs.dropWhile isBlank).reverse.takeWhile isBlank).reverse, ?_, ?_⟩
  · rw [List.append_assoc, ← hend, List.takeWhile_append_dropWhile]
  · rw [List.forall_mem_append]
    exact ⟨hblank cs, fun c hc => hblank _ c (List.mem_reverse.1 hc)⟩

/-- Blanks around a trimmed text are all that is dropped. -/
theorem trimChars_append {front back : List Char} (hblank : ∀ c ∈ front ++ back, isBlank c = true)
    (h : IsTrimmed cs) : trimChars (front ++ cs ++ back) = cs := by
  obtain ⟨hfront, hback⟩ := List.forall_mem_append.1 hblank
  cases cs with
  | nil =>
    -- nothing but blanks
    rw [List.append_nil, trimChars, List.dropWhile_eq_nil_iff.2 hblank]
    rfl
  | cons c cs =>
    have hdrop : (front ++ (c :: cs) ++ back).dropWhile isBlank = c :: cs ++ back := by
      rw [List.append_assoc, List.dropWhile_append_of_pos hfront]
      exact List.dropWhile_cons_of_neg (by simp [h.head c rfl])
    have hback' : ∀ c ∈ back.reverse, isBlank c = true := fun c hc => hback c (List.mem_reverse.1 hc)
    rw [trimChars, hdrop, trimEnd, List.reverse_append, List.dropWhile_append_of_pos hback',
      dropWhile_of_isTrimmed h.reverse, List.reverse_reverse]

end RegisterMap.Text
