import Mathlib.Tactic.MkIffOfInductiveProp
import Mathlib.Tactic.Tauto
import RegisterMap.Proofs.LetterCase
import RegisterMap.Selection

/-!
# Theory of selections

The entries of a selection are meant without regard to letter case (`Selects`).
The look-up puts the name into lower case and compares it with the entries as
they are, so that it matters how these have come in (`Edit`): a name that is
added is put into lower case, and one that is written into a list directly is
not, and may be overlooked.

- `admits_iff_selects_iff`: the names that a selection gets wrong, and the
  selections that get none wrong
-/

namespace RegisterMap.Selection

open Text (lowercase lowercase_lowercase)

/-! ## Entries -/

/-- Some entry stands for the name: the two differ in letter case at most. -/
def Names (entries : List String) (name : String) : Prop :=
  ∃ entry ∈ entries, lowercase entry = lowercase name

/-- There is an entry for the name, but none that the look-up finds. -/
def Overlooks (entries : List String) (name : String) : Prop :=
  Names entries name ∧ lowercase name ∉ entries

/-- An entry that the look-up finds stands for the name, since it is in lower case. -/
theorem names_of_mem {entries : List String} {name : String} (h : lowercase name ∈ entries) :
    Names entries name :=
  ⟨lowercase name, h, lowercase_lowercase name⟩

/-- A list that names something is not empty. -/
theorem names_ne_nil {entries : List String} {name : String} (h : Names entries name) :
    entries ≠ [] := by
  obtain ⟨entry, hentry, -⟩ := h
  exact List.ne_nil_of_mem hentry

/-- Entries in lower case are never overlooked. -/
theorem not_overlooks {entries : List String} (h : ∀ entry ∈ entries, lowercase entry = entry)
    (name : String) : ¬ Overlooks entries name := by
  intro hoverlooks
  obtain ⟨⟨entry, hentry, hname⟩, hnot⟩ := hoverlooks
  rw [h entry hentry] at hname
  exact hnot (hname ▸ hentry)

/-! ## Names -/

/-- The selection is meant to show the peripheral of a name: no entry leaves it out, and there is one
    that includes it, unless none includes anything. -/
def Selects (s : Selection) (name : String) : Prop :=
  ¬ Names s.excluded name ∧ (s.included = [] ∨ Names s.included name)

/-- The selection gets a name wrong. -/
@[mk_iff] inductive Mistakes (s : Selection) (name : String) : Prop
  /-- It overlooks that the name is left out, and shows it. -/
  | shown (hexcluded : Overlooks s.excluded name)
    (hincluded : s.included = [] ∨ lowercase name ∈ s.included)
  /-- It overlooks that the name is included, and does not show it. -/
  | hidden (hexcluded : ¬ Names s.excluded name) (hincluded : Overlooks s.included name)

/-- A name is admitted by its lower case, with the entries of both lists as they stand. -/
theorem admits_iff (s : Selection) (name : String) :
    s.admits name = true
      ↔ lowercase name ∉ s.excluded ∧ (s.included = [] ∨ lowercase name ∈ s.included) := by
  simp [admits]

/-- What is admitted is what is selected, where no entry is mistaken. -/
theorem agree_iff_not_mistakes (s : Selection) (name : String) :
    (s.admits name = true ↔ s.Selects name) ↔ ¬ s.Mistakes name := by
  have hexcluded : lowercase name ∈ s.excluded → Names s.excluded name := names_of_mem
  have hincluded : lowercase name ∈ s.included → Names s.included name := names_of_mem
  have hempty : Names s.included name → s.included ≠ [] := names_ne_nil
  -- with these three facts the rest is propositional
  rw [admits_iff, mistakes_iff, Selects, Overlooks, Overlooks]
  tauto

/-- All entries are in lower case. -/
def IsLower (s : Selection) : Prop :=
  ∀ entry ∈ s.included ++ s.excluded, lowercase entry = entry

/-- A selection in lower case gets no name wrong. -/
theorem IsLower.not_mistakes {s : Selection} (h : s.IsLower) (name : String) :
    ¬ s.Mistakes name := by
  intro hmistakes
  cases hmistakes with
  | shown hexcluded hincluded =>
    exact not_overlooks (fun entry hentry => h entry (List.mem_append_right _ hentry)) name hexcluded
  | hidden hexcluded hincluded =>
    exact not_overlooks (fun entry hentry => h entry (List.mem_append_left _ hentry)) name hincluded

/-! ## Edits -/

/-- A way to put a name into one of the lists of a selection. -/
inductive Edit where
  /-- A name that is included in lower case. -/
  | addIncluded (name : String)
  /-- A name that is left out in lower case. -/
  | addExcluded (name : String)
  /-- A name that is included as it is written. -/
  | writeIncluded (name : String)
  /-- A name that is left out as it is written. -/
  | writeExcluded (name : String)

/-- The selection after an edit. -/
def edit (s : Selection) : Edit → Selection
  | .addIncluded name => s.withIncluded name
  | .addExcluded name => s.withExcluded name
  | .writeIncluded name => { s with included := s.included ++ [name] }
  | .writeExcluded name => { s with excluded := s.excluded ++ [name] }

/-- The selection after some edits, beginning with the one of all peripherals. -/
def edited (edits : List Edit) : Selection := edits.foldl edit all

/-- The name that an edit puts into a list as it is written. -/
def Edit.written? : Edit → Option String
  | .addIncluded _ => none
  | .addExcluded _ => none
  | .writeIncluded name => some name
  | .writeExcluded name => some name

/-- An edit keeps a selection in lower case, unless it writes a name that is not. -/
theorem IsLower.edit {s : Selection} (h : s.IsLower) {e : Edit}
    (he : ∀ name, e.written? = some name → lowercase name = name) : (s.edit e).IsLower := by
  unfold IsLower at h ⊢
  cases e with
  | addIncluded name =>
    simp only [Selection.edit, withIncluded, List.forall_mem_append, List.forall_mem_singleton] at h ⊢
    exact ⟨⟨h.1, lowercase_lowercase name⟩, h.2⟩
  | addExcluded name =>
    simp only [Selection.edit, withExcluded, List.forall_mem_append, List.forall_mem_singleton] at h ⊢
    exact ⟨h.1, h.2, lowercase_lowercase name⟩
  -- what is added is lowered first, what is written is not
  | writeIncluded name =>
    simp only [Selection.edit, List.forall_mem_append, List.forall_mem_singleton] at h ⊢
    exact ⟨⟨h.1, he name rfl⟩, h.2⟩
  | writeExcluded name =>
    simp only [Selection.edit, List.forall_mem_append, List.forall_mem_singleton] at h ⊢
    exact ⟨h.1, h.2, he name rfl⟩

/-- Lists stay in lower case if all that is written into them is. -/
theorem IsLower.foldl_edit {s : Selection} (h : s.IsLower) {edits : List Edit}
    (hedits : ∀ name ∈ edits.filterMap Edit.written?, lowercase name = name) :
    (edits.foldl Selection.edit s).IsLower := by
  induction edits generalizing s with
  | nil => exact h
  | cons e edits ih =>
    rw [List.foldl_cons]
    -- the first edit keeps the lists in lower case, and so do the others
    apply ih
    · exact h.edit fun name hname =>
        hedits name (List.mem_filterMap.2 ⟨e, List.mem_cons_self, hname⟩)
    · intro name hname
      obtain ⟨e', he', hwritten⟩ := List.mem_filterMap.1 hname
      exact hedits name (List.mem_filterMap.2 ⟨e', List.mem_cons_of_mem e he', hwritten⟩)

/-- A selection shows what it is meant to show, unless it overlooks an entry for the name; and it
    overlooks none if nothing has been written into its lists that is not in lower case. -/
theorem admits_iff_selects_iff (s : Selection) :
    (∀ name, (s.admits name = true ↔ s.Selects name) ↔ ¬ s.Mistakes name)
      ∧ ∀ edits, edited edits = s →
        (∀ name ∈ edits.filterMap Edit.written?, lowercase name = name) →
        ∀ name, s.admits name = true ↔ s.Selects name := by
  refine ⟨s.agree_iff_not_mistakes, fun edits hs hedits name => ?_⟩
  have hall : all.IsLower := fun entry hentry => absurd hentry List.not_mem_nil
  have hlower : (edited edits).IsLower := hall.foldl_edit hedits
  exact (s.agree_iff_not_mistakes name).2 (hs ▸ hlower.not_mistakes name)

/-- A port that is included in mixed case, and a name in lower case that is written. -/
def portEdits : List Edit := [.addIncluded "GpioA", .writeExcluded "rcc"]

/-- Ports are selected whatever their case, and everything else is left out. -/
theorem admits_iff_selects_ports :
    (∀ name ∈ portEdits.filterMap Edit.written?, lowercase name = name)
      ∧ (edited portEdits).admits "GPIOa" = true ∧ (edited portEdits).Selects "GPIOa"
      ∧ (edited portEdits).admits "RCC" = false ∧ ¬ (edited portEdits).Selects "RCC" := by
  have hlower : ∀ name ∈ portEdits.filterMap Edit.written?, lowercase name = name := by
    decide +kernel
  -- the names that were written are lower case already
  have hselects := (admits_iff_selects_iff (edited portEdits)).2 portEdits rfl hlower
  have hgpio : (edited portEdits).admits "GPIOa" = true := by decide +kernel
  have hrcc : (edited portEdits).admits "RCC" = false := by decide +kernel
  refine ⟨hlower, hgpio, (hselects _).1 hgpio, hrcc, fun hselected => ?_⟩
  rw [(hselects _).2 hselected] at hrcc
  cases hrcc

/-- A name that is written into a list in upper case is never found there. -/
theorem not_admits_iff_selects_upperCase :
    ¬ ∀ edits name, (edited edits).admits name = true ↔ (edited edits).Selects name := by
  intro h
  have hselects : (edited [.writeIncluded "GPIOA"]).Selects "GPIOA" :=
    ⟨fun hexcluded => names_ne_nil hexcluded rfl, .inr ⟨"GPIOA", List.mem_singleton_self _, rfl⟩⟩
  have hadmits : (edited [.writeIncluded "GPIOA"]).admits "GPIOA" = false := by decide +kernel
  rw [(h _ _).2 hselects] at hadmits
  cases hadmits

end RegisterMap.Selection
