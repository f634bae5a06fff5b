import Mathlib.Data.List.Chain
import RegisterMap.Proofs.Indices
import RegisterMap.Proofs.Row

/-!
# Marks in declared names

The name of an element is made in two passes, the first for marks in brackets
and the second for the others. It might be expected to be what a single pass
makes, which takes the declared name apart from left to right (`pieces`) and
puts the index into the place of every mark (`filledName`). But the second pass
also reads what the first one has put in. A mark that was not there before can
stand in an index, or where an index meets its neighbours.

- `Dimension.Replaces`: some marks of a text have been replaced, others not
- `Dimension.elementName_eq_filledName_iff`, `Dimension.filled_in_one_pass_iff`:
  the two meanings agree exactly if no new mark comes about
-/

namespace RegisterMap.Dimension

/-! ## Pieces -/

/-- A piece of a declared name. -/
inductive Piece where
  /-- A character that stands for itself. -/
  | char (c : Char)
  /-- The mark `%s`. -/
  | bare
  /-- The mark `[%s]`. -/
  | bracketed
  deriving DecidableEq, Repr

/-- The pieces of a declared name, from left to right. -/
def pieces : List Char → List Piece
  | '[' :: '%' :: 's' :: ']' :: cs => .bracketed :: pieces cs
  | '%' :: 's' :: cs => .bare :: pieces cs
  | c :: cs => .char c :: pieces cs
  | [] => []

/-- What a piece stands for if all marks are replaced at once. -/
def Piece.filled (index : List Char) : Piece → List Char
  | char c => [c]
  | bare => index
  | bracketed => index

/-- What stands in the place of a piece after the first pass. -/
def Piece.text (index : List Char) : Piece → List Char
  | char c => [c]
  | bare => ['%', 's']
  | bracketed => index

/-- The name of the element with an index, if all marks are replaced in a single pass. -/
def filledName (template index : String) : String :=
  String.ofList ((pieces template.toList).flatMap (Piece.filled index.toList))

/-- The first pass replaces the marks in brackets. -/
theorem substitute_bracketed (index cs : List Char) :
    substitute ['[', '%', 's', ']'] index cs = (pieces cs).flatMap (Piece.text index) := by
  fun_induction pieces cs with
  | case1 cs ih =>
    rw [substitute, if_pos (by simp), List.flatMap_cons, ← ih]
    rfl
  | case2 cs ih =>
    -- neither of the two characters begins a mark in brackets
    rw [substitute, if_neg (by simp), substitute, if_neg (by simp), List.flatMap_cons, ← ih]
    rfl
  | case3 c cs hbracketed _ ih =>
    have hmark : ¬ ['[', '%', 's', ']'].isPrefixOf (c :: cs) = true := by
      rw [List.isPrefixOf_iff_prefix]
      intro h
      obtain ⟨rest, hrest⟩ := h
      obtain ⟨rfl, rfl⟩ := List.cons.inj hrest
      exact hbracketed rest rfl rfl
    rw [substitute, if_neg hmark, List.flatMap_cons, ← ih]
    rfl
  | case4 =>
    rw [substitute]
    rfl

/-! ## Marks without brackets -/

/-- A mark without brackets is a `%` with an `s` behind it. -/
theorem isPrefixOf_bare {c : Char} {cs : List Char} :
    ['%', 's'].isPrefixOf (c :: cs) = true ↔ c = '%' ∧ cs.head? = some 's' := by
  cases cs with
  | nil => simp [List.isPrefixOf]
  | cons b cs =>
    simp only [List.isPrefixOf, Bool.and_true, Bool.and_eq_true, beq_iff_eq, List.head?_cons,
      Option.some.injEq]
    rw [eq_comm (a := '%'), eq_comm (a := 's')]

/-- A mark at the start is replaced. -/
theorem substitute_mark (index cs : List Char) :
    substitute ['%', 's'] index ('%' :: 's' :: cs) = index ++ substitute ['%', 's'] index cs := by
  rw [substitute, if_pos (isPrefixOf_bare.2 ⟨rfl, rfl⟩)]
  rfl

/-- Any other character at the start is kept. -/
theorem substitute_cons {c : Char} {cs : List Char} (h : ¬ (c = '%' ∧ cs.head? = some 's'))
    (index : List Char) :
    substitute ['%', 's'] index (c :: cs) = c :: substitute ['%', 's'] index cs := by
  rw [substitute, if_neg (mt isPrefixOf_bare.1 h)]

/-- How often the mark `%s` stands in a text. -/
def countMarks : List Char → Nat
  | [] => 0
  | c :: cs => countMarks cs + if c = '%' ∧ cs.head? = some 's' then 1 else 0

/-- Where two texts meet there is a mark if the first one ends with `%` and the second one starts
    with `s`. -/
theorem countMarks_append (cs ds : List Char) :
    countMarks (cs ++ ds) = countMarks cs + countMarks ds
      + if cs.getLast? = some '%' ∧ ds.head? = some 's' then 1 else 0 := by
  induction cs with
  | nil => simp [countMarks]
  | cons c cs ih =>
    rw [List.cons_append, countMarks, countMarks, ih]
    cases cs with
    | nil => simp [countMarks]
    | cons b cs =>
      -- the first character is followed by the same one as before
      have hhead : ((b :: cs) ++ ds).head? = (b :: cs).head? := rfl
      rw [hhead, List.getLast?_cons_cons]
      omega

/-- There are no marks to count in a text without one. -/
theorem countMarks_eq_zero_iff {cs : List Char} : countMarks cs = 0 ↔ ¬ ['%', 's'] <:+: cs := by
  induction cs with
  | nil => simp [countMarks]
  | cons c cs ih =>
    rw [List.infix_cons_iff, ← List.isPrefixOf_iff_prefix, isPrefixOf_bare, not_or, ← ih, countMarks]
    split <;> simp_all

/-- Some marks of a text have been replaced by an index, as many as counted, and all else is kept. -/
inductive Replaces (index : List Char) : Nat → List Char → List Char → Prop
  | nil : Replaces index 0 [] []
  | keep {n : Nat} {cs ds : List Char} (c : Char) (h : Replaces index n cs ds) :
      Replaces index n (c :: cs) (c :: ds)
  | fill {n : Nat} {cs ds : List Char} (h : Replaces index n cs ds) :
      Replaces index (n + 1) ('%' :: 's' :: cs) (index ++ ds)

namespace Replaces

variable {index cs ds : List Char} {n : Nat}

/-- What is in front may be kept all. -/
theorem keepAll (front : List Char) (h : Replaces index n cs ds) :
    Replaces index n (front ++ cs) (front ++ ds) := by
  induction front with
  | nil => exact h
  | cons c front ih => exact ih.keep c

/-- Each replaced mark takes two characters away and puts an index in. -/
theorem length_eq (h : Replaces index n cs ds) :
    ds.length + 2 * n = cs.length + n * index.length := by
  induction h with
  | nil => simp
  | keep c _ ih => simp only [List.length_cons]; omega
  | fill _ ih => simp only [List.length_cons, List.length_append, Nat.add_mul, Nat.one_mul]; omega

/-- No more marks can be replaced than there are. -/
theorem le_countMarks (h : Replaces index n cs ds) : n ≤ countMarks cs := by
  induction h with
  | nil => exact Nat.le_refl 0
  | keep c _ ih => exact Nat.le_trans ih (Nat.le_add_right _ _)
  | fill _ ih => simpa [countMarks] using ih

/-- The second pass replaces all marks. -/
theorem substitute_all (index cs : List Char) :
    Replaces index (countMarks cs) cs (substitute ['%', 's'] index cs) := by
  fun_induction substitute ['%', 's'] index cs with
  | case1 => exact .nil
  -- a mark is filled and counted, any other character is kept
  | case2 c cs hmark ih =>
    obtain ⟨rfl, hs⟩ := isPrefixOf_bare.1 hmark
    obtain ⟨cs, rfl⟩ := List.head?_eq_some_iff.1 hs
    simpa [countMarks] using ih.fill
  | case3 c cs hmark ih =>
    rw [countMarks, if_neg (mt isPrefixOf_bare.2 hmark)]
    exact ih.keep c

/-- Marks that are put in the place of marks change nothing. -/
theorem eq_self (h : Replaces ['%', 's'] n cs ds) : ds = cs := by
  induction h with
  | nil => rfl
  | keep c _ ih => rw [ih]
  | fill _ ih => rw [ih]; rfl

/-- Two texts in which a different number of marks was replaced have the same length only if an
    index is as long as a mark. -/
theorem length_eq_two (h : Replaces index n cs ds)
    (hlength : (index ++ substitute ['%', 's'] index cs).length = ds.length + 2) :
    index.length = 2 := by
  have hall := (substitute_all index cs).length_eq
  have hsome := h.length_eq
  obtain ⟨k, hk⟩ := Nat.exists_eq_add_of_le h.le_countMarks
  rw [hk, Nat.add_mul] at hall
  rw [List.length_append] at hlength
  -- the mark at the front and the `k` that were kept behind it take up all the difference
  have hmul : (k + 1) * index.length = (k + 1) * 2 := by
    rw [Nat.add_mul]
    omega
  exact Nat.eq_of_mul_eq_mul_left (Nat.succ_pos k) hmul

/-- Whether all marks have been replaced can be seen in the text, unless a mark was replaced by
    itself: one that was not replaced leaves a text of another length, or differs at its place. -/
theorem substitute_eq_iff (h : Replaces index n cs ds) :
    substitute ['%', 's'] index cs = ds ↔ index = ['%', 's'] ∨ n = countMarks cs := by
  induction h with
  | nil => simp [substitute, countMarks]
  | @keep n cs ds c h ih =>
    by_cases hmark : c = '%' ∧ cs.head? = some 's'
    · -- a mark was kept, so its `s` was kept as well: nothing can be filled in there
      obtain ⟨rfl, hs⟩ := hmark
      obtain ⟨cs, rfl⟩ := List.head?_eq_some_iff.1 hs
      cases h with | @keep _ _ ds _ h => ?_
      have hle : n ≤ countMarks cs := h.le_countMarks
      have hcount : countMarks ('%' :: 's' :: cs) = countMarks cs + 1 := by simp [countMarks]
      rw [substitute_mark, hcount]
      constructor
      · intro heq
        have htwo : index.length = 2 := h.length_eq_two (congrArg List.length heq)
        have heq : index ++ substitute ['%', 's'] index cs = ['%', 's'] ++ ds := heq
        exact .inl (List.append_inj_left heq htwo)
      · intro hor
        obtain rfl | hn := hor
        · rw [(substitute_all _ cs).eq_self, h.eq_self]
          rfl
        · omega
    · rw [substitute_cons hmark, List.cons_inj_right, countMarks, if_neg hmark]
      exact ih
  | fill h ih =>
    rw [substitute_mark, List.append_cancel_left_eq, ih]
    simp [countMarks]

end Replaces

/-! ## New marks -/

/-- Putting the index into the place of the marks in brackets makes no new mark: there is none in
    the index, and none where it meets what stands beside it. -/
structure KeepsApart (index : List Char) (ps : List Piece) : Prop where
  inside : .bracketed ∈ ps → ¬ ['%', 's'] <:+: index
  seams : ps.IsChain fun p q =>
    ¬ ((p.text index).getLast? = some '%' ∧ (q.text index).head? = some 's')

/-- All marks without brackets have been replaced by the single pass. -/
theorem replaces_pieces (index : List Char) (ps : List Piece) :
    Replaces index (ps.count .bare) (ps.flatMap (Piece.text index))
      (ps.flatMap (Piece.filled index)) := by
  induction ps with
  | nil => exact .nil
  | cons p ps ih =>
    cases p with
    | char c => simpa [Piece.text, Piece.filled] using ih.keep c
    | bare => simpa [Piece.text, Piece.filled] using ih.fill
    -- a bracketed mark has been filled by the pass before
    | bracketed => simpa [Piece.text, Piece.filled] using ih.keepAll index

/-- The first character of pieces is that of the first piece, as no piece is empty. -/
theorem head?_flatMap_text {index : List Char} (hindex : index ≠ []) (ps : List Piece) :
    (ps.flatMap (Piece.text index)).head? = ps.head?.bind fun p => (p.text index).head? := by
  cases ps with
  | nil => rfl
  | cons p ps =>
    -- an index is not empty, and neither is a mark
    have hne : p.text index ≠ [] := by
      cases p with
      | char c => exact List.cons_ne_nil _ _
      | bare => exact List.cons_ne_nil _ _
      | bracketed => exact hindex
    rw [List.flatMap_cons, List.head?_append_of_ne_nil _ hne]
    rfl

/-- A piece in front is kept apart if no mark is in it, none is at its seam, and the others are kept
    apart. -/
theorem keepsApart_cons {index : List Char} {p : Piece} {ps : List Piece} :
    KeepsApart index (p :: ps)
      ↔ (p = .bracketed → ¬ ['%', 's'] <:+: index)
        ∧ ¬ ((p.text index).getLast? = some '%'
          ∧ (ps.head?.bind fun q => (q.text index).head?) = some 's')
        ∧ KeepsApart index ps := by
  -- the seam is with the next piece, if there is one
  have hseam : (∀ q ∈ ps.head?,
        ¬ ((p.text index).getLast? = some '%' ∧ (q.text index).head? = some 's'))
      ↔ ¬ ((p.text index).getLast? = some '%'
        ∧ (ps.head?.bind fun q => (q.text index).head?) = some 's') := by
    cases ps.head? <;> simp
  rw [← hseam]
  constructor
  · intro h
    obtain ⟨hinside, hseams⟩ := h
    obtain ⟨hfirst, hrest⟩ := List.isChain_cons.1 hseams
    exact ⟨fun hp => hinside (by simp [hp]), hfirst,
      fun hmem => hinside (List.mem_cons_of_mem p hmem), hrest⟩
  · intro h
    obtain ⟨hinside, hfirst, hrest⟩ := h
    refine ⟨fun hmem => ?_, List.isChain_cons.2 ⟨hfirst, hrest.seams⟩⟩
    obtain hp | hmem := List.mem_cons.1 hmem
    · exact hinside hp.symm
    · exact hrest.inside hmem

/-- A mark is in what stands in the place of a piece if it was kept for the second pass, or if the
    index has one. -/
theorem countMarks_text (index : List Char) (p : Piece) :
    (if p = .bare then 1 else 0) ≤ countMarks (p.text index)
      ∧ (countMarks (p.text index) = (if p = .bare then 1 else 0)
        ↔ (p = .bracketed → ¬ ['%', 's'] <:+: index)) := by
  cases p with
  | char c => simp [Piece.text, countMarks]
  | bare => simp [Piece.text, countMarks]
  | bracketed => simp [Piece.text, countMarks_eq_zero_iff]

/-- No new mark comes about if the first pass leaves those that the declared name has. -/
theorem countMarks_eq_iff {index : List Char} (hindex : index ≠ []) (ps : List Piece) :
    countMarks (ps.flatMap (Piece.text index)) = ps.count .bare ↔ KeepsApart index ps := by
  induction ps with
  | nil => exact ⟨fun _ => ⟨by simp, by simp⟩, fun _ => rfl⟩
  | cons p ps ih =>
    have hrest : ps.count .bare ≤ countMarks (ps.flatMap (Piece.text index)) :=
      (replaces_pieces index ps).le_countMarks
    obtain ⟨hpiece, hkept⟩ := countMarks_text index p
    rw [List.flatMap_cons, countMarks_append, head?_flatMap_text hindex, List.count_cons,
      keepsApart_cons, ← ih, ← hkept]
    simp only [beq_iff_eq]
    generalize (if p = .bare then 1 else 0) = kept at *
    -- each of the three summands on the left is at least its share on the right
    by_cases hseam : (p.text index).getLast? = some '%'
        ∧ (ps.head?.bind fun q => (q.text index).head?) = some 's'
    · simp only [hseam, and_self, if_true, not_true, false_and, and_false, iff_false]
      omega
    · simp only [hseam, if_false, not_false_eq_true, true_and]
      omega

/-- An index without `%` makes a new mark only if it is put behind a `%` and starts with `s`. -/
theorem keepsApart_pieces {index : List Char} (hindex : '%' ∉ index) {cs : List Char}
    (h : index.head? = some 's' → .char '%' ∉ pieces cs) : KeepsApart index (pieces cs) := by
  have hinside : ¬ ['%', 's'] <:+: index := fun hmark => hindex (hmark.subset (by simp))
  have hlast : ¬ index.getLast? = some '%' := fun hlast => hindex (List.mem_of_getLast? hlast)
  fun_induction pieces cs with
  | case1 cs ih =>
    exact keepsApart_cons.2 ⟨fun _ => hinside, fun hseam => hlast hseam.1,
      ih fun hs hmem => h hs (List.mem_cons_of_mem _ hmem)⟩
  | case2 cs ih =>
    exact keepsApart_cons.2 ⟨by simp, by simp [Piece.text],
      ih fun hs hmem => h hs (List.mem_cons_of_mem _ hmem)⟩
  | case3 c cs _ hbare ih =>
    refine keepsApart_cons.2 ⟨by simp, fun hseam => ?_,
      ih fun hs hmem => h hs (List.mem_cons_of_mem _ hmem)⟩
    obtain ⟨hc, hs⟩ := hseam
    obtain rfl : c = '%' := by simpa [Piece.text] using hc
    -- a piece behind the `%` that starts with `s` is the index, or would have made a mark
    fun_cases pieces cs with
    | case1 => exact h (by simpa [pieces, Piece.text] using hs) List.mem_cons_self
    | case2 => simp [pieces, Piece.text] at hs
    | case3 b cs hbracketed hbare' =>
      rw [pieces.eq_3 b cs hbracketed hbare'] at hs
      exact hbare cs rfl (by simpa [Piece.text] using hs)
    | case4 => simp [pieces] at hs
  | case4 => exact ⟨by simp, by simp⟩

/-- The name of an element is what a single pass makes, exactly if the first pass makes no new mark,
    or if the index is itself a mark and it does not matter which marks are replaced by it. -/
theorem elementName_eq_filledName_iff {template index : String} (hindex : index.toList ≠ []) :
    elementName template index = filledName template index
      ↔ index = "%s" ∨ KeepsApart index.toList (pieces template.toList) := by
  have hmark : index = "%s" ↔ index.toList = ['%', 's'] := by
    rw [← String.toList_inj]
    rfl
  rw [elementName, filledName, String.ofList_inj, substitute_bracketed,
    (replaces_pieces _ _).substitute_eq_iff, hmark, eq_comm (a := List.count _ _),
    countMarks_eq_iff hindex]

/-- An element of a row has the name that a single pass over the declared one makes, exactly if the
    first of the two passes makes no new mark with its index, or if its index is itself a mark. -/
theorem filled_in_one_pass_iff {e : Xml.Element} {loc : Location} {d : Dimension}
    (h : (read? e loc).Gives (some d)) {template : String} {base : Nat} {loc' : Location}
    {xs : List Instance} (hxs : d.instances template base loc' = .ok xs) {i : Nat} {x : Instance}
    (hx : xs[i]? = some x) :
    d.labels[i]? = some (d.label i)
      ∧ (x.name = filledName template (d.label i)
        ↔ d.label i = "%s" ∨ KeepsApart (d.label i).toList (pieces template.toList)) := by
  have hwf : d.WellFormed := wellFormed_of_gives h
  obtain ⟨_, rfl⟩ := instances_eq_ok_iff.1 hxs
  obtain ⟨hi, hrow⟩ := List.getElem?_eq_some_iff.1 hx
  have hlt : i < d.count := by simpa using hi
  obtain rfl : d.element template base i = x := by simpa using hrow
  exact ⟨hwf.getElem?_labels hlt, elementName_eq_filledName_iff (hwf.isIndex_label hlt).nonempty⟩

/-- Letters in a name with marks of both kinds. -/
theorem filled_in_one_pass_letters :
    (read? (indexedRow "CH[%s]_%s" "2" "A-B") .device).Gives (some ⟨2, 4, some ["A", "B"]⟩)
      ∧ instances ⟨2, 4, some ["A", "B"]⟩ "CH[%s]_%s" 0x10 .device
        = .ok [⟨"CHA_A", 0x10⟩, ⟨"CHB_B", 0x14⟩]
      ∧ filledName "CH[%s]_%s" "B" = "CHB_B" := by
  have h : (read? (indexedRow "CH[%s]_%s" "2" "A-B") .device).Gives
      (some ⟨2, 4, some ["A", "B"]⟩) := by
    decide +kernel
  have hrow : instances ⟨2, 4, some ["A", "B"]⟩ "CH[%s]_%s" 0x10 .device
      = .ok [⟨"CHA_A", 0x10⟩, ⟨"CHB_B", 0x14⟩] := by
    decide +kernel
  -- a letter makes no mark with its neighbours
  have hapart : KeepsApart "B".toList (pieces "CH[%s]_%s".toList) :=
    keepsApart_pieces (by decide) (by decide)
  have hname : "CHB_B" = filledName "CH[%s]_%s" "B" :=
    (filled_in_one_pass_iff h hrow (i := 1) rfl).2.2 (.inr hapart)
  exact ⟨h, hrow, hname.symm⟩

/-- The `%` in front of the mark and the index that is put in its place make another mark. -/
theorem not_filled_in_one_pass_percentSign :
    ¬ ∀ (e : Xml.Element) (loc : Location) (d : Dimension), (read? e loc).Gives (some d) →
      ∀ (template : String) (base : Nat) (loc' : Location) (xs : List Instance),
        d.instances template base loc' = .ok xs →
        ∀ (i : Nat) (x : Instance), xs[i]? = some x → x.name = filledName template (d.label i) := by
  intro h
  have hread : (read? (indexedRow "%[%s]" "1" "s") .device).Gives (some ⟨1, 4, some ["s"]⟩) := by
    decide +kernel
  have hrow : instances ⟨1, 4, some ["s"]⟩ "%[%s]" 0x10 .device = .ok [⟨"s", 0x10⟩] := by
    decide +kernel
  -- the second pass has filled what the first one left
  have hname : "s" = filledName "%[%s]" "s" := h _ _ _ hread _ _ _ _ hrow 0 _ rfl
  revert hname
  decide +kernel

end RegisterMap.Dimension
