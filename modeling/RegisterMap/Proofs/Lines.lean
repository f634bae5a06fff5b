/-!
# Lines of a text

The lines of a text as programs read them: a line ends at a line break, which a
carriage return may precede, and the last line need not have a break.

- `lines_append_break`: the lines of a text up to a break and behind it
- `lines_unlines`: lines that are written one by one are read back
-/

namespace RegisterMap.Text

/-- The characters without a carriage return at their end. -/
def dropReturn (cs : List Char) : List Char :=
  if cs.getLast? = some '\r' then cs.dropLast else cs

/-- The lines of the pieces between breaks. The last piece is not ended by a break, so that
    it keeps a carriage return, and is no line if it is empty. -/
def linesOfPieces : List (List Char) → List (List Char)
  | [] => []
  | [last] => if last = [] then [] else [last]
  | piece :: next :: pieces => dropReturn piece :: linesOfPieces (next :: pieces)

/-- The lines of a text. -/
def lines (cs : List Char) : List (List Char) := linesOfPieces (cs.splitOn '\n')

/-- Lines as a text, each with a break at its end. -/
def unlines (ls : List (List Char)) : List Char := ls.flatMap (· ++ ['\n'])

/-! ## Single lines -/

/-- The characters can stand in a line: no break and no carriage return is among them. -/
def IsLine (cs : List Char) : Prop := '\n' ∉ cs ∧ '\r' ∉ cs

instance (cs : List Char) : Decidable (IsLine cs) :=
  inferInstanceAs (Decidable ('\n' ∉ cs ∧ '\r' ∉ cs))

/-- Two texts make a line if both are parts of one. -/
theorem isLine_append {cs ds : List Char} : IsLine (cs ++ ds) ↔ IsLine cs ∧ IsLine ds := by
  simp only [IsLine, List.mem_append, not_or]
  constructor
  · intro h
    obtain ⟨⟨hc, hd⟩, hc', hd'⟩ := h
    exact ⟨⟨hc, hc'⟩, hd, hd'⟩
  · intro h
    obtain ⟨⟨hc, hc'⟩, hd, hd'⟩ := h
    exact ⟨⟨hc, hd⟩, hc', hd'⟩

/-- Characters of which none breaks a line can stand in one. -/
theorem isLine_of_forall {cs : List Char} (h : ∀ c ∈ cs, c ≠ '\n' ∧ c ≠ '\r') : IsLine cs :=
  ⟨fun hc => (h _ hc).1 rfl, fun hc => (h _ hc).2 rfl⟩

/-- A line has no return at its end to be dropped. -/
theorem dropReturn_of_isLine {cs : List Char} (h : IsLine cs) : dropReturn cs = cs := by
  refine if_neg fun hlast => h.2 ?_
  exact List.mem_of_getLast? hlast

/-! ## Texts -/

/-- The lines of pieces are those of the pieces in front and of those behind, if there are some
    behind. -/
theorem linesOfPieces_append (ps : List (List Char)) {qs : List (List Char)} (h : qs ≠ []) :
    linesOfPieces (ps ++ qs) = ps.map dropReturn ++ linesOfPieces qs := by
  induction ps with
  | nil => rfl
  | cons p ps ih =>
    rw [List.map_cons, List.cons_append, List.cons_append, ← ih]
    -- the piece is not the last one, whatever stands behind it
    cases hrest : ps ++ qs with
    | nil => exact absurd (List.append_eq_nil_iff.1 hrest).2 h
    | cons q rest => rfl

/-- The empty text has no line. -/
theorem lines_nil : lines [] = [] := rfl

/-- The lines of a text up to a break and behind it. -/
theorem lines_append_break (cs ds : List Char) :
    lines (cs ++ '\n' :: ds) = (cs.splitOn '\n').map dropReturn ++ lines ds := by
  rw [lines, List.splitOn_append_cons_self, linesOfPieces_append _ (List.splitOn_ne_nil _ _), lines]

/-- Characters in front of the first break stand in the first line. -/
theorem splitOn_break_append {cs : List Char} (h : '\n' ∉ cs) (ds : List Char) :
    (cs ++ ds).splitOn '\n' = (ds.splitOn '\n').modifyHead (cs ++ ·) := by
  induction cs with
  | nil =>
    rw [List.nil_append]
    cases ds.splitOn '\n' with
    | nil => rfl
    | cons first rest => rfl
  | cons c cs ih =>
    have hcs : '\n' ∉ cs := fun hmem => h (List.mem_cons_of_mem c hmem)
    -- the character is no break, so that it belongs to the first piece
    have hne : ¬ (c == '\n') = true := fun heq => h (beq_iff_eq.1 heq ▸ List.mem_cons_self)
    rw [List.cons_append, List.splitOn_cons_eq_if_modifyHead, if_neg hne, ih hcs,
      List.modifyHead_modifyHead]
    rfl

/-- A line that ends in a break is the first one of the text. -/
theorem lines_cons {l : List Char} (h : IsLine l) (ds : List Char) :
    lines (l ++ '\n' :: ds) = l :: lines ds := by
  rw [lines_append_break, List.splitOn_eq_singleton h.1, List.map_singleton, dropReturn_of_isLine h]
  rfl

/-- The first line is followed by a break and the others. -/
theorem unlines_cons (l : List Char) (ls : List (List Char)) :
    unlines (l :: ls) = l ++ '\n' :: unlines ls := by
  rw [unlines, List.flatMap_cons, List.append_assoc]
  rfl

/-- Lines that are written one by one are read back. -/
theorem lines_unlines {ls : List (List Char)} (h : ∀ l ∈ ls, IsLine l) :
    lines (unlines ls) = ls := by
  induction ls with
  | nil => rfl
  | cons l ls ih =>
    obtain ⟨hl, hls⟩ := List.forall_mem_cons.1 h
    rw [unlines_cons, lines_cons hl, ih hls]

end RegisterMap.Text
