import Mathlib.Data.List.Nodup
import RegisterMap.Proofs.Marks
import RegisterMap.Proofs.Offers
import RegisterMap.Proofs.WellFormed

/-!
# Names of the elements of a row

Different indices lead to different names, if the names are words. A word has
no `%` in it, so an index that leads to one has none either, and every `%` that
the first pass leaves has become part of a mark. That fixes how many marks the
second pass has replaced, so that names of one length have indices of one
length, and these stand at the same place in the two names.

- `Dimension.eq_of_elementName_eq`: an index is determined by its name
- `Dimension.names_nodup_of_labels`: the names of a row, and the group that its
  registers are put into
-/

namespace RegisterMap

open Xml (Element)

namespace Dimension

/-! ## Percent signs -/

/-- A character that stands in an index and in a text still does when marks are replaced: it is kept
    with the text, or comes with the index. -/
theorem mem_substitute {c : Char} {index : List Char} (hindex : c ∈ index) (mark : List Char)
    {cs : List Char} (hcs : c ∈ cs) : c ∈ substitute mark index cs := by
  fun_induction substitute mark index cs with
  | case1 => exact hcs
  -- the character is lost with a mark, but the index brings it back
  | case2 b cs hmark ih => exact List.mem_append_left _ hindex
  | case3 b cs hmark ih =>
    obtain rfl | hcs := List.mem_cons.1 hcs
    · simp
    · exact List.mem_cons_of_mem b (ih hcs)

/-- A text without `%` has no mark in it, and none begins at its end. -/
theorem substitute_append {front : List Char} (h : '%' ∉ front) (index cs : List Char) :
    substitute ['%', 's'] index (front ++ cs) = front ++ substitute ['%', 's'] index cs := by
  induction front with
  | nil => rfl
  | cons c front ih =>
    rw [List.mem_cons, not_or] at h
    rw [List.cons_append, substitute_cons (fun hmark => h.1 hmark.1.symm), ih h.2, List.cons_append]

/-- If no `%` is left, each one was part of a mark. -/
theorem count_eq_countMarks {index cs : List Char} (h : '%' ∉ substitute ['%', 's'] index cs) :
    cs.count '%' = countMarks cs := by
  fun_induction substitute ['%', 's'] index cs with
  | case1 => rfl
  | case2 c cs hmark ih =>
    obtain ⟨rfl, hs⟩ := isPrefixOf_bare.1 hmark
    obtain ⟨cs, rfl⟩ := List.head?_eq_some_iff.1 hs
    -- a mark has one `%` in it, and behind the mark is what it is replaced with
    have hrest : cs.count '%' = countMarks cs := ih fun hmem => h (List.mem_append_right _ hmem)
    simp [countMarks, hrest]
  | case3 c cs hmark ih =>
    rw [List.mem_cons, not_or] at h
    rw [countMarks, if_neg (mt isPrefixOf_bare.2 hmark), ← ih h.2,
      List.count_cons_of_ne (Ne.symm h.1), Nat.add_zero]

/-! ## Spelling -/

/-- What both passes together make of a declared name in pieces. -/
def spelled (index : List Char) (ps : List Piece) : List Char :=
  substitute ['%', 's'] index (ps.flatMap (Piece.text index))

/-- The name of an element is spelled by the pieces of the declared name. -/
theorem toList_elementName (template index : String) :
    (elementName template index).toList = spelled index.toList (pieces template.toList) := by
  rw [elementName, String.toList_ofList, substitute_bracketed, spelled]

/-- A character that is no `%` is kept. -/
theorem spelled_char {c : Char} (hc : c ≠ '%') (index : List Char) (ps : List Piece) :
    spelled index (.char c :: ps) = c :: spelled index ps :=
  substitute_cons (fun hmark => hc hmark.1) index

/-- A mark without brackets becomes the index. -/
theorem spelled_bare (index : List Char) (ps : List Piece) :
    spelled index (.bare :: ps) = index ++ spelled index ps :=
  substitute_mark index _

/-- So does a mark in brackets, if no `%` in the index can become part of another one. -/
theorem spelled_bracketed {index : List Char} (h : '%' ∉ index) (ps : List Piece) :
    spelled index (.bracketed :: ps) = index ++ spelled index ps :=
  substitute_append h index _

/-- A `%` that is not left has become part of a mark, so that the index stands in its place. -/
theorem exists_spelled_percent {index : List Char} {ps : List Piece}
    (h : '%' ∉ spelled index (.char '%' :: ps)) :
    ∃ rest, spelled index (.char '%' :: ps) = index ++ rest := by
  have hcons : spelled index (.char '%' :: ps)
      = substitute ['%', 's'] index ('%' :: ps.flatMap (Piece.text index)) := rfl
  rw [hcons] at h ⊢
  -- a `%` that no `s` follows stays, which is excluded
  by_cases hs : (ps.flatMap (Piece.text index)).head? = some 's'
  · obtain ⟨rest, hrest⟩ := List.head?_eq_some_iff.1 hs
    rw [hrest, substitute_mark]
    exact ⟨_, rfl⟩
  · rw [substitute_cons fun hmark => hs hmark.2] at h
    simp at h

/-! ## Lengths -/

section Lengths

variable {x y : List Char}

/-- A mark in brackets is made longer by the index, any other piece stays as long. -/
theorem length_text (x y : List Char) (p : Piece) :
    (p.text x).length + (if p == .bracketed then 1 else 0) * y.length
      = (p.text y).length + (if p == .bracketed then 1 else 0) * x.length := by
  cases p <;> simp [Piece.text, Nat.add_comm]

/-- The first pass makes a text longer by one index for each mark in brackets. -/
theorem length_flatMap_text (x y : List Char) (ps : List Piece) :
    (ps.flatMap (Piece.text x)).length + ps.count .bracketed * y.length
      = (ps.flatMap (Piece.text y)).length + ps.count .bracketed * x.length := by
  induction ps with
  | nil => simp
  | cons p ps ih =>
    have hpiece := length_text x y p
    simp only [List.flatMap_cons, List.length_append, List.count_cons, Nat.add_mul]
    omega

/-- The first pass leaves as many `%` for one index as for another. -/
theorem count_flatMap_text (hx : '%' ∉ x) (hy : '%' ∉ y) (ps : List Piece) :
    (ps.flatMap (Piece.text x)).count '%' = (ps.flatMap (Piece.text y)).count '%' := by
  have hpiece : ∀ p, (Piece.text x p).count '%' = (Piece.text y p).count '%' := by
    intro p
    cases p <;> simp [Piece.text, List.count_eq_zero_of_not_mem, hx, hy]
  induction ps with
  | nil => rfl
  | cons p ps ih => simp only [List.flatMap_cons, List.count_append, hpiece, ih]

/-- Is the piece a mark? -/
def Piece.isMark : Piece → Bool
  | char _ => false
  | bare => true
  | bracketed => true

/-- Pieces with a mark have one of either kind. -/
theorem count_marks_pos {ps : List Piece} (h : ∃ p ∈ ps, p.isMark = true) :
    0 < ps.count .bare + ps.count .bracketed := by
  obtain ⟨p, hp, hmark⟩ := h
  have hcount : 0 < ps.count p := List.count_pos_iff.2 hp
  cases p with
  | char c => cases hmark
  | bare => omega
  | bracketed => omega

/-- A text with a mark in it has a piece that is one. -/
theorem exists_mark_of_infix {cs : List Char} (h : ['%', 's'] <:+: cs) :
    ∃ p ∈ pieces cs, p.isMark = true := by
  fun_induction pieces cs with
  | case1 cs ih => exact ⟨.bracketed, by simp, rfl⟩
  | case2 cs ih => exact ⟨.bare, by simp, rfl⟩
  | case3 c cs _ hbare ih =>
    -- a mark at the start would have been taken as a piece
    obtain hprefix | hrest := List.infix_cons_iff.1 h
    · obtain ⟨rest, heq⟩ := hprefix
      obtain ⟨rfl, rfl⟩ := List.cons.inj heq
      exact absurd rfl (hbare rest rfl)
    · obtain ⟨p, hp, hmark⟩ := ih hrest
      exact ⟨p, List.mem_cons_of_mem _ hp, hmark⟩
  | case4 => simp at h

/-- Indices that lead to the same name without `%` are of one length: the same number of them has
    been put in. -/
theorem length_eq_of_spelled_eq (hx : '%' ∉ x) (hy : '%' ∉ y) {ps : List Piece}
    (hmark : ∃ p ∈ ps, p.isMark = true) (hsign : '%' ∉ spelled x ps)
    (heq : spelled x ps = spelled y ps) : x.length = y.length := by
  have hfirst := length_flatMap_text x y ps
  have hcount : countMarks (ps.flatMap (Piece.text x)) = countMarks (ps.flatMap (Piece.text y)) := by
    rw [← count_eq_countMarks hsign, ← count_eq_countMarks (heq ▸ hsign), count_flatMap_text hx hy]
  have hbare : ps.count .bare ≤ countMarks (ps.flatMap (Piece.text y)) :=
    (replaces_pieces y ps).le_countMarks
  have hpos := count_marks_pos hmark
  have hlengthX := (Replaces.substitute_all x (ps.flatMap (Piece.text x))).length_eq
  have hlengthY := (Replaces.substitute_all y (ps.flatMap (Piece.text y))).length_eq
  rw [hcount, ← spelled, heq] at hlengthX
  rw [← spelled] at hlengthY
  -- as often as an index has been put in by the two passes together
  have htimes : (countMarks (ps.flatMap (Piece.text y)) + ps.count .bracketed) * x.length
      = (countMarks (ps.flatMap (Piece.text y)) + ps.count .bracketed) * y.length := by
    rw [Nat.add_mul, Nat.add_mul]
    omega
  exact Nat.eq_of_mul_eq_mul_left (by omega) htimes

end Lengths

/-! ## Distinct names -/

/-- Indices of one length that lead to the same name without `%` are the same. The first of them is
    put in at the same place of both names, behind the characters that are kept. -/
theorem eq_of_spelled_eq {x y : List Char} (hx : '%' ∉ x) (hy : '%' ∉ y)
    (hlength : x.length = y.length) {ps : List Piece} (hmark : ∃ p ∈ ps, p.isMark = true)
    (hsign : '%' ∉ spelled x ps) (heq : spelled x ps = spelled y ps) : x = y := by
  induction ps with
  | nil => simp at hmark
  | cons p ps ih =>
    cases p with
    | char c =>
      by_cases hc : c = '%'
      · -- a `%` that is not left is part of a mark, so that the index begins there
        subst hc
        obtain ⟨restX, hrestX⟩ := exists_spelled_percent hsign
        obtain ⟨restY, hrestY⟩ := exists_spelled_percent (heq ▸ hsign)
        rw [hrestX, hrestY] at heq
        exact List.append_inj_left heq hlength
      · -- any other character is the same in both names
        rw [spelled_char hc] at hsign
        rw [spelled_char hc, spelled_char hc] at heq
        have hrest : ∃ p ∈ ps, p.isMark = true := by simpa [Piece.isMark] using hmark
        exact ih hrest (fun hmem => hsign (List.mem_cons_of_mem c hmem)) (List.cons.inj heq).2
    | bare =>
      rw [spelled_bare, spelled_bare] at heq
      exact List.append_inj_left heq hlength
    | bracketed =>
      rw [spelled_bracketed hx, spelled_bracketed hy] at heq
      exact List.append_inj_left heq hlength

/-- An index that leads to a word has no `%` in it. -/
theorem not_mem_of_elementName {template index : String} (hmark : ['%', 's'] <:+: template.toList)
    (hword : Name.AllWordChars (elementName template index)) : '%' ∉ index.toList := by
  intro hmem
  have htemplate : '%' ∈ template.toList := hmark.subset (by simp)
  have hname : '%' ∈ (elementName template index).toList := by
    rw [elementName, String.toList_ofList]
    exact mem_substitute hmem _ (mem_substitute hmem _ htemplate)
  exact absurd (hword _ hname) (by decide)

/-- An index is determined by the name that it leads to, if that is a word. -/
theorem eq_of_elementName_eq {template s t : String} (hmark : ['%', 's'] <:+: template.toList)
    (hword : Name.AllWordChars (elementName template s))
    (heq : elementName template s = elementName template t) : s = t := by
  have hs : '%' ∉ s.toList := not_mem_of_elementName hmark hword
  have ht : '%' ∉ t.toList := not_mem_of_elementName hmark (heq ▸ hword)
  have hpieces : ∃ p ∈ pieces template.toList, p.isMark = true := exists_mark_of_infix hmark
  have hsign : '%' ∉ (elementName template s).toList := fun hmem =>
    absurd (hword _ hmem) (by decide)
  rw [toList_elementName] at hsign
  rw [← String.toList_inj, toList_elementName, toList_elementName] at heq
  -- the indices are of one length, since the names are
  have hlength : s.toList.length = t.toList.length :=
    length_eq_of_spelled_eq hs ht hpieces hsign heq
  exact String.toList_inj.1 (eq_of_spelled_eq hs ht hlength hpieces hsign heq)

/-- Labels that are not listed one by one are different. -/
theorem nodup_labels {e : Element} {loc : Location} {d : Dimension}
    (h : (read? e loc).Gives (some d))
    (hrange : ∀ content, e.childText? "dimIndex" = some content →
      ',' ∉ content.toList ∧ '-' ∈ content.toList) : d.labels.Nodup := by
  obtain ⟨_, _, hindex⟩ := gives_read?.1 h
  unfold labels
  cases hcontent : e.childText? "dimIndex" with
  | none =>
    simp only [hcontent] at hindex
    rw [hindex]
    -- without indices, the places are counted
    exact List.nodup_range.map fun n m hnm => Numeral.eq_of_toString_eq hnm
  | some content =>
    simp only [hcontent] at hindex
    obtain ⟨listed, hd, hlisted, _⟩ := hindex
    obtain ⟨hcomma, hhyphen⟩ := hrange content hcontent
    rw [hd]
    exact nodup_of_lists hcomma hhyphen (lists_of_indices hlisted)

/-- The names of a row are made of its labels. -/
theorem map_name_row (d : Dimension) (template : String) (base : Nat) :
    (d.row template base).map Instance.name = d.labels.map (elementName template) := by
  apply List.ext_getElem <;> simp [row]

/-- Different labels put into a declared name with a mark make different names, if these are
    words. -/
theorem nodup_names_row {d : Dimension} (hlabels : d.labels.Nodup) {template : String}
    (hmark : ['%', 's'] <:+: template.toList) {base : Nat}
    (hwords : ∀ x ∈ d.row template base, Name.isWord x.name = true) :
    ((d.row template base).map Instance.name).Nodup := by
  have hnames : ∀ n ∈ (d.row template base).map Instance.name, Name.AllWordChars n := by
    simpa using fun x hx => Name.allWordChars_of_isWord (hwords x hx)
  rw [map_name_row] at hnames ⊢
  refine List.Nodup.map_on (fun s hs t _ heq => ?_) hlabels
  exact eq_of_elementName_eq hmark (hnames _ (List.mem_map_of_mem hs)) heq

end Dimension

/-! ## Groups -/

/-- A step that is taken with the value of a reading can be exchanged for another one that does the
    same with that value. -/
theorem Checked.bind_congr_gives {α β : Type} {x : Checked α} {f g : α → Checked β}
    (h : ∀ a, x.Gives a → f a = g a) : x >>= f = x >>= g := by
  rw [bind_def, bind_def]
  cases hx : x.result with
  | error fault => rfl
  | ok a => simp only [h a hx]

/-- A register of a new name goes to the end of its group. -/
theorem Group.insert_of_not_mem {group : String} {table : List Register} {r : Register}
    (h : r.name ∉ table.map Register.name) (loc : Location) :
    Group.insert ⟨group, table⟩ r loc = .ok (.inserted, ⟨group, table ++ [r]⟩) := by
  unfold Group.insert FirstWins.offer
  rw [FirstWins.find?_eq_none_iff.2 h]

/-- Of registers with different names, none in front has the name of one behind. -/
theorem Group.name_not_mem_of_nodup {before after : List Register} {r : Register}
    (h : ((before ++ r :: after).map Register.name).Nodup) :
    r.name ∉ before.map Register.name := by
  rw [List.map_append, List.map_cons, List.nodup_middle, List.nodup_cons] at h
  exact fun hmem => h.1 (List.mem_append_left _ hmem)

/-- Registers of different names that are new are put into their group one behind the other, and
    nothing is noted. -/
theorem Group.foldlM_merge (loc : Location) {group : String} {table rs : List Register}
    (h : ((table ++ rs).map Register.name).Nodup) :
    rs.foldlM (Group.merge loc) ⟨group, table⟩ = pure ⟨group, table ++ rs⟩ := by
  induction rs generalizing table with
  | nil => simp
  | cons r rs ih =>
    -- the register is new, so it is put at the end
    have hstep : Group.merge loc ⟨group, table⟩ r = pure ⟨group, table ++ [r]⟩ := by
      rw [Group.merge, Group.insert_of_not_mem (name_not_mem_of_nodup h)]
      rfl
    rw [List.append_cons] at h ⊢
    rw [List.foldlM_cons, hstep, pure_bind, ih h]

namespace Dimension

/-- The registers of a row have different names if its labels are different. -/
theorem nodup_names_registerRow {e : Element} {loc : Location} {d : Dimension}
    (h : (read? e loc).Gives (some d)) (hlabels : d.labels.Nodup) {template : String}
    (hmark : ['%', 's'] <:+: template.toList) (hname : e.childText? "name" = some template)
    {loc' : Location} {rs : List Register} (hrs : (Declared.registerRow e loc').Gives rs) :
    rs.length = d.count ∧ (rs.map Register.name).Nodup := by
  obtain ⟨template', base, access, text, fs, hname', _, rfl⟩ :=
    Declared.exists_row_of_registerRow h hrs
  obtain rfl := Option.some.inj (hname.symm.trans hname')
  -- registers that were read have words for names
  have hwords : ∀ x ∈ d.row template base, Name.isWord x.name = true := fun x hx =>
    (Declared.wellFormed_of_registerRow hrs _ (List.mem_map_of_mem hx)).name
  have hnames := nodup_names_row hlabels hmark hwords
  constructor
  · simp [row, (wellFormed_of_gives h).length_labels]
  · rw [List.map_map]
    exact hnames

/-- What can be said of the names of a row if its labels are different, which they are unless they
    are listed one by one. A declared name with a mark then leads to different names, if all of them
    are words. So the registers of a row never meet another one of their name among themselves: each
    of them is inserted into a group that was empty at first, and nothing comes up that did not when
    they were read. -/
theorem names_nodup_of_labels {e : Element} {loc : Location} {d : Dimension}
    (h : (read? e loc).Gives (some d)) :
    ((∀ content, e.childText? "dimIndex" = some content →
        ',' ∉ content.toList ∧ '-' ∈ content.toList) → d.labels.Nodup)
      ∧ (d.labels.Nodup → ∀ template : String, ['%', 's'] <:+: template.toList →
        (∀ base loc' xs, d.instances template base loc' = .ok xs →
            (∀ x ∈ xs, Name.isWord x.name = true) → (xs.map Instance.name).Nodup)
          ∧ (e.childText? "name" = some template → ∀ group loc',
            Declared.addRegisters loc' (Group.empty group) e
                = Group.mk group <$> Declared.registerRow e loc'
              ∧ ∀ rs, (Declared.registerRow e loc').Gives rs → rs.length = d.count
                ∧ ∀ before r after, rs = before ++ r :: after → ∀ loc'',
                  Group.insert ⟨group, before⟩ r loc''
                    = .ok (.inserted, ⟨group, before ++ [r]⟩))) := by
  refine ⟨nodup_labels h, fun hlabels template hmark => ⟨?_, ?_⟩⟩
  · intro base loc' xs hxs hwords
    obtain ⟨_, rfl⟩ := (wellFormed_of_gives h).instances_eq.1 hxs
    exact nodup_names_row hlabels hmark hwords
  · intro hname group loc'
    have hrow : ∀ rs, (Declared.registerRow e loc').Gives rs →
        rs.length = d.count ∧ (rs.map Register.name).Nodup :=
      fun rs hrs => nodup_names_registerRow h hlabels hmark hname hrs
    constructor
    · rw [Declared.addRegisters, map_eq_pure_bind]
      -- the registers are put into the group once they have been read
      refine Checked.bind_congr_gives fun rs hrs => ?_
      have hnames : (([] ++ rs).map Register.name).Nodup := (hrow rs hrs).2
      exact Group.foldlM_merge loc' hnames
    · intro rs hrs
      -- a register is new among those in front of it
      obtain ⟨hlength, hnames⟩ := hrow rs hrs
      refine ⟨hlength, fun before r after hsplit loc'' => ?_⟩
      exact Group.insert_of_not_mem (Group.name_not_mem_of_nodup (hsplit ▸ hnames)) loc''

/-- Indices that make new marks lead to different names all the same. -/
theorem names_nodup_of_labels_percentSign :
    (read? (indexedRow "%[%s]_%s" "2" "s,sX") .device).Gives (some ⟨2, 4, some ["s", "sX"]⟩)
      ∧ instances ⟨2, 4, some ["s", "sX"]⟩ "%[%s]_%s" 0x10 .device
        = .ok [⟨"s_s", 0x10⟩, ⟨"sXX_sX", 0x14⟩]
      ∧ ["s_s", "sXX_sX"].Nodup
      ∧ Declared.addRegisters .device (Group.empty "G") (indexedRow "%[%s]_%s" "2" "s,sX")
        = Group.mk "G" <$> Declared.registerRow (indexedRow "%[%s]_%s" "2" "s,sX") .device := by
  have h : (read? (indexedRow "%[%s]_%s" "2" "s,sX") .device).Gives
      (some ⟨2, 4, some ["s", "sX"]⟩) := by
    decide +kernel
  have hrow : instances ⟨2, 4, some ["s", "sX"]⟩ "%[%s]_%s" 0x10 .device
      = .ok [⟨"s_s", 0x10⟩, ⟨"sXX_sX", 0x14⟩] := by
    decide +kernel
  -- the mark at the end of the name makes the difference
  have hmark : ['%', 's'] <:+: "%[%s]_%s".toList := ⟨['%', '['], [']', '_', '%', 's'], rfl⟩
  obtain ⟨hnames, hgroup⟩ := (names_nodup_of_labels h).2 (by decide) _ hmark
  refine ⟨h, hrow, hnames _ _ _ hrow (by decide), (hgroup ?_ "G" .device).1⟩
  decide +kernel

end Dimension
end RegisterMap
