import RegisterMap.Proofs.Listing.Shape
import RegisterMap.Proofs.Listing.Tables

/-!
# The vector table of a listing

The module of the interrupts has a line for every vector: a constant if an
interrupt is declared there, and otherwise a placeholder that is commented out.
A reader that looks into the comments of modules finds the numbers of both. They
would close every gap, were it not that an interrupt may lose its name to one in
front of it when names are written in upper case: then it has no line, and its
number stands in the module only if another interrupt has it.

- `Reader.vectorNumbers?`: the numbers in the module of the interrupts
- `Device.OwnsName`: an interrupt has kept its name
- `WellFormed.exists_vector_iff_of_nodup`: if all of them have, there is no gap
- `Device.mem_vectorNumbers_iff`: which numbers the module has
-/

namespace RegisterMap

namespace Listing

open Name (AllWordChars)

/-! ## Comments inside modules -/

/-- A comment inside a module without the mark in front of it, up to its first semicolon. All other
    lines are left as they are. -/
def Reader.uncomment (line : List Char) : List Char :=
  let blanks := line.takeWhile Text.isBlank
  match behind? "// ".toList (line.dropWhile Text.isBlank) with
  | none => line
  | some rest => if blanks = [] then line else blanks ++ (rest.takeWhile (· ≠ ';') ++ ";".toList)

/-- The numbers on the lines of the module of the interrupts, of constants and of comments. -/
def Reader.vectorNumbers? (w : Width) (text : String) : Option (List Nat) :=
  (((Text.lines text.toList).map uncomment).foldlM (step? w) ⟨[], []⟩).map fun r =>
    (entriesIn "interrupts" r.entries).map Entry.value

/-- A placeholder inside a module as a constant. -/
def Line.uncommented : Line → Line
  | .placeholder (depth + 1) name type number _ => .constant (depth + 1) name type (.number number)
  | line => line

/-- The declaration behind a placeholder is well formed. -/
theorem Line.WellFormed.uncommented {w : Width} {line : Line} (h : line.WellFormed w) :
    line.uncommented.WellFormed w := by
  unfold Line.uncommented
  split
  · exact ⟨h.1, h.2.1, h.2.2.1⟩
  · exact h

namespace Reader

/-- The blanks of a line are its indentation. -/
theorem takeWhile_indent (depth : Nat) {c : Char} (hc : Text.isBlank c = false) (cs : List Char) :
    ((indent depth).toList ++ c :: cs).takeWhile Text.isBlank = (indent depth).toList := by
  have hspaces : ∀ b ∈ (indent depth).toList, Text.isBlank b = true := by
    rw [indent, String.toList_ofList]
    intro b hb
    rw [List.eq_of_mem_replicate hb]
    decide
  rw [List.takeWhile_append_of_pos hspaces, List.takeWhile_cons_of_neg (by simp [hc]),
    List.append_nil]

/-- A line that does not start with the mark of a comment is left as it is. -/
theorem uncomment_of_behind? (depth : Nat) {c : Char} (hc : Text.isBlank c = false) {cs : List Char}
    (h : behind? "// ".toList (c :: cs) = none) :
    uncomment ((indent depth).toList ++ c :: cs) = (indent depth).toList ++ c :: cs := by
  rw [uncomment, (behind_indent depth hc cs).2, h]

/-- A line that is not indented is left as it is. -/
theorem uncomment_of_not_blank {c : Char} (hc : Text.isBlank c = false) (cs : List Char) :
    uncomment (c :: cs) = c :: cs := by
  -- without indentation nothing is uncommented
  have hblanks : (c :: cs).takeWhile Text.isBlank = [] :=
    List.takeWhile_cons_of_neg (by simp [hc])
  unfold uncomment
  simp only [hblanks]
  split
  · rfl
  · rfl

/-- A declaration has one semicolon, at its end. -/
theorem exists_declaration_eq {name : String} (hname : AllWordChars name) (type : Width)
    (literal : Literal) :
    ∃ cs, ';' ∉ cs ∧ (declaration name type literal).toList = cs ++ [';'] := by
  -- names and literals are words, and the rest is fixed for each width
  have hwords : ∀ cs : List Char, (∀ c ∈ cs, Name.isWordChar c = true) → ';' ∉ cs := by
    intro cs h hmem
    exact absurd (h ';' hmem) (by decide)
  have hliteral := hwords _ literal.isLiteral_text.isWordChar
  have htype : ';' ∉ type.typeName.toList := by
    cases type <;> decide
  have hfixed : ';' ∉ "pub const ".toList ∧ ';' ∉ ": ".toList ∧ ';' ∉ " = ".toList := by decide
  obtain ⟨hkeyword, hcolon, hequal⟩ := hfixed
  refine ⟨("pub const " ++ name ++ ": " ++ type.typeName ++ " = " ++ literal.text).toList, ?_, ?_⟩
  · simp only [String.toList_append, List.mem_append, not_or]
    exact ⟨⟨⟨⟨⟨hkeyword, hwords _ hname⟩, hcolon⟩, htype⟩, hequal⟩, hliteral⟩
  · rw [declaration, String.toList_append]
    rfl

/-- A declaration ends at its semicolon. -/
theorem takeWhile_declaration {name : String} (hname : AllWordChars name) (type : Width)
    (literal : Literal) (rest : List Char) :
    ((declaration name type literal).toList ++ rest).takeWhile (· ≠ ';') ++ ";".toList
      = (declaration name type literal).toList := by
  obtain ⟨cs, hcs, hsplit⟩ := exists_declaration_eq hname type literal
  -- the only semicolon is the last character
  have hall : ∀ c ∈ cs, decide (c ≠ ';') = true := by
    intro c hc
    exact decide_eq_true fun heq => hcs (heq ▸ hc)
  rw [hsplit, List.append_assoc, List.takeWhile_append_of_pos hall, List.cons_append,
    List.takeWhile_cons_of_neg (by simp), List.append_nil]
  rfl

/-- A placeholder inside a module gives the constant that it comments out. -/
theorem uncomment_placeholder (depth : Nat) {name : String} (hname : AllWordChars name)
    (type : Width) (number : Nat) (content : String) :
    uncomment (Line.placeholder (depth + 1) name type number content).text.toList
      = (Line.constant (depth + 1) name type (.number number)).text.toList := by
  have htext : (Line.placeholder (depth + 1) name type number content).text.toList
      = (indent (depth + 1)).toList ++ '/' :: ("/ ".toList
        ++ ((declaration name type (.number number)).toList ++ (" // ".toList ++ content.toList))) := by
    simp only [Line.text, String.toList_append, List.append_assoc]
    rfl
  -- the mark of a comment is dropped, with the blank behind it
  have hmark : ∀ cs, behind? "// ".toList ('/' :: ("/ ".toList ++ cs)) = some cs :=
    behind?_append "// ".toList
  have hindented : (indent (depth + 1)).toList ≠ [] := by
    simp [indent]
  rw [htext, uncomment, (behind_indent _ (by decide) _).2, takeWhile_indent _ (by decide), hmark]
  simp only [if_neg hindented, takeWhile_declaration hname, Line.text, String.toList_append]

example : uncomment "    // pub const UNKNOWN: u32 = 1; // Unknown interrupt".toList
    = "    pub const UNKNOWN: u32 = 1;".toList := by decide +kernel

/-- Of the text of a line the comment is taken away as it is of the line. -/
theorem uncomment_text {w : Width} {line : Line} (h : line.WellFormed w) :
    uncomment line.text.toList = line.uncommented.text.toList := by
  -- most lines do not start with the mark of a comment
  have hkeep : ∀ (depth : Nat) (c : Char) (cs : List Char), Text.isBlank c = false →
      behind? "// ".toList (c :: cs) = none → line.text.toList = (indent depth).toList ++ c :: cs →
      uncomment line.text.toList = line.text.toList := by
    intro depth c cs hc hbehind htext
    rw [htext, uncomment_of_behind? depth hc hbehind]
  cases line with
  | blank => rfl
  | remark content =>
    -- a remark has the mark, but is not inside a module
    show uncomment (Line.remark content).text.toList = (Line.remark content).text.toList
    rw [Line.text, String.toList_append]
    exact uncomment_of_not_blank (by decide) _
  | about depth content =>
    refine hkeep depth '/' ("/! ".toList ++ content.toList) (by decide) rfl ?_
    simp only [Line.text, String.toList_append, List.append_assoc]
    rfl
  | doc depth content =>
    refine hkeep depth '/' ("// ".toList ++ content.toList) (by decide) rfl ?_
    simp only [Line.text, String.toList_append, List.append_assoc]
    rfl
  | start depth name =>
    refine hkeep depth 'p' ("ub mod ".toList ++ (name.toList ++ " \x7b".toList)) (by decide) rfl ?_
    simp only [Line.text, String.toList_append, List.append_assoc]
    rfl
  | stop depth =>
    refine hkeep depth '\x7d' [] (by decide) rfl ?_
    rw [Line.text, String.toList_append]
    rfl
  | constant depth name type literal =>
    obtain ⟨cs, hcs⟩ := toList_declaration name type literal
    refine hkeep depth 'p' cs (by decide) rfl ?_
    rw [Line.text, String.toList_append, hcs]
  | placeholder depth name type number content =>
    cases depth with
    | zero =>
      -- outside of modules the indent is empty
      have htext : (Line.placeholder 0 name type number content).text.toList
          = '/' :: ("/ ".toList ++ ((declaration name type (.number number)).toList
            ++ (" // ".toList ++ content.toList))) := by
        simp only [Line.text, String.toList_append, List.append_assoc]
        rfl
      show uncomment (Line.placeholder 0 name type number content).text.toList
        = (Line.placeholder 0 name type number content).text.toList
      rw [htext]
      exact uncomment_of_not_blank (by decide) _
    | succ depth => exact uncomment_placeholder depth h.1 type number content

/-- A text is read without the comments inside its modules as the lines that it was written from
    without them. -/
theorem foldlM_uncomment {w : Width} {ls : List Line} (h : ∀ line ∈ ls, line.WellFormed w)
    (r : Reader) :
    ((Text.lines (Text.unlines (ls.map fun line => line.text.toList))).map uncomment).foldlM
        (step? w) r = (ls.map Line.uncommented).foldlM advance? r := by
  have huncommented : ∀ line ∈ ls.map Line.uncommented, line.WellFormed w := by
    intro line hline
    obtain ⟨line, hmem, rfl⟩ := List.mem_map.1 hline
    exact (h line hmem).uncommented
  -- to uncomment the texts is to uncomment the lines
  have htexts : (ls.map fun line => line.text.toList).map uncomment
      = (ls.map Line.uncommented).map fun line => line.text.toList := by
    rw [List.map_map, List.map_map]
    exact List.map_congr_left fun line hline => uncomment_text (h line hline)
  rw [lines_unlines_text h, htexts, ← foldlM_step?_text huncommented,
    lines_unlines_text huncommented]

end Reader

/-! ## Placeholders as constants -/

/-- The number of a vector. -/
def Vector.number : Vector → Nat
  | constant c => c.literal.value
  | placeholder _ number _ => number

/-- A vector as a constant, also if it is a placeholder. -/
def Vector.uncommented : Vector → Vector
  | placeholder name number _ => constant ⟨name, .number number, none⟩
  | v => v

/-- A listing whose placeholders are constants. -/
def uncommented (l : Listing) : Listing :=
  { l with interrupts := l.interrupts.map fun vs => (contents vs).map fun v => .written v.uncommented }

section Lines

variable (w : Width) (depth : Nat)

/-- Only the lines of the interrupts have placeholders. All others stay as they are, those of a
    description to begin with. -/
@[simp] theorem map_uncommented_docLines (description : Option String) :
    (docLines depth description).map Line.uncommented = docLines depth description := by
  cases description <;> rfl

@[simp] theorem map_uncommented_enclose (name : String) (body : List Line) :
    (enclose depth name body).map Line.uncommented = enclose depth name (body.map Line.uncommented) := by
  simp [enclose, Line.uncommented]

@[simp] theorem map_uncommented_lines {α : Type} (inner : α → List Line) (v : Verdict α) :
    (v.lines inner).map Line.uncommented = v.lines fun a => (inner a).map Line.uncommented := by
  cases v <;> rfl

@[simp] theorem map_uncommented_constant (c : Constant) :
    (c.lines w depth).map Line.uncommented = c.lines w depth := by
  simp [Constant.lines, Line.uncommented]

@[simp] theorem map_uncommented_table (t : Table) :
    (t.lines w depth).map Line.uncommented = t.lines w depth := by
  simp [Table.lines, List.map_flatMap]

@[simp] theorem map_uncommented_registerEntry (e : RegisterEntry) :
    (e.lines w).map Line.uncommented = e.lines w := by
  simp [RegisterEntry.lines, List.map_flatMap]

@[simp] theorem map_uncommented_peripheralModule (m : PeripheralModule) :
    (m.lines w).map Line.uncommented = m.lines w := by
  simp [PeripheralModule.lines, List.map_flatMap]

@[simp] theorem map_uncommented_groupLines (ts : List (Verdict Table)) :
    (groupLines w ts).map Line.uncommented = groupLines w ts := by
  simp [groupLines, List.map_flatMap, Line.uncommented]

/-- A placeholder is read as a constant of its number. -/
@[simp] theorem map_uncommented_vector (v : Vector) :
    (v.lines w).map Line.uncommented = v.uncommented.lines w := by
  cases v with
  | constant c => exact map_uncommented_constant w 1 c
  | placeholder name number description => rfl

end Lines

/-- The lines of a listing without comments inside its modules are those of the listing whose
    placeholders are constants. -/
theorem bodyLines_uncommented (l : Listing) :
    l.uncommented.bodyLines = l.bodyLines.map Line.uncommented := by
  -- whether a line is a description is not a matter of comments
  have hdoc : (fun line : Line => l.descriptions || !line.isDoc) ∘ Line.uncommented
      = fun line => l.descriptions || !line.isDoc := by
    funext line
    unfold Function.comp Line.uncommented
    split <;> rfl
  have hvectors : ∀ vs : List (Verdict Vector),
      (interruptLines l.width vs).map Line.uncommented
        = interruptLines l.width ((contents vs).map fun v => .written v.uncommented) := by
    intro vs
    rw [interruptLines, map_uncommented_enclose, flatMap_lines, List.map_flatMap, interruptLines,
      List.flatMap_map]
    exact congrArg _ (List.flatMap_congr fun v _ => map_uncommented_vector l.width v)
  rw [bodyLines, bodyLines, ← hdoc, ← List.filter_map]
  congr 1
  cases hinterrupts : l.interrupts <;>
    simp [uncommented, hinterrupts, hvectors, List.map_flatMap, Line.uncommented]

/-- The numbers that are read in the module of the interrupts. -/
theorem vectorNumbers?_bodyText {d : Device} (h : d.WellFormed) (o : Options) :
    Reader.vectorNumbers? d.width (d.listing o).bodyText
      = some ((entriesIn "interrupts" (d.listing o).uncommented.entries).map Entry.value) := by
  obtain ⟨path, _, hread⟩ := reads_bodyLines (d.listing o).uncommented ⟨[], []⟩ rfl
  rw [bodyLines_uncommented] at hread
  rw [Reader.vectorNumbers?, bodyText, String.toList_ofList,
    Reader.foldlM_uncomment (wellFormed_bodyLines h o), hread]
  rfl

/-! ## The module of the interrupts -/

/-- Each vector is read with its number, a placeholder too. -/
theorem entriesIn_uncommented (v : Vector) :
    (entriesIn "interrupts" v.uncommented.entries).map Entry.value = [v.number] := by
  cases v <;> rfl

/-- The numbers in the module of the interrupts are those of the vectors that are written. -/
theorem map_value_entriesIn_interrupts {d : Device} (o : Options) (hinterrupts : d.interrupts ≠ []) :
    (entriesIn "interrupts" (d.listing o).uncommented.entries).map Entry.value
      = (contents (claim [] (d.interrupts.map (interruptItem d.width)))).map Vector.number := by
  have hword : AllWordChars "interrupts" := by decide
  have hgroups : ∀ ts : List Table,
      ts.flatMap (fun t => entriesIn "interrupts" (t.entries ["groups"])) = [] :=
    fun ts => List.flatMap_eq_nil_iff.2 fun t _ => entriesIn_table hword "groups" t
  have hperipherals : (contents (d.listing o).peripherals).flatMap
      (fun m => entriesIn "interrupts" m.entries) = [] := by
    refine List.flatMap_eq_nil_iff.2 fun m hm => ?_
    rw [entriesIn_peripheralModule hword, if_neg (name_ne_interrupts hinterrupts hm)]
  have hlisting : (d.listing o).uncommented.interrupts
      = some ((contents (claim [] (d.interrupts.map (interruptItem d.width)))).map
          fun v => .written v.uncommented) := by
    simp [uncommented, Device.listing, hinterrupts]
  -- only the interrupts are different without comments
  have hentries : (d.listing o).uncommented.entries
      = (d.listing o).groups.toList.flatMap
            (fun groups => (contents groups).flatMap (Table.entries ["groups"]))
          ++ (contents (d.listing o).peripherals).flatMap PeripheralModule.entries
          ++ (contents (claim [] (d.interrupts.map (interruptItem d.width)))).flatMap
              fun v => v.uncommented.entries := by
    rw [entries, hlisting, Option.toList_some, List.flatMap_singleton, contents_map,
      List.flatMap_assoc]
    congr 1
    exact List.flatMap_congr fun v _ => List.flatMap_singleton ..
  simp only [hentries, entriesIn_append, entriesIn_flatMap, hgroups, hperipherals, List.map_append,
    List.map_flatMap, entriesIn_uncommented]
  rw [List.map_nil, List.flatMap_eq_nil_iff.2 fun _ _ => rfl, List.nil_append, List.nil_append,
    ← List.map_eq_flatMap]

/-! ## Interrupts that are written -/

/-- An interrupt that is written fits, keeps its number and claims its name, if it has one. -/
theorem written_of_interruptItem {w : Width} {i : Interrupt} {item : Item Vector}
    (h : interruptItem w i = .written item) :
    i.number ≤ w.maxValue ∧ item.content.number = i.number
      ∧ item.name = if i.valid then some (Name.toConstant i.name) else none := by
  obtain ⟨hle, rfl⟩ := written_of_within h
  refine ⟨hle, ?_⟩
  split <;> exact ⟨rfl, rfl⟩

/-- An interrupt that fits is written. -/
theorem exists_interruptItem {w : Width} {i : Interrupt} (h : i.number ≤ w.maxValue) :
    ∃ item, interruptItem w i = .written item :=
  ⟨_, within_of_le h _ _⟩

/-- If all that stands in front of an interrupt fits the width, then its name can only be taken by
    the valid interrupts there. -/
theorem free_interruptItem {w : Width} {before : List Interrupt} {i : Interrupt}
    {item : Item Vector} (hbefore : ∀ j ∈ before, j.number ≤ w.maxValue)
    (hitem : interruptItem w i = .written item) :
    Free [] (before.map (interruptItem w)) item
      ↔ (i.valid = true → ∀ j ∈ before, j.valid = true →
          Name.toConstant j.name ≠ Name.toConstant i.name) := by
  obtain ⟨_, _, hname⟩ := written_of_interruptItem hitem
  constructor
  · intro h hvalid j hj hjvalid heq
    obtain ⟨other, hother⟩ := exists_interruptItem (hbefore j hj)
    obtain ⟨_, _, hothername⟩ := written_of_interruptItem hother
    rw [if_pos hvalid] at hname
    rw [if_pos hjvalid, heq] at hothername
    have hmem : other ∈ contents (before.map (interruptItem w)) :=
      mem_contents.2 (List.mem_map.2 ⟨j, hj, hother⟩)
    exact (h _ hname).2 other hmem hothername
  · intro h name hsome
    refine ⟨List.not_mem_nil, fun other hmem hother => ?_⟩
    obtain ⟨j, hj, hji⟩ := List.mem_map.1 (mem_contents.1 hmem)
    obtain ⟨_, _, hothername⟩ := written_of_interruptItem hji
    -- both of them take a name, so neither is a placeholder
    rw [hsome, eq_comm, Option.ite_none_right_eq_some] at hname
    rw [hother, eq_comm, Option.ite_none_right_eq_some] at hothername
    obtain ⟨hvalid, hname⟩ := hname
    obtain ⟨hjvalid, hothername⟩ := hothername
    exact h hvalid j hj hjvalid (Option.some.inj (hothername.trans hname.symm))

end Listing

namespace Device

open Listing
open FirstWins

/-- An interrupt has the name of its constant for itself: no interrupt in front of it in the vector
    table has the same name in upper case. -/
def OwnsName (d : Device) (i : Interrupt) : Prop :=
  i.valid = true ∧ ∃ before after, d.interrupts = before ++ i :: after
    ∧ ∀ j ∈ before, j.valid = true → Name.toConstant j.name ≠ Name.toConstant i.name

/-- An interrupt that owns its name is one of the device. -/
theorem OwnsName.mem {d : Device} {i : Interrupt} (h : d.OwnsName i) : i ∈ d.interrupts := by
  obtain ⟨_, before, after, hd, _⟩ := h
  rw [hd]
  exact List.mem_append_right _ List.mem_cons_self

/-- The vectors that are written are those within the width that are placeholders or have the name
    of their constant for themselves. -/
theorem WellFormed.exists_vector_iff {d : Device} (h : d.WellFormed) {n : Nat} :
    (∃ v ∈ contents (claim [] (d.interrupts.map (interruptItem d.width))), v.number = n)
      ↔ n ≤ d.width.maxValue
        ∧ ∃ i ∈ d.interrupts, i.number = n ∧ (i.valid = true → d.OwnsName i) := by
  -- what stands in front of an interrupt has no higher number, so that it fits if the interrupt does
  have hfits : ∀ before i after, d.interrupts = before ++ i :: after →
      i.number ≤ d.width.maxValue → ∀ j ∈ before, j.number ≤ d.width.maxValue := by
    intro before i after hd hle j hj
    have hsorted := h.sorted
    rw [hd, List.pairwise_append] at hsorted
    have hji : j.number ≤ i.number := hsorted.2.2 j hj i List.mem_cons_self
    exact hji.trans hle
  constructor
  · intro hv
    obtain ⟨v, hv, rfl⟩ := hv
    obtain ⟨_, _, _, hitems, item, rfl, rfl, hfree⟩ := mem_contents_claim_iff.1 hv
    obtain ⟨before, rest, hd, rfl, hrest⟩ := List.map_eq_append_iff.1 hitems
    obtain ⟨i, after, rfl, hitem, rfl⟩ := List.map_eq_cons_iff.1 hrest
    obtain ⟨hle, hnumber, _⟩ := written_of_interruptItem hitem
    rw [hnumber]
    refine ⟨hle, i, ?_, rfl, fun hvalid => ⟨hvalid, before, after, hd, ?_⟩⟩
    · rw [hd]
      exact List.mem_append_right _ List.mem_cons_self
    · exact (free_interruptItem (hfits before i after hd hle) hitem).1 hfree hvalid
  · intro hi
    obtain ⟨hle, i, hmem, rfl, howns⟩ := hi
    -- a placeholder may stand anywhere in the table
    obtain ⟨before, after, hd, hnames⟩ : ∃ before after, d.interrupts = before ++ i :: after
        ∧ (i.valid = true → ∀ j ∈ before, j.valid = true →
            Name.toConstant j.name ≠ Name.toConstant i.name) := by
      by_cases hvalid : i.valid = true
      · obtain ⟨_, before, after, hd, hnames⟩ := howns hvalid
        exact ⟨before, after, hd, fun _ => hnames⟩
      · obtain ⟨before, after, hd⟩ := List.append_of_mem hmem
        exact ⟨before, after, hd, fun h => absurd h hvalid⟩
    obtain ⟨item, hitem⟩ := exists_interruptItem hle
    have hfree := (free_interruptItem (hfits before i after hd hle) hitem).2 hnames
    refine ⟨item.content, ?_, (written_of_interruptItem hitem).2.1⟩
    rw [hd, List.map_append, List.map_cons]
    exact mem_contents_claim_iff.2 ⟨_, _, _, rfl, item, hitem, rfl, hfree⟩

/-- With distinct names, every valid interrupt owns its own. -/
theorem ownsName_of_nodup {d : Device} {i : Interrupt}
    (hnodup : ((d.interrupts.filter (·.valid)).map fun i => Name.toConstant i.name).Nodup)
    (hi : i ∈ d.interrupts) (hvalid : i.valid = true) : d.OwnsName i := by
  obtain ⟨before, after, hd⟩ := List.append_of_mem hi
  refine ⟨hvalid, before, after, hd, ?_⟩
  intro j hj hjvalid
  rw [hd, List.filter_append, List.filter_cons_of_pos hvalid, List.map_append, List.map_cons] at hnodup
  have hmem : j ∈ before.filter (·.valid) := List.mem_filter.2 ⟨hj, hjvalid⟩
  exact (List.nodup_append.1 hnodup).2.2 _ (List.mem_map_of_mem hmem) _ List.mem_cons_self

/-- If all interrupts have different names in upper case, then the written vectors have no gap. -/
theorem WellFormed.exists_vector_iff_of_nodup {d : Device} (h : d.WellFormed)
    (hnodup : ((d.interrupts.filter (·.valid)).map fun i => Name.toConstant i.name).Nodup) {n : Nat} :
    (∃ v ∈ contents (claim [] (d.interrupts.map (interruptItem d.width))), v.number = n)
      ↔ n ≤ d.width.maxValue ∧ ∃ i ∈ d.interrupts, n ≤ i.number := by
  rw [h.exists_vector_iff, ← h.contiguous]
  constructor
  · intro hn
    obtain ⟨hle, i, hi, hin, _⟩ := hn
    exact ⟨hle, i, hi, hin⟩
  · intro hn
    obtain ⟨hle, i, hi, hin⟩ := hn
    exact ⟨hle, i, hi, hin, ownsName_of_nodup hnodup hi⟩

/-- The numbers that are read in the module of the interrupts, in the text of a listing below its
    banner. -/
def ShowsVectors (d : Device) (o : Options) (numbers : List Nat) : Prop :=
  ∃ body, (d.listing o).text = bannerText d.name ++ body
    ∧ Reader.vectorNumbers? d.width body = some numbers

/-- The numbers that a listing shows are those of its vectors. -/
theorem WellFormed.showsVectors {d : Device} (h : d.WellFormed) (o : Options)
    (hinterrupts : d.interrupts ≠ []) :
    d.ShowsVectors o ((contents (claim [] (d.interrupts.map (interruptItem d.width)))).map
      Vector.number) := by
  refine ⟨_, text_eq_banner_append _, ?_⟩
  rw [vectorNumbers?_bodyText h o, map_value_entriesIn_interrupts o hinterrupts]

/-- A listing shows one list of numbers only. -/
theorem ShowsVectors.unique {d : Device} {o : Options} {ms ns : List Nat}
    (hms : d.ShowsVectors o ms) (hns : d.ShowsVectors o ns) : ms = ns := by
  obtain ⟨body, htext, hread⟩ := hms
  obtain ⟨body', htext', hread'⟩ := hns
  rw [eq_bodyText htext] at hread
  rw [eq_bodyText htext'] at hread'
  exact Option.some.inj (hread.symm.trans hread')

/-- The vector table of a device goes up to the highest number that its description declares, and
    the numbers that it does not declare have placeholders. -/
theorem exists_highest_of_gives {text : String} {d : Device} (h : (ofText text).Gives d)
    (hinterrupts : d.interrupts ≠ []) :
    ∃ e ps highest, Xml.Document.parse? text = some e ∧ (Declared.parts e).Gives ps
      ∧ ((Part.allInterrupts ps).map Interrupt.number).max? = some highest
      ∧ (∀ n, (∃ i ∈ d.interrupts, i.number = n) ↔ n ≤ highest)
      ∧ ∀ i ∈ d.interrupts, i.valid = false ↔ ∀ j ∈ Part.allInterrupts ps, j.number ≠ i.number := by
  have hd := wellFormed_of_gives h
  obtain ⟨e, he, hof⟩ := gives_ofText.1 h
  obtain ⟨w, ps, peripherals, _, hps, hcoherent, _, hdevice⟩ := gives_ofElement.1 hof
  have hvectors : d.interrupts
      = Interrupt.vectors (firsts Interrupt.name (Part.allInterrupts ps)) := by
    rw [hdevice]
  have hexists : ∀ n, (∃ i ∈ d.interrupts, i.number = n)
      ↔ ∃ j ∈ Part.allInterrupts ps, n ≤ j.number := by
    intro n
    rw [hvectors]
    exact Part.exists_vector_iff hcoherent
  -- the table is not empty, so some number is declared
  obtain ⟨highest, hhighest⟩ : ∃ highest,
      ((Part.allInterrupts ps).map Interrupt.number).max? = some highest := by
    obtain ⟨i, hi⟩ := List.exists_mem_of_ne_nil _ hinterrupts
    obtain ⟨j, hj, _⟩ := (hexists i.number).1 ⟨i, hi, rfl⟩
    apply Option.ne_none_iff_exists'.1
    rw [ne_eq, List.max?_eq_none_iff]
    exact List.ne_nil_of_mem (List.mem_map_of_mem hj)
  obtain ⟨hmem, hle⟩ := List.max?_eq_some_iff.1 hhighest
  refine ⟨e, ps, highest, he, hps, hhighest, fun n => (hexists n).trans ?_, fun i hi => ?_⟩
  · constructor
    · intro hn
      obtain ⟨j, hj, hnj⟩ := hn
      exact hnj.trans (hle _ (List.mem_map_of_mem hj))
    · intro hn
      obtain ⟨j, hj, hjn⟩ := List.mem_map.1 hmem
      exact ⟨j, hj, hjn ▸ hn⟩
  · have hiff := Part.vector_eq_placeholder_iff hcoherent (Declared.wellFormed_of_parts hps)
      (hvectors ▸ hi)
    rw [← hiff]
    exact ⟨hd.placeholder i hi, fun heq => heq ▸ rfl⟩

/-- The numbers on the lines of the module of the interrupts, of constants and placeholders
    together. They go up to the highest number that is declared, as far as the width allows. A
    declared number is left out only if all interrupts that have it have lost their names. -/
theorem mem_vectorNumbers_iff {text : String} {d : Device} (h : (ofText text).Gives d)
    (hinterrupts : d.interrupts ≠ []) (o : Options) :
    ∃ e ps highest numbers, Xml.Document.parse? text = some e ∧ (Declared.parts e).Gives ps
      ∧ ((Part.allInterrupts ps).map Interrupt.number).max? = some highest
      ∧ d.ShowsVectors o numbers
      ∧ ∀ n, n ∈ numbers ↔ n ≤ min highest d.width.maxValue
          ∧ ((∀ j ∈ Part.allInterrupts ps, j.number ≠ n) ∨ ∃ i, d.OwnsName i ∧ i.number = n) := by
  have hd := wellFormed_of_gives h
  obtain ⟨e, ps, highest, he, hps, hhighest, hnumbers, hinvalid⟩ :=
    exists_highest_of_gives h hinterrupts
  refine ⟨e, ps, highest, _, he, hps, hhighest, hd.showsVectors o hinterrupts, fun n => ?_⟩
  rw [List.mem_map, hd.exists_vector_iff, Nat.le_min, ← hnumbers]
  constructor
  · intro hn
    obtain ⟨hle, i, hi, rfl, howns⟩ := hn
    refine ⟨⟨⟨i, hi, rfl⟩, hle⟩, ?_⟩
    -- a valid interrupt owns its name, a placeholder is not declared
    by_cases hvalid : i.valid = true
    · exact .inr ⟨i, howns hvalid, rfl⟩
    · exact .inl ((hinvalid i hi).1 (Bool.eq_false_iff.2 hvalid))
  · intro hn
    obtain ⟨⟨⟨i, hi, rfl⟩, hle⟩, hnone | ⟨k, hk, hki⟩⟩ := hn
    · -- a number that is not declared is that of a placeholder, which claims no name
      have hplaceholder := (hinvalid i hi).2 hnone
      exact ⟨hle, i, hi, rfl, fun hvalid => absurd hvalid (Bool.eq_false_iff.1 hplaceholder)⟩
    · exact ⟨hle, k, hk.mem, hki, fun _ => hk⟩

/-- All three vectors of the ports have lines, two of them as placeholders. -/
theorem mem_vectorNumbers_ports :
    (ofText portsText).Gives ports ∧ ports.interrupts ≠ []
      ∧ ∃ e ps highest, Xml.Document.parse? portsText = some e ∧ (Declared.parts e).Gives ps
        ∧ ((Part.allInterrupts ps).map Interrupt.number).max? = some highest
        ∧ ports.ShowsVectors {} [0, 1, 2]
        ∧ ∀ n, n ∈ [0, 1, 2] ↔ n ≤ min highest ports.width.maxValue
            ∧ ((∀ j ∈ Part.allInterrupts ps, j.number ≠ n)
              ∨ ∃ i, ports.OwnsName i ∧ i.number = n) := by
  have hinterrupts : ports.interrupts ≠ [] := by decide
  obtain ⟨e, ps, highest, numbers, he, hps, hhighest, hshows, hnumbers⟩ :=
    mem_vectorNumbers_iff gives_ports hinterrupts {}
  -- the numbers that are shown are determined, so they can be computed
  have hvalues : numbers = [0, 1, 2] := by
    rw [hshows.unique ((wellFormed_of_gives gives_ports).showsVectors {} hinterrupts)]
    decide +kernel
  subst hvalues
  exact ⟨gives_ports, hinterrupts, e, ps, highest, he, hps, hhighest, hshows, hnumbers⟩

/-- A description of a timer with two interrupts of one name in upper case. -/
def similarInterruptsText : String :=
  "<device><width>32</width><peripherals>
    <peripheral><name>TIM1</name><baseAddress>0x0</baseAddress>
      <interrupt><name>TIM1_up</name><value>0</value></interrupt>
      <interrupt><name>TIM1_UP</name><value>1</value></interrupt>
      <interrupt><name>TIM1_CC</name><value>2</value></interrupt></peripheral>
  </peripherals></device>"

/-- The device with the timer. -/
def similarInterrupts : Device where
  name := none
  width := .w32
  peripherals := [⟨"TIM1", "TIM1", none, 0, none⟩]
  groups := [⟨"TIM1", []⟩]
  interrupts := [⟨"TIM1_up", 0, none, true⟩, ⟨"TIM1_UP", 1, none, true⟩, ⟨"TIM1_CC", 2, none, true⟩]

/-- The text of three interrupts, two of them with one constant, gives the device. -/
theorem gives_similarInterrupts : (ofText similarInterruptsText).Gives similarInterrupts := by
  unfold similarInterruptsText ofText Xml.Document.parse?
  rw [String.toList_ofList]
  decide +kernel

/-- Between the numbers of the other two interrupts there is no line. -/
theorem not_mem_vectorNumbers_similarInterrupts :
    (ofText similarInterruptsText).Gives similarInterrupts ∧ similarInterrupts.interrupts ≠ []
      ∧ ∃ e ps numbers, Xml.Document.parse? similarInterruptsText = some e
        ∧ (Declared.parts e).Gives ps
        ∧ ((Part.allInterrupts ps).map Interrupt.number).max? = some 2
        ∧ similarInterrupts.ShowsVectors {} numbers
        ∧ 1 ≤ min 2 similarInterrupts.width.maxValue ∧ 1 ∉ numbers := by
  have hinterrupts : similarInterrupts.interrupts ≠ [] := by decide
  obtain ⟨e, ps, highest, he, hps, hhighest, hnumbers, _⟩ :=
    exists_highest_of_gives gives_similarInterrupts hinterrupts
  -- the highest number, from those of the device
  have htwo : highest = 2 := by
    have hle := (hnumbers 2).1 (by decide)
    have hnot : ¬ 3 ≤ highest := fun h => absurd ((hnumbers 3).2 h) (by decide)
    omega
  subst htwo
  refine ⟨gives_similarInterrupts, hinterrupts, e, ps, _, he, hps, hhighest,
    (wellFormed_of_gives gives_similarInterrupts).showsVectors {} hinterrupts, by decide, ?_⟩
  decide +kernel

end Device
end RegisterMap
