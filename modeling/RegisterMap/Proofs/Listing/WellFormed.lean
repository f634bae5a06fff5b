import RegisterMap.Listing.Text
import RegisterMap.Proofs.Invariant
import RegisterMap.Proofs.Lines
import RegisterMap.Proofs.Listing.Claim
import RegisterMap.Proofs.Listing.Literal

/-!
# Well-formed listings

The lines of a listing hold names of word characters, values of the address
width and texts without a break. The name of the device is the one text that
this cannot be said of: it stands in the first line, and every other line of
the listing of a well-formed device is well formed.

- `Line.WellFormed`: what is said of a line
- `Line.isLine_text`: a well-formed line is one line of the text
- `wellFormed_bodyLines`: the lines of a listing below its banner
-/

namespace RegisterMap.Listing

open Text (IsLine)
open Name (AllWordChars)

/-! ## Lines -/

/-- Names are made of word characters, values fit the width, and texts do not break the
    line. -/
def Line.WellFormed (w : Width) : Line → Prop
  | blank => True
  | remark text => IsLine text.toList
  | about _ text => IsLine text.toList
  | doc _ text => IsLine text.toList
  | start _ name => AllWordChars name
  | stop _ => True
  | constant _ name type literal => AllWordChars name ∧ type = w ∧ literal.value ≤ w.maxValue
  | placeholder _ name type number text =>
    AllWordChars name ∧ type = w ∧ number ≤ w.maxValue ∧ IsLine text.toList

/-- A collapsed description is one line. -/
theorem isLine_of_oneLine {description : Option String} {s : String} (h : OneLine description)
    (hs : description = some s) : IsLine s.toList := by
  apply Text.isLine_of_forall
  intro c hc
  have hspace := h s hs c hc
  -- both line breaks are white space that a collapsed text does not have
  constructor
  · intro heq
    subst heq
    cases hspace rfl
  · intro heq
    subst heq
    cases hspace rfl

/-- Word characters make one line. -/
theorem isLine_of_wordChars {cs : List Char} (h : ∀ c ∈ cs, Name.isWordChar c = true) :
    IsLine cs := by
  apply Text.isLine_of_forall
  intro c hc
  exact Name.forall_wordChar (P := fun c => c ≠ '\n' ∧ c ≠ '\r') (by decide +kernel) (h c hc)

/-- Indentation breaks no line. -/
theorem isLine_indent (depth : Nat) : IsLine (indent depth).toList := by
  rw [indent, String.toList_ofList]
  apply Text.isLine_of_forall
  intro c hc
  rw [List.eq_of_mem_replicate hc]
  decide

/-- A declaration of a well-formed name is one line. -/
theorem isLine_declaration {name : String} (hname : AllWordChars name) (type : Width)
    (literal : Literal) : IsLine (declaration name type literal).toList := by
  have htype : IsLine type.typeName.toList := by
    cases type <;> decide
  have hliteral : IsLine literal.text.toList := isLine_of_wordChars literal.isLiteral_text.isWordChar
  simp only [declaration, String.toList_append, Text.isLine_append]
  exact ⟨⟨⟨⟨⟨⟨by decide, isLine_of_wordChars hname⟩, by decide⟩, htype⟩, by decide⟩, hliteral⟩,
    by decide⟩

/-- A well-formed line is one line of the text. -/
theorem Line.isLine_text {w : Width} {line : Line} (h : line.WellFormed w) :
    IsLine line.text.toList := by
  -- a line is one, as the text that it shows is
  cases line with
  | blank => exact ⟨List.not_mem_nil, List.not_mem_nil⟩
  | remark content =>
    rw [text, String.toList_append, Text.isLine_append]
    exact ⟨by decide, h⟩
  | about depth content =>
    rw [text, String.toList_append, String.toList_append, Text.isLine_append, Text.isLine_append]
    exact ⟨⟨isLine_indent depth, by decide⟩, h⟩
  | doc depth content =>
    rw [text, String.toList_append, String.toList_append, Text.isLine_append, Text.isLine_append]
    exact ⟨⟨isLine_indent depth, by decide⟩, h⟩
  | start depth name =>
    simp only [text, String.toList_append, Text.isLine_append]
    exact ⟨⟨⟨isLine_indent depth, by decide⟩, isLine_of_wordChars h⟩, by decide⟩
  | stop depth =>
    rw [text, String.toList_append, Text.isLine_append]
    exact ⟨isLine_indent depth, by decide⟩
  | constant depth name type literal =>
    rw [text, String.toList_append, Text.isLine_append]
    exact ⟨isLine_indent depth, isLine_declaration h.1 type literal⟩
  | placeholder depth name type number content =>
    simp only [text, String.toList_append, Text.isLine_append]
    exact ⟨⟨⟨⟨isLine_indent depth, by decide⟩, isLine_declaration h.1 type _⟩, by decide⟩, h.2.2.2⟩

/-- The text of well-formed lines is read back line by line. -/
theorem lines_unlines_text {w : Width} {ls : List Line} (h : ∀ line ∈ ls, line.WellFormed w) :
    Text.lines (Text.unlines (ls.map fun line => line.text.toList))
      = ls.map fun line => line.text.toList := by
  apply Text.lines_unlines
  intro l hl
  obtain ⟨line, hline, rfl⟩ := List.mem_map.1 hl
  exact Line.isLine_text (h line hline)

/-- The lines of a collapsed description are well formed. -/
theorem wellFormed_docLines {w : Width} {depth : Nat} {description : Option String}
    (h : OneLine description) : ∀ line ∈ docLines depth description, line.WellFormed w := by
  intro line hline
  -- an absent description has no lines
  cases hd : description with
  | none =>
    rw [hd] at hline
    exact absurd hline List.not_mem_nil
  | some s =>
    rw [hd] at hline
    rw [List.mem_singleton.1 hline]
    exact isLine_of_oneLine h hd

/-- A module is well formed, if its name and its body are. -/
theorem wellFormed_enclose {w : Width} {depth : Nat} {name : String} {body : List Line}
    (hname : AllWordChars name) (hbody : ∀ line ∈ body, line.WellFormed w) :
    ∀ line ∈ enclose depth name body, line.WellFormed w := by
  intro line hline
  rw [enclose, List.cons_append, List.mem_cons, List.mem_append, List.mem_singleton] at hline
  obtain hline | hline | hline := hline
  · exact hline ▸ hname
  · exact hbody line hline
  · exact hline ▸ trivial

/-- The lines of a verdict are those of what is written. -/
theorem Verdict.mem_lines {α : Type} {inner : α → List Line} {v : Verdict α} {line : Line} :
    line ∈ v.lines inner ↔ ∃ a, v = .written a ∧ line ∈ inner a := by
  cases v with
  | written a => simp [Verdict.lines]
  | omitted n => simp [Verdict.lines]

/-- The lines of some items are those of what is written for them. -/
theorem flatMap_lines {α : Type} (inner : α → List Line) (vs : List (Verdict α)) :
    vs.flatMap (Verdict.lines inner) = (contents vs).flatMap inner := by
  induction vs with
  | nil => rfl
  | cons v vs ih =>
    cases v with
    | written a => rw [List.flatMap_cons, ih, contents_written, List.flatMap_cons, Verdict.lines]
    | omitted n => rw [List.flatMap_cons, ih, contents_omitted, Verdict.lines, List.nil_append]

/-- The lines of a list of verdicts are those of its contents. -/
theorem mem_flatMap_lines {α : Type} {inner : α → List Line} {vs : List (Verdict α)} {line : Line} :
    line ∈ vs.flatMap (Verdict.lines inner) ↔ ∃ a ∈ contents vs, line ∈ inner a := by
  rw [flatMap_lines, List.mem_flatMap]

/-! ## Constants and tables -/

structure Constant.WellFormed (w : Width) (c : Constant) : Prop where
  name : AllWordChars c.name
  value : c.literal.value ≤ w.maxValue
  description : OneLine c.description

structure Table.WellFormed (w : Width) (t : Table) : Prop where
  name : AllWordChars t.name
  constants : ∀ c ∈ contents t.constants, c.WellFormed w

/-- The lines of a well-formed constant are well formed. -/
theorem Constant.WellFormed.lines {w : Width} {c : Constant} (h : c.WellFormed w) (depth : Nat) :
    ∀ line ∈ c.lines w depth, line.WellFormed w := by
  intro line hline
  obtain hline | hline := List.mem_append.1 hline
  · exact wellFormed_docLines h.description line hline
  · rw [List.mem_singleton.1 hline]
    exact ⟨h.name, rfl, h.value⟩

/-- The lines of a well-formed table are well formed. -/
theorem Table.WellFormed.lines {w : Width} {t : Table} (h : t.WellFormed w) (depth : Nat) :
    ∀ line ∈ t.lines w depth, line.WellFormed w := by
  apply wellFormed_enclose h.name
  intro line hline
  obtain ⟨c, hc, hline⟩ := mem_flatMap_lines.1 hline
  exact (h.constants c hc).lines (depth + 1) line hline

/-- A value that is written fits in the width. -/
theorem written_of_within {α : Type} {w : Width} {label : String} {value : Nat} {a b : α}
    (h : within w label value a = .written b) : value ≤ w.maxValue ∧ a = b := by
  unfold within at h
  split at h
  · next hle => exact ⟨hle, Verdict.written.inj h⟩
  · cases h

/-- A constant that is written fits in the width, and claims its name. -/
theorem written_of_item {w : Width} {label : String} {c : Constant} {item : Item Constant}
    (h : Constant.item w label c = .written item) :
    c.literal.value ≤ w.maxValue ∧ item = ⟨label, some c.name, c⟩ := by
  obtain ⟨hle, hitem⟩ := written_of_within h
  exact ⟨hle, hitem.symm⟩

/-- The constants that are written for some entries are well formed if those are that their
    items want. -/
theorem wellFormed_of_mem_claim {ι : Type} {w : Width} {is : List ι}
    {item : ι → Verdict (Item Constant)}
    (h : ∀ i ∈ is, ∀ x, item i = .written x → x.content.WellFormed w) {c : Constant}
    (hc : c ∈ contents (claim [] (is.map item))) : c.WellFormed w := by
  obtain ⟨x, hx, hxc⟩ := exists_item_of_mem_claim hc
  obtain ⟨i, hi, hix⟩ := List.mem_map.1 (mem_contents.1 hx)
  exact hxc ▸ h i hi x hix

/-- The table of a group is named for it. -/
@[simp] theorem Table.name_ofGroup (w : Width) (g : Group) :
    (ofGroup w g).name = Name.toModule g.name := by
  rw [ofGroup]

@[simp] theorem Table.name_ofFields (w : Width) (r : Register) :
    (ofFields w r).name = Name.toModule r.name := by
  rw [ofFields]

/-- The table of a group is well formed. -/
theorem Table.wellFormed_ofGroup {w : Width} {g : Group} (h : g.WellFormed) :
    (Table.ofGroup w g).WellFormed w where
  name := by
    rw [name_ofGroup]
    exact Name.allWordChars_toModule (Name.allWordChars_of_isWord h.name)
  constants := by
    intro c
    -- a constant that is claimed comes from a register that was written
    apply wellFormed_of_mem_claim
    intro r hr item hitem
    obtain ⟨hle, hitem⟩ := written_of_item hitem
    have hr := h.registers r hr
    rw [hitem]
    exact ⟨Name.allWordChars_toConstant (Name.allWordChars_of_isWord hr.name), hle, hr.description⟩

/-- The table of the fields of a register is well formed. -/
theorem Table.wellFormed_ofFields {w : Width} {r : Register} (h : r.WellFormed) :
    (Table.ofFields w r).WellFormed w where
  name := by
    rw [name_ofFields]
    exact Name.allWordChars_toModule (Name.allWordChars_of_isWord h.name)
  constants := by
    intro c
    -- and here from a field
    apply wellFormed_of_mem_claim
    intro f hf item hitem
    obtain ⟨hle, hitem⟩ := written_of_item hitem
    have hf := h.fields f hf
    rw [hitem]
    exact ⟨Name.allWordChars_toConstant (Name.allWordChars_of_isWord hf.name), hle, hf.description⟩

/-! ## Peripherals -/

structure PeripheralModule.WellFormed (w : Width) (m : PeripheralModule) : Prop where
  name : AllWordChars m.name
  description : OneLine m.description
  base : ∀ c, m.base = .written c → c.WellFormed w
  addresses : ∀ e ∈ m.registers, ∀ c, e.address = .written c → c.WellFormed w
  fields : ∀ e ∈ m.registers, ∀ t, e.fields = .written (some t) → t.WellFormed w

/-- The lines of a well-formed peripheral are well formed. -/
theorem PeripheralModule.WellFormed.lines {w : Width} {m : PeripheralModule}
    (h : m.WellFormed w) : ∀ line ∈ m.lines w, line.WellFormed w := by
  intro line hline
  -- the description or the module
  obtain hline | hline := List.mem_append.1 hline
  · exact wellFormed_docLines h.description line hline
  · refine wellFormed_enclose h.name ?_ line hline
    intro line hline
    obtain hline | hline := List.mem_append.1 hline
    · obtain ⟨c, hc, hline⟩ := Verdict.mem_lines.1 hline
      exact (h.base c hc).lines 1 line hline
    · -- the address of a register, then the fields of it
      obtain ⟨e, he, hline⟩ := List.mem_flatMap.1 hline
      obtain hline | hline := List.mem_append.1 hline
      · obtain ⟨c, hc, hline⟩ := Verdict.mem_lines.1 hline
        exact (h.addresses e he c hc).lines 1 line hline
      · obtain ⟨fields, hfields, hline⟩ := Verdict.mem_lines.1 hline
        obtain ⟨t, ht, hline⟩ := List.mem_flatMap.1 hline
        rw [Option.mem_toList.1 ht] at hfields
        exact (h.fields e he t hfields).lines 1 line hline

/-- An address that is written is the sum of the base and the offset, and fits in the width. -/
theorem written_of_addressItem {w : Width} {p : Peripheral} {r : Register} {item : Item Constant}
    (h : addressItem w p r = .written item) :
    ∃ address, Word.add? p.base r.offset = some address ∧ address ≤ w.maxValue
      ∧ item = ⟨p.name ++ "." ++ r.name, some (Name.toConstant r.name),
          ⟨Name.toConstant r.name, .address address, r.description⟩⟩ := by
  unfold addressItem at h
  split at h
  · cases h
  · next address hadd =>
    obtain ⟨hle, hitem⟩ := written_of_item h
    exact ⟨address, hadd, hle, hitem⟩

/-- A base address that is written fits, and no register has its name. -/
theorem written_of_baseAddress {w : Width} {p : Peripheral} {rs : List Register} {c : Constant}
    (h : baseAddress w p rs = .written c) :
    (∀ r ∈ rs, Name.toConstant r.name ≠ baseName) ∧ p.base ≤ w.maxValue
      ∧ c = ⟨baseName, .address p.base, none⟩ := by
  unfold baseAddress at h
  split at h
  · cases h
  · -- no register has taken the name
    next hany =>
    obtain ⟨hle, hc⟩ := written_of_within h
    refine ⟨fun r hr hname => hany ?_, hle, hc.symm⟩
    exact List.any_eq_true.2 ⟨r, hr, by simpa using hname⟩

/-- The addresses and the fields of the registers of a peripheral, each on their own. -/
theorem map_registerEntries (w : Width) (p : Peripheral) (rs : List Register) :
    (registerEntries w p rs).map RegisterEntry.address = claim [] (rs.map (addressItem w p))
      ∧ (registerEntries w p rs).map RegisterEntry.fields = claim [] (rs.map (fieldsItem w)) := by
  -- both lists have one verdict for each register
  have hlength : (claim [] (rs.map (addressItem w p))).length
      = (claim [] (rs.map (fieldsItem w))).length := by
    simp only [length_claim, List.length_map]
  rw [registerEntries, ← List.map_uncurry_zip_eq_zipWith, List.map_map, List.map_map]
  constructor
  · exact List.map_fst_zip (Nat.le_of_eq hlength)
  · exact List.map_snd_zip (Nat.le_of_eq hlength.symm)

@[simp] theorem PeripheralModule.name_ofPeripheral (w : Width) (p : Peripheral)
    (rs : List Register) : (ofPeripheral w p rs).name = Name.toModule p.name := by
  rw [ofPeripheral]

/-- The module of a peripheral is well formed. -/
theorem PeripheralModule.wellFormed_ofPeripheral {w : Width} {p : Peripheral}
    {rs : List Register} (hp : p.WellFormed) (hrs : ∀ r ∈ rs, r.WellFormed) :
    (ofPeripheral w p rs).WellFormed w where
  name := by
    rw [name_ofPeripheral]
    exact Name.allWordChars_toModule (Name.allWordChars_of_isWord hp.name)
  description := hp.description
  base := by
    intro c hc
    obtain ⟨_, hle, hc⟩ := written_of_baseAddress hc
    rw [hc]
    refine ⟨?_, hle, ?_⟩
    · show AllWordChars "BASE_ADDRESS"
      decide
    · intro s hs
      cases hs
  addresses := by
    intro e he c hc
    -- the addresses are claimed by themselves, without the fields
    have hmem : e.address ∈ claim [] (rs.map (addressItem w p)) := by
      rw [← (map_registerEntries w p rs).1]
      exact List.mem_map_of_mem he
    rw [hc] at hmem
    refine wellFormed_of_mem_claim (fun r hr item hitem => ?_) (mem_contents.2 hmem)
    obtain ⟨address, _, hle, hitem⟩ := written_of_addressItem hitem
    have hr := hrs r hr
    rw [hitem]
    exact ⟨Name.allWordChars_toConstant (Name.allWordChars_of_isWord hr.name), hle, hr.description⟩
  fields := by
    intro e he t ht
    have hmem : e.fields ∈ claim [] (rs.map (fieldsItem w)) := by
      rw [← (map_registerEntries w p rs).2]
      exact List.mem_map_of_mem he
    rw [ht] at hmem
    obtain ⟨item, hitem, hcontent⟩ := exists_item_of_mem_claim (mem_contents.2 hmem)
    obtain ⟨r, hr, hri⟩ := List.mem_map.1 (mem_contents.1 hitem)
    unfold fieldsItem at hri
    split at hri
    · rw [← Verdict.written.inj hri] at hcontent
      cases hcontent
    · rw [← Verdict.written.inj hri] at hcontent
      exact Option.some.inj hcontent ▸ Table.wellFormed_ofFields (hrs r hr)

/-! ## Interrupts -/

def Vector.WellFormed (w : Width) : Vector → Prop
  | constant c => c.WellFormed w
  | placeholder name number description =>
    AllWordChars name ∧ number ≤ w.maxValue ∧ IsLine description.toList

/-- The lines of a well-formed vector are well formed. -/
theorem Vector.WellFormed.lines {w : Width} {v : Vector} (h : v.WellFormed w) :
    ∀ line ∈ v.lines w, line.WellFormed w := by
  cases v with
  | constant c => exact Constant.WellFormed.lines h 1
  | placeholder name number description =>
    intro line hline
    rw [List.mem_singleton.1 hline]
    obtain ⟨hname, hnumber, hdescription⟩ := h
    exact ⟨hname, rfl, hnumber, hdescription⟩

/-- The vector of an interrupt is well formed. -/
theorem Vector.wellFormed_of_interruptItem {w : Width} {i : Interrupt} {item : Item Vector}
    (hi : i.WellFormed) (h : interruptItem w i = .written item) : item.content.WellFormed w := by
  obtain ⟨hle, hitem⟩ := written_of_within h
  have hname := Name.allWordChars_toConstant (Name.allWordChars_of_isWord hi.name)
  subst hitem
  -- a constant shows its name, a placeholder its description behind it
  split
  · exact ⟨hname, hle, hi.description⟩
  · refine ⟨hname, hle, ?_⟩
    cases hd : i.description with
    | none =>
      show IsLine "".toList
      decide
    | some s => exact isLine_of_oneLine hi.description hd

/-! ## Devices -/

/-- The lines of a listing below its banner. -/
def bodyLines (l : Listing) : List Line :=
  (l.groups.toList.flatMap (fun groups => .blank :: groupLines l.width groups)
    ++ l.peripherals.flatMap (Verdict.lines fun p => .blank :: p.lines l.width)
    ++ l.interrupts.toList.flatMap (fun vectors => .blank :: interruptLines l.width vectors)).filter
      fun line => l.descriptions || !line.isDoc

/-- The characters of a listing are those of its lines. -/
theorem toList_text (l : Listing) :
    l.text.toList = Text.unlines (l.lines.map fun line => line.text.toList) := by
  rw [text, String.toList_join, Text.unlines, List.flatMap_map, List.flatMap_map]
  apply List.flatMap_congr
  intro line _
  rw [String.toList_append]
  rfl

/-- The banner stands before all else. -/
theorem lines_eq_banner_append (l : Listing) : l.lines = banner l.device ++ l.bodyLines := by
  -- the banner holds no descriptions, so all of it is kept
  have hbanner : (banner l.device).filter (fun line => l.descriptions || !line.isDoc)
      = banner l.device := by
    have hremark : ∀ content, (l.descriptions || !(Line.remark content).isDoc) = true :=
      fun content => Bool.or_true l.descriptions
    rw [banner, List.filter_cons, if_pos (hremark _), List.filter_cons, if_pos (hremark _),
      List.filter_nil]
  rw [lines, describedLines, List.append_assoc, List.append_assoc, List.filter_append, hbanner,
    bodyLines, List.append_assoc]

/-- The lines of the groups are well formed. -/
theorem wellFormed_groupLines {d : Device} (h : d.WellFormed) :
    ∀ line ∈ groupLines d.width (claim [] (d.groups.map (groupItem d.width))),
      line.WellFormed d.width := by
  apply wellFormed_enclose (by decide)
  have habout : IsLine
      "Register offsets relative to the base address of each peripheral.".toList := by
    decide
  refine List.forall_mem_cons.2 ⟨habout, fun line hline => ?_⟩
  -- behind the remark at its start, the module has the tables of the groups
  obtain ⟨t, ht, hline⟩ := mem_flatMap_lines.1 hline
  obtain ⟨item, hitem, hcontent⟩ := exists_item_of_mem_claim ht
  obtain ⟨g, hg, hgi⟩ := List.mem_map.1 (mem_contents.1 hitem)
  rw [← Verdict.written.inj hgi] at hcontent
  have ht : t.WellFormed d.width := hcontent ▸ Table.wellFormed_ofGroup (h.groups g hg)
  exact ht.lines 1 line hline

/-- The registers that a peripheral shows are well formed. -/
theorem wellFormed_registersOf {d : Device} (h : d.WellFormed) (group : String) :
    ∀ r ∈ d.registersOf group, r.WellFormed := by
  unfold Device.registersOf
  cases hg : d.group? group with
  | none => exact fun r hr => absurd hr List.not_mem_nil
  | some g => exact (h.groups g (FirstWins.mem_of_find? hg)).registers

/-- Those of the peripherals are. -/
theorem wellFormed_peripheralLines {d : Device} (h : d.WellFormed) (o : Options) :
    ∀ line ∈ (d.listing o).peripherals.flatMap
      (Verdict.lines fun m : PeripheralModule => .blank :: m.lines d.width),
      line.WellFormed d.width := by
  intro line hline
  obtain ⟨m, hm, hline⟩ := mem_flatMap_lines.1 hline
  obtain ⟨item, hitem, hcontent⟩ := exists_item_of_mem_claim hm
  obtain ⟨p, hp, hpi⟩ := List.mem_map.1 (mem_contents.1 hitem)
  rw [← Verdict.written.inj hpi] at hcontent
  have hp := h.peripherals p (List.mem_of_mem_filter hp)
  -- the module that is listed is that of a peripheral
  have hm : m.WellFormed d.width := by
    rw [← hcontent]
    exact PeripheralModule.wellFormed_ofPeripheral hp (wellFormed_registersOf h _)
  obtain hline | hline := List.mem_cons.1 hline
  · exact hline ▸ trivial
  · exact hm.lines line hline

/-- Those of the interrupts are. -/
theorem wellFormed_interruptLines {d : Device} (h : d.WellFormed) :
    ∀ line ∈ interruptLines d.width (claim [] (d.interrupts.map (interruptItem d.width))),
      line.WellFormed d.width := by
  apply wellFormed_enclose (by decide)
  intro line hline
  obtain ⟨v, hv, hline⟩ := mem_flatMap_lines.1 hline
  obtain ⟨item, hitem, hcontent⟩ := exists_item_of_mem_claim hv
  obtain ⟨i, hi, hii⟩ := List.mem_map.1 (mem_contents.1 hitem)
  -- the vector that is listed is that of an interrupt
  have hv : v.WellFormed d.width :=
    hcontent ▸ Vector.wellFormed_of_interruptItem (h.interrupts i hi) hii
  exact hv.lines line hline

/-- The lines of the listing of a well-formed device are well formed below the banner. -/
theorem wellFormed_bodyLines {d : Device} (h : d.WellFormed) (o : Options) :
    ∀ line ∈ (d.listing o).bodyLines, line.WellFormed d.width := by
  intro line hline
  have hmem := List.mem_of_mem_filter hline
  -- the groups, the peripherals or the interrupts
  obtain hmem | hmem := List.mem_append.1 hmem
  · obtain hmem | hmem := List.mem_append.1 hmem
    · obtain ⟨gs, hgs, hmem⟩ := List.mem_flatMap.1 hmem
      have hsome := Option.mem_toList.1 hgs
      simp only [Device.listing, Option.ite_none_right_eq_some] at hsome
      rw [← Option.some.inj hsome.2] at hmem
      obtain hmem | hmem := List.mem_cons.1 hmem
      · exact hmem ▸ trivial
      · exact wellFormed_groupLines h line hmem
    · exact wellFormed_peripheralLines h o line hmem
  · obtain ⟨is, his, hmem⟩ := List.mem_flatMap.1 hmem
    have hsome := Option.mem_toList.1 his
    simp only [Device.listing, Option.ite_none_left_eq_some] at hsome
    rw [← Option.some.inj hsome.2] at hmem
    obtain hmem | hmem := List.mem_cons.1 hmem
    · exact hmem ▸ trivial
    · exact wellFormed_interruptLines h line hmem

end RegisterMap.Listing
