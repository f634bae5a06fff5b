import RegisterMap.Proofs.Description
import RegisterMap.Proofs.FirstWins
import RegisterMap.Declared.Interrupt
import RegisterMap.Declared.Peripheral
import RegisterMap.Declared.Register

/-!
# Well-formed declarations

What can be said of everything that has been read from a declaration: names are
words, descriptions are single lines, and the fields of a register have
different names. Dimensions make new names, which are checked as well.

- `wellFormed_of_peripheral`, `wellFormed_of_interrupt`, `wellFormed_of_fields`,
  `wellFormed_of_registerRow`: one lemma for each kind of declaration
-/

namespace RegisterMap

open Xml (Element)

/-! ## Values -/

/-- A description that is absent or a single line. -/
def OneLine (description : Option String) : Prop :=
  ∀ s, description = some s → ∀ c ∈ s.toList, Text.isBlank c → c = ' '

structure Field.WellFormed (f : Field) : Prop where
  name : Name.isWord f.name = true
  description : OneLine f.description

structure Register.WellFormed (r : Register) : Prop where
  name : Name.isWord r.name = true
  description : OneLine r.description
  fields : ∀ f ∈ r.fields, f.WellFormed
  nodup : (r.fields.map Field.name).Nodup

structure Interrupt.WellFormed (i : Interrupt) : Prop where
  name : Name.isWord i.name = true
  description : OneLine i.description

structure Declaration.WellFormed (d : Declaration) : Prop where
  name : Name.isWord d.name = true
  description : OneLine d.description
  group : ∀ group, d.group? = some group → Name.isWord group = true

/-- A placeholder is well-formed. -/
theorem Interrupt.wellFormed_placeholder (number : Nat) : (placeholder number).WellFormed where
  name := by
    show Name.isWord "UNKNOWN" = true
    decide
  description := by
    intro s hs
    have hs : "Unknown interrupt" = s := Option.some.inj hs
    -- its text is checked as it stands
    have hall : "Unknown interrupt".toList.all (fun c => Text.isBlank c → c = ' ') = true := by
      decide
    rw [← hs]
    exact fun c hc => of_decide_eq_true (List.all_eq_true.1 hall c hc)

namespace Declared

/-! ## Texts and numbers -/

/-- A required text is the one that is there. -/
@[simp] theorem gives_text {e : Element} {tag s : String} {loc : Location} :
    (text e tag loc).Gives s ↔ e.childText? tag = some s :=
  Checked.gives_require

/-- A text is read as the scalar that it is. -/
@[simp] theorem gives_toNumber {content tag : String} {loc : Location} {n : Nat} :
    (toNumber content tag loc).Gives n ↔ Numeral.scalar? content = some n :=
  Checked.gives_require

/-- A required number is there, and is a scalar. -/
@[simp] theorem gives_number {e : Element} {tag : String} {loc : Location} {n : Nat} :
    (number e tag loc).Gives n ↔ (e.childText? tag).bind Numeral.scalar? = some n := by
  simp only [number, Checked.gives_bind, gives_text, gives_toNumber, Option.bind_eq_some_iff]

/-- The notice on a decimal address does not change its value. -/
@[simp] theorem gives_address {e : Element} {tag : String} {loc : Location} {n : Nat} :
    (address e tag loc).Gives n ↔ (e.childText? tag).bind Numeral.scalar? = some n := by
  simp only [address, Checked.gives_bind, gives_text, gives_toNumber, Checked.gives_noteIf,
    Checked.gives_pure, exists_eq_right, Option.bind_eq_some_iff]

/-! ## Names and descriptions -/

/-- A name passes if it is a word. -/
@[simp] theorem gives_checkName {name : String} {loc : Location} {u : Unit} :
    (checkName name loc).Gives u ↔ Name.isWord name = true := by
  unfold checkName
  split
  · next h => simp [h]
  · next h => simp [h]

/-- A description has one line. -/
theorem oneLine_description (e : Element) : OneLine (description e) := by
  intro s hs
  obtain ⟨text, _, htext⟩ := Option.bind_eq_some_iff.1 hs
  exact Description.blank_of_mem_normalize htext

/-! ## Peripherals and interrupts -/

/-- The name of an owned group is a word: it was checked, or it is that of the peripheral. -/
theorem isWord_of_layout {e : Element} {name group : String} {loc : Location} {l : Layout}
    (hname : Name.isWord name = true) (h : (layout e name loc).Gives l)
    (hl : l = .owned group) : Name.isWord group = true := by
  subst hl
  unfold layout at h
  -- a derived layout owns no group, others are named by the group or by the peripheral
  split at h
  · simp at h
  · simp only [Checked.gives_bind, gives_checkName, Checked.gives_pure, Layout.owned.injEq] at h
    obtain ⟨_, hgroup, heq⟩ := h
    exact heq ▸ hgroup
  · simp only [Checked.gives_pure, Layout.owned.injEq] at h
    exact h ▸ hname

/-- What the declaration of a peripheral says, part by part. -/
theorem gives_peripheral {e : Element} {loc : Location} {d : Declaration} :
    (peripheral e loc).Gives d
      ↔ e.childText? "name" = some d.name ∧ Name.isWord d.name = true
        ∧ (e.childText? "baseAddress").bind Numeral.scalar? = some d.base
        ∧ (layout e d.name (loc.named d.name)).Gives d.layout
        ∧ d.description = description e := by
  simp only [peripheral, Checked.gives_bind, gives_text, gives_checkName, gives_address,
    Checked.gives_pure]
  constructor
  · intro h
    obtain ⟨name, hname, _, hword, base, hbase, l, hl, rfl⟩ := h
    exact ⟨hname, hword, hbase, hl, rfl⟩
  · intro h
    obtain ⟨hname, hword, hbase, hl, hdescription⟩ := h
    exact ⟨d.name, hname, (), hword, d.base, hbase, d.layout, hl, by rw [← hdescription]⟩

/-- A peripheral that has been read is well-formed. -/
theorem wellFormed_of_peripheral {e : Element} {loc : Location} {d : Declaration}
    (h : (peripheral e loc).Gives d) : d.WellFormed := by
  obtain ⟨_, hname, _, hl, hdescription⟩ := gives_peripheral.1 h
  refine ⟨hname, hdescription ▸ oneLine_description e, ?_⟩
  intro group hgroup
  unfold Declaration.group? at hgroup
  -- only an owned layout has a group
  split at hgroup
  · next own hlayout => exact Option.some.inj hgroup ▸ isWord_of_layout hname hl hlayout
  · cases hgroup

/-- So is an interrupt, and it is valid. -/
theorem wellFormed_of_interrupt {e : Element} {loc : Location} {i : Interrupt}
    (h : (interrupt e loc).Gives i) : i.WellFormed ∧ i.valid = true := by
  simp only [interrupt, Checked.gives_bind, gives_checkName, Checked.gives_pure] at h
  obtain ⟨name, _, _, hname, _, _, number, _, hi⟩ := h
  subst hi
  exact ⟨⟨hname, oneLine_description e⟩, rfl⟩

/-! ## Fields -/

/-- So are the fields of a row. -/
theorem wellFormed_of_fieldRow {e : Element} {loc : Location} {fs : List Field}
    (h : (fieldRow e loc).Gives fs) : ∀ f ∈ fs, f.WellFormed := by
  simp only [fieldRow, Checked.gives_bind] at h
  obtain ⟨name, _, span, _, expansion, _, h⟩ := h
  intro f hf
  obtain ⟨i, _, hi⟩ := Checked.exists_of_mem_mapM h hf
  simp only [Checked.gives_bind, gives_checkName, Checked.gives_pure] at hi
  obtain ⟨_, hname, hf⟩ := hi
  exact hf ▸ ⟨hname, oneLine_description e⟩

/-- A field is added by what its offer to the fields makes of them. -/
theorem gives_addField {loc : Location} {table : List Field} {f : Field} {s : List Field} :
    (addField loc table f).Gives s
      ↔ ∃ table', (FirstWins.offer Field.name Field.span table f).table? table = some table'
          ∧ s = table' := by
  unfold addField
  cases FirstWins.offer Field.name Field.span table f with
  | added table' => simp [FirstWins.Outcome.table?, eq_comm]
  | repeated => simp [FirstWins.Outcome.table?]
  | clash first => simp [FirstWins.Outcome.table?]

/-- The fields of a register are the first ones of every name, and fields of one name have
    the same bits. -/
theorem gives_fields {e : Element} {loc : Location} {fs : List Field} :
    (fields e loc).Gives fs
      ↔ ∃ rows, ((e.nested "fields" "field").zipIdx.mapM fun x =>
            fieldRow x.1 (loc.child "field" x.2 none)).Gives rows
          ∧ FirstWins.Agree Field.name Field.span rows.flatten
          ∧ fs = FirstWins.firsts Field.name rows.flatten :=
  FirstWins.gives_foldlM_rows (fun table => table)
    (fun x : Element × Nat => addField (loc.child "field" x.2 none))
    (fun _ _ _ _ => gives_addField) (fun x => fieldRow x.1 (loc.child "field" x.2 none))
    FirstWins.agree_nil (e.nested "fields" "field").zipIdx fs

/-- The fields of a register are well-formed, and have different names. -/
theorem wellFormed_of_fields {e : Element} {loc : Location} {fs : List Field}
    (h : (fields e loc).Gives fs) :
    (∀ f ∈ fs, f.WellFormed) ∧ (fs.map Field.name).Nodup := by
  obtain ⟨rows, hrows, _, hfs⟩ := gives_fields.1 h
  subst hfs
  refine ⟨?_, FirstWins.nodup_firsts _⟩
  intro f hf
  -- each field that is kept comes from some row
  obtain ⟨row, hrow, hfrow⟩ := List.mem_flatten.1 (FirstWins.mem_of_mem_firsts hf)
  obtain ⟨x, _, hx⟩ := Checked.exists_of_mem_mapM hrows hrow
  exact wellFormed_of_fieldRow hx f hfrow

/-! ## Registers -/

/-- The registers of a row are well-formed. -/
theorem wellFormed_of_registerRow {e : Element} {loc : Location} {rs : List Register}
    (h : (registerRow e loc).Gives rs) : ∀ r ∈ rs, r.WellFormed := by
  simp only [registerRow, Checked.gives_bind, Checked.gives_noteIf, Checked.gives_pure] at h
  obtain ⟨name, _, offset, _, access, _, expansion, _, ⟨⟩, hnames, fs, hfs, hrs⟩ := h
  obtain ⟨hwords, hnodup⟩ := wellFormed_of_fields hfs
  intro r hr
  rw [← hrs] at hr
  obtain ⟨i, hi, hir⟩ := List.mem_map.1 hr
  -- the names were checked before the fields were read
  have hname : Name.isWord i.name = true := gives_checkName.1 (Checked.gives_forM.1 hnames i hi)
  exact hir ▸ ⟨hname, oneLine_description e, hwords, hnodup⟩

end Declared
end RegisterMap
