import RegisterMap.Proofs.Dimension
import RegisterMap.Proofs.Element
import RegisterMap.Proofs.Reordering

/-!
# Rows that are written out

A declaration with a dimension says nothing that could not be said without one:
it may be replaced by declarations of the elements of its row, one by one. For
registers and fields this is seen in the row that a declaration stands for
(`alike_rows_registersOf`, `alike_rows_fieldsOf`). From there it goes up through
what is read on the way, since nothing above depends on how a row was declared.

- `Declared.WrittenOut`: one row of a description has been written out
- `Device.gives_iff_of_writtenOut`: the description still describes the same device
-/

namespace RegisterMap

open Xml (Element)
open Xml.Element (SameBut Inside Single Replaced)
open Checked (Alike rows)

/-- A declaration without a dimension stands for itself. -/
theorem Expansion.gives_single {e : Element} (hdim : e.childrenNamed "dim" = []) {name : String}
    {base : Nat} {loc : Location} {x : Expansion} :
    (Expansion.read e name base loc).Gives x ↔ x = .single := by
  have hnone : e.childText? "dim" = none := by
    simp [Element.childText?, Element.child?, hdim]
  simp [Expansion.read, Dimension.read?, hnone, eq_comm]

/-- The names of the child elements that make a dimension. -/
def Dimension.tags : List String := ["dim", "dimIncrement", "dimIndex"]

/-- An expansion depends on the tags of a dimension only. -/
theorem Expansion.read_congr {e e' : Element}
    (h : ∀ tag ∈ Dimension.tags, e'.childText? tag = e.childText? tag) :
    Expansion.read e' = Expansion.read e := by
  funext name base loc
  unfold Expansion.read Dimension.read?
  rw [h "dim" (by decide), h "dimIncrement" (by decide), h "dimIndex" (by decide)]

namespace Declared

/-! ## Fields -/

/-- The field that an element of a row is. -/
def fieldOf (e : Element) (width : Nat) (x : Instance) : Field :=
  ⟨x.name, x.offset, width, description e⟩

/-- The fields that a declaration stands for, part by part. -/
theorem gives_fieldRow {e : Element} {loc : Location} {fs : List Field} :
    (fieldRow e loc).Gives fs
      ↔ ∃ name span expansion, e.childText? "name" = some name ∧ (bitSpan e .device).Gives span
        ∧ (Expansion.read e name span.offset .device).Gives expansion
        ∧ (∀ x ∈ expansion.instances name span.offset, Name.isWord x.name = true)
        ∧ fs = (expansion.instances name span.offset).map (fieldOf e span.width) := by
  simp only [fieldRow, Checked.gives_bind, gives_text, Checked.gives_mapM_check, gives_checkName]
  constructor
  · intro h
    obtain ⟨name, hname, span, hspan, expansion, hexpansion, hwords, rfl⟩ := h
    -- the location in the readings does not matter
    exact ⟨name, span, expansion, hname, (alike_bitSpan e _ _ span).1 hspan,
      (Expansion.alike_read e name span.offset _ _ expansion).1 hexpansion, hwords, rfl⟩
  · intro h
    obtain ⟨name, span, expansion, hname, hspan, hexpansion, hwords, rfl⟩ := h
    exact ⟨name, hname, span, (alike_bitSpan e _ _ span).1 hspan, expansion,
      (Expansion.alike_read e name span.offset _ _ expansion).1 hexpansion, hwords, rfl⟩

/-- The tags that give the bits of a field in other ways than by the lowest bit and the width. -/
def otherBitTags : List String := ["lsb", "msb", "bitRange"]

/-- A declaration of one field of a row, by its name, its lowest bit and its width. -/
structure IsField (e : Element) (width : Nat) (x : Instance) (e' : Element) : Prop where
  name : e'.childText? "name" = some x.name
  bitOffset : (e'.childText? "bitOffset").bind Numeral.scalar? = some x.offset
  bitWidth : (e'.childText? "bitWidth").bind Numeral.scalar? = some width
  dropped : ∀ tag ∈ Dimension.tags ++ otherBitTags, e'.childrenNamed tag = []
  others : ∀ tag ∉ ["name", "bitOffset", "bitWidth"] ++ Dimension.tags ++ otherBitTags,
    e'.childrenNamed tag = e.childrenNamed tag

/-- A row of fields and declarations of its elements, one by one. -/
def FieldsOf (e : Element) (es : List Element) : Prop :=
  ∃ name span xs, e.childText? "name" = some name ∧ (bitSpan e .device).Gives span
    ∧ (Expansion.read e name span.offset .device).Gives (.row xs) ∧ xs ≠ []
    ∧ List.Forall₂ (IsField e span.width) xs es

/-- A field with a lowest bit is given by it and by its width. -/
theorem gives_bitSpan_of_bitOffset {e : Element} {loc : Location} {offset : Nat}
    (h : (e.childText? "bitOffset").bind Numeral.scalar? = some offset) {span : BitSpan} :
    (bitSpan e loc).Gives span
      ↔ ∃ width, (e.childText? "bitWidth").bind Numeral.scalar? = some width
        ∧ span = ⟨offset, width⟩ := by
  obtain ⟨content, hcontent, hoffset⟩ := Option.bind_eq_some_iff.1 h
  have hnumber : ∀ o?, (number? e "bitOffset" loc).Gives o? ↔ o? = some offset := by
    intro o?
    rw [number?, hcontent]
    simp [hoffset, eq_comm]
  simp [bitSpan, hnumber, eq_comm]

/-- A field that is written for an element of a row is read to that element. -/
theorem IsField.gives_fieldRow {e e' : Element} {width : Nat} {x : Instance}
    (h : IsField e width x e') {fs : List Field} :
    (fieldRow e' .device).Gives fs ↔ Name.isWord x.name = true ∧ fs = [fieldOf e width x] := by
  have hfield : fieldOf e' width x = fieldOf e width x := by
    rw [fieldOf, fieldOf, description, description,
      Element.childText?_congr (h.others _ (by decide))]
  have hdim : e'.childrenNamed "dim" = [] := h.dropped _ (by decide)
  simp [Declared.gives_fieldRow, h.name, gives_bitSpan_of_bitOffset h.bitOffset, h.bitWidth,
    Expansion.gives_single hdim, Expansion.instances, hfield]

/-- Fields that are written out are the same row of fields. -/
theorem alike_rows_fieldsOf {e : Element} {es : List Element} (h : FieldsOf e es) :
    (fieldRow e .device).Alike (rows (fieldRow · .device) es) := by
  obtain ⟨name, span, xs, hname, hspan, hread, _, hall⟩ := h
  intro fs
  rw [Checked.gives_rows_singles (hall.imp fun x e' hx fs => hx.gives_fieldRow), gives_fieldRow]
  constructor
  · intro hgives
    -- there is but one name, span and expansion that can be read
    obtain ⟨name', span', expansion, hname', hspan', hread', hwords, hfs⟩ := hgives
    obtain rfl := Option.some.inj (hname.symm.trans hname')
    obtain rfl := hspan.unique hspan'
    obtain rfl := hread.unique hread'
    exact ⟨hwords, hfs⟩
  · intro hgives
    obtain ⟨hwords, hfs⟩ := hgives
    exact ⟨name, span, .row xs, hname, hspan, hread, hwords, hfs⟩

/-! ## Registers -/

/-- The access mode that a declaration names. -/
def accessOf (e : Element) : Option Access := (e.childText? "access").bind Access.ofText?

/-- The access of a declaration is what its text means, if anything. -/
theorem gives_access {e : Element} {loc : Location} {a : Option Access} :
    (access e loc).Gives a ↔ a = accessOf e := by
  unfold access accessOf
  cases e.childText? "access" with
  | none => simp [eq_comm]
  | some content =>
    -- a text that is no access is noticed and left out
    cases hread : Access.ofText? content with
    | none => simp [hread, eq_comm]
    | some mode => simp [hread, eq_comm]

/-- The register that an element of a row is. -/
def registerOf (e : Element) (fs : List Field) (x : Instance) : Register :=
  ⟨x.name, x.offset, accessOf e, description e, fs⟩

/-- The registers that a declaration stands for, part by part. -/
theorem gives_registerRow {e : Element} {loc : Location} {rs : List Register} :
    (registerRow e loc).Gives rs
      ↔ ∃ name offset expansion fs, e.childText? "name" = some name
        ∧ (e.childText? "addressOffset").bind Numeral.scalar? = some offset
        ∧ (Expansion.read e name offset .device).Gives expansion
        ∧ (∀ x ∈ expansion.instances name offset, Name.isWord x.name = true)
        ∧ (fields e .device).Gives fs
        ∧ rs = (expansion.instances name offset).map (registerOf e fs) := by
  simp only [registerRow, Checked.gives_bind, gives_text, gives_address, gives_access,
    Checked.gives_noteIf, Checked.gives_pure]
  constructor
  · intro h
    obtain ⟨name, hname, offset, hoffset, _, rfl, expansion, hread, ⟨⟩, hwords, fs, hfs, rfl⟩ := h
    -- as for fields, with the names checked before the fields are read
    refine ⟨name, offset, expansion, fs, hname, hoffset,
      (Expansion.alike_read e name offset _ _ expansion).1 hread, ?_,
      (alike_fields e _ _ fs).1 hfs, rfl⟩
    exact fun x hx => gives_checkName.1 (Checked.gives_forM.1 hwords x hx)
  · intro h
    obtain ⟨name, offset, expansion, fs, hname, hoffset, hread, hwords, hfs, rfl⟩ := h
    refine ⟨name, hname, offset, hoffset, _, rfl, expansion,
      (Expansion.alike_read e name offset _ _ expansion).1 hread, ⟨⟩, ?_, fs,
      (alike_fields e _ _ fs).1 hfs, rfl⟩
    exact Checked.gives_forM.2 fun x hx => gives_checkName.2 (hwords x hx)

/-- A declaration of one register of a row, by its name and its offset in hexadecimal. -/
structure IsRegister (e : Element) (x : Instance) (e' : Element) : Prop where
  name : e'.childText? "name" = some x.name
  offset : e'.childText? "addressOffset" = some (Numeral.hex x.offset)
  dropped : ∀ tag ∈ Dimension.tags, e'.childrenNamed tag = []
  others : ∀ tag ∉ ["name", "addressOffset"] ++ Dimension.tags,
    e'.childrenNamed tag = e.childrenNamed tag

/-- A row of registers and declarations of its elements, one by one. -/
def RegistersOf (e : Element) (es : List Element) : Prop :=
  ∃ name offset xs, e.childText? "name" = some name
    ∧ (e.childText? "addressOffset").bind Numeral.scalar? = some offset
    ∧ (Expansion.read e name offset .device).Gives (.row xs) ∧ xs ≠ []
    ∧ List.Forall₂ (IsRegister e) xs es

/-- A register that is written for an element of a row is read to that element, with the fields of
    the row. -/
theorem IsRegister.gives_registerRow {e e' : Element} {x : Instance} (h : IsRegister e x e')
    (hx : x.offset < Word.limit) {rs : List Register} :
    (registerRow e' .device).Gives rs
      ↔ Name.isWord x.name = true
        ∧ ∃ fs, (fields e .device).Gives fs ∧ rs = [registerOf e fs x] := by
  have hregister : registerOf e' = registerOf e := by
    funext fs x
    rw [registerOf, registerOf, accessOf, accessOf, description, description,
      Element.childText?_congr (h.others "access" (by decide)),
      Element.childText?_congr (h.others "description" (by decide))]
  have hfields : fields e' = fields e := by
    funext loc
    rw [fields, fields, Element.nested_congr (h.others "fields" (by decide))]
  -- without a dimension it stands for itself
  have hdim : e'.childrenNamed "dim" = [] := h.dropped _ (by decide)
  simp [Declared.gives_registerRow, h.name, h.offset, Numeral.scalar?_hex hx,
    Expansion.gives_single hdim, Expansion.instances, hregister, hfields]

/-- Registers that are written out are the same row of registers. -/
theorem alike_rows_registersOf {e : Element} {es : List Element} (h : RegistersOf e es) :
    (registerRow e .device).Alike (rows (registerRow · .device) es) := by
  obtain ⟨name, offset, xs, hname, hoffset, hread, hne, hall⟩ := h
  have hwf := Expansion.wellFormed_of_gives (Element.isTrimmed_childText? hname) hread
  have hall := (List.forall₂_and_left xs es).2 ⟨hwf, hall⟩
  -- every element has the fields that the row has, which are read once for each of them
  have hsingles : ∀ fs, (fields e .device).Gives fs → List.Forall₂ (fun x e' => ∀ rs,
      (registerRow e' .device).Gives rs ↔ Name.isWord x.name = true ∧ rs = [registerOf e fs x])
      xs es := by
    intro fs hfs
    refine hall.imp fun x e' hx rs => ?_
    rw [hx.2.gives_registerRow hx.1.offset]
    refine and_congr_right fun _ => ?_
    constructor
    · intro hrs
      obtain ⟨fs', hfs', rfl⟩ := hrs
      rw [hfs'.unique hfs]
    · exact fun hrs => ⟨fs, hfs, hrs⟩
  intro rs
  constructor
  · intro hgives
    obtain ⟨name', offset', expansion, fs, hname', hoffset', hread', hwords, hfs, hrs⟩ :=
      gives_registerRow.1 hgives
    obtain rfl := Option.some.inj (hname.symm.trans hname')
    obtain rfl := Option.some.inj (hoffset.symm.trans hoffset')
    obtain rfl := hread.unique hread'
    exact (Checked.gives_rows_singles (hsingles fs hfs)).2 ⟨hwords, hrs⟩
  · intro hgives
    -- the first element tells what the fields are
    have hfields : ∃ fs, (fields e .device).Gives fs := by
      cases hall with
      | nil => exact absurd rfl hne
      | cons hx _ =>
        obtain ⟨row, _, hrow, _⟩ := Checked.gives_rows_cons.1 hgives
        obtain ⟨_, fs, hfs, _⟩ := (hx.2.gives_registerRow hx.1.offset).1 hrow
        exact ⟨fs, hfs⟩
    obtain ⟨fs, hfs⟩ := hfields
    obtain ⟨hwords, hrs⟩ := (Checked.gives_rows_singles (hsingles fs hfs)).1 hgives
    exact gives_registerRow.2 ⟨name, offset, .row xs, fs, hname, hoffset, hread, hwords, hfs, hrs⟩

/-! ## The elements of a row -/

/-- The declaration of one register of a row, which keeps all else that the row says. -/
def writtenRegister (e : Element) (x : Instance) : Element :=
  e.restated [("name", x.name), ("addressOffset", Numeral.hex x.offset)] Dimension.tags

/-- The declaration of one field of a row, which keeps all else that the row says. -/
def writtenField (e : Element) (width : Nat) (x : Instance) : Element :=
  e.restated [("name", x.name), ("bitOffset", toString x.offset), ("bitWidth", toString width)]
    (Dimension.tags ++ otherBitTags)

/-- The register that is written for an element is one for it. -/
theorem isRegister_writtenRegister (e : Element) {x : Instance} (hx : x.WellFormed) :
    IsRegister e x (writtenRegister e x) where
  name := by
    rw [writtenRegister, Element.childText?_restated rfl, Text.trim_of_isTrimmed hx.name]
  offset := by
    rw [writtenRegister, Element.childText?_restated rfl,
      Text.trim_of_isTrimmed (Numeral.isTrimmed_hex _)]
  dropped tag htag := by
    -- what is written anew is no part of the dimension
    have hdisjoint : ∀ tag ∈ Dimension.tags, tag ∉ ["name", "addressOffset"] := by decide
    exact Element.childrenNamed_restated_of_dropped (hdisjoint tag htag) htag
  others tag htag := by
    rw [List.mem_append, not_or] at htag
    exact Element.childrenNamed_restated_of_not_mem htag.1 htag.2

/-- The field that is written for an element is one for it. -/
theorem isField_writtenField (e : Element) {x : Instance} (hx : x.WellFormed) {width : Nat}
    (hwidth : width < Word.limit) : IsField e width x (writtenField e width x) where
  name := by
    rw [writtenField, Element.childText?_restated rfl, Text.trim_of_isTrimmed hx.name]
  bitOffset := by
    rw [writtenField, Element.childText?_restated rfl,
      Text.trim_of_isTrimmed (Numeral.isTrimmed_toString _)]
    exact Numeral.scalar?_toString hx.offset
  bitWidth := by
    rw [writtenField, Element.childText?_restated rfl,
      Text.trim_of_isTrimmed (Numeral.isTrimmed_toString _)]
    exact Numeral.scalar?_toString hwidth
  dropped tag htag := by
    -- neither the dimension nor another form of the bits is written anew
    have hdisjoint : ∀ tag ∈ Dimension.tags ++ otherBitTags,
        tag ∉ ["name", "bitOffset", "bitWidth"] := by decide
    exact Element.childrenNamed_restated_of_dropped (hdisjoint tag htag) htag
  others tag htag := by
    rw [List.append_assoc, List.mem_append, not_or] at htag
    exact Element.childrenNamed_restated_of_not_mem htag.1 htag.2

/-- Every row of registers can be written out. -/
theorem registersOf_writtenRegister {e : Element} {name : String} {offset : Nat}
    {xs : List Instance} (hname : e.childText? "name" = some name)
    (hoffset : (e.childText? "addressOffset").bind Numeral.scalar? = some offset)
    (hread : (Expansion.read e name offset .device).Gives (.row xs)) (hne : xs ≠ []) :
    RegistersOf e (xs.map (writtenRegister e)) := by
  have hwf := Expansion.wellFormed_of_gives (Element.isTrimmed_childText? hname) hread
  refine ⟨name, offset, xs, hname, hoffset, hread, hne, ?_⟩
  rw [List.forall₂_map_right_iff, List.forall₂_same]
  exact fun x hx => isRegister_writtenRegister e (hwf x hx)

/-- Every row of fields whose width is a word can be written out. -/
theorem fieldsOf_writtenField {e : Element} {name : String} {span : BitSpan}
    {xs : List Instance} (hname : e.childText? "name" = some name)
    (hspan : (bitSpan e .device).Gives span) (hwidth : span.width < Word.limit)
    (hread : (Expansion.read e name span.offset .device).Gives (.row xs)) (hne : xs ≠ []) :
    FieldsOf e (xs.map (writtenField e span.width)) := by
  have hwf := Expansion.wellFormed_of_gives (Element.isTrimmed_childText? hname) hread
  refine ⟨name, span, xs, hname, hspan, hread, hne, ?_⟩
  rw [List.forall₂_map_right_iff, List.forall₂_same]
  exact fun x hx => isField_writtenField e (hwf x hx) hwidth

/-! ## Containers -/

variable {e e' : Element}

/-- Rows that are replaced inside a container by others that are the same give the same values. -/
theorem alike_rows_nested {α : Type} {f : Element → Checked (List α)} {container tag : String}
    {P : Element → List Element → Prop} (hP : ∀ c cs, P c cs → (f c).Alike (rows f cs))
    (h : Inside container tag P e e') :
    (rows f (e.nested container tag)).Alike (rows f (e'.nested container tag)) := by
  obtain hsame | ⟨before, c, cs, after, hc, he, he'⟩ := h.nested
  · rw [hsame]
    exact .refl _
  · rw [he, he']
    exact Checked.alike_rows_replace (hP c cs hc) before after

/-- One row may be replaced by another one that is the same. -/
theorem alike_rows_single {α : Type} {f : Element → Checked (List α)}
    {R : Element → Element → Prop} (hR : ∀ c c', R c c' → (f c).Alike (f c')) (c : Element)
    (cs : List Element) (h : Single R c cs) : (f c).Alike (rows f cs) := by
  obtain ⟨c', rfl, hc⟩ := h
  exact (hR c c' hc).trans (Checked.alike_rows_singleton f c')

/-! ## Registers and peripherals around a row -/

/-- The fields of a register are the first ones of their names in all rows. -/
theorem gives_fields_rows {loc : Location} {fs : List Field} :
    (fields e loc).Gives fs
      ↔ ∃ row, (rows (fieldRow · .device) (e.nested "fields" "field")).Gives row
        ∧ FirstWins.Agree Field.name Field.span row ∧ fs = FirstWins.firsts Field.name row := by
  -- the indices in the locations do not matter
  have hrows := Alike.mapM_zipIdx (fun x i => alike_fieldRow x (loc.child "field" i none) .device)
    (e.nested "fields" "field")
  rw [gives_fields]
  simp only [hrows _, rows, Checked.gives_map]
  constructor
  · intro h
    obtain ⟨rs, hrs, hagree, hfs⟩ := h
    exact ⟨rs.flatten, ⟨rs, hrs, rfl⟩, hagree, hfs⟩
  · intro h
    obtain ⟨_, ⟨rs, hrs, rfl⟩, hagree, hfs⟩ := h
    exact ⟨rs, hrs, hagree, hfs⟩

/-- A register depends on its fields only through what is read from them. -/
theorem alike_registerRow_of_fields (hsame : SameBut "fields" e e')
    (h : (rows (fieldRow · .device) (e.nested "fields" "field")).Alike
      (rows (fieldRow · .device) (e'.nested "fields" "field"))) :
    (registerRow e .device).Alike (registerRow e' .device) := by
  have hfields : ∀ fs, (fields e .device).Gives fs ↔ (fields e' .device).Gives fs := by
    intro fs
    simp only [gives_fields_rows, h _]
  -- what is read outside of the fields is the same
  have hread : Expansion.read e' = Expansion.read e := by
    apply Expansion.read_congr
    intro tag htag
    exact hsame.childText? (by rintro rfl; exact absurd htag (by decide))
  have hregister : registerOf e' = registerOf e := by
    funext fs x
    rw [registerOf, registerOf, accessOf, accessOf, description, description,
      hsame.childText? (by decide), hsame.childText? (by decide)]
  have hname : e'.childText? "name" = e.childText? "name" := hsame.childText? (by decide)
  have hoffset : e'.childText? "addressOffset" = e.childText? "addressOffset" :=
    hsame.childText? (by decide)
  intro rs
  simp only [gives_registerRow, hfields, hread, hregister, hname, hoffset]

/-- The registers of a peripheral are those of all rows, if it does not derive them. -/
theorem alike_ownRegisters_rows (d : Declaration) (loc : Location) :
    (ownRegisters e d loc).Alike
      (match d.layout with
        | .owned _ => rows (registerRow · .device) (e.nested "registers" "register")
        | .derived _ => pure []) := by
  unfold ownRegisters registerRows
  cases d.layout with
  | owned group =>
    exact (Alike.mapM_zipIdx (fun x i => alike_registerRow x (loc.child "register" i none) .device)
      (e.nested "registers" "register")).map List.flatten
  | derived parent => exact .refl _

/-- A peripheral depends on its registers only through what is read from them. -/
theorem alike_part_of_registers (hsame : SameBut "registers" e e')
    (h : (rows (registerRow · .device) (e.nested "registers" "register")).Alike
      (rows (registerRow · .device) (e'.nested "registers" "register"))) :
    (part e 0).Alike (part e' 0) := by
  -- so is all that a peripheral says on its own
  have hperipheral : peripheral e' = peripheral e := by
    funext loc
    simp only [peripheral, text, address, layout, description, hsame.attribute?,
      hsame.childText? (show "name" ≠ "registers" by decide),
      hsame.childText? (show "baseAddress" ≠ "registers" by decide),
      hsame.childText? (show "groupName" ≠ "registers" by decide),
      hsame.childText? (show "description" ≠ "registers" by decide)]
  have hinterrupts : interrupts e' = interrupts e := by
    funext loc
    rw [interrupts, interrupts, hsame.childrenNamed _ (by decide)]
  -- only the registers may be read from other declarations
  have hown : ∀ d loc, (ownRegisters e d loc).Alike (ownRegisters e' d loc) := by
    intro d loc
    refine (alike_ownRegisters_rows d loc).trans (.trans ?_ (alike_ownRegisters_rows d loc).symm)
    cases d.layout with
    | owned group => exact h
    | derived parent => exact .refl _
  unfold part
  rw [hperipheral, hinterrupts]
  refine Alike.bind (.refl _) fun d => ?_
  refine Alike.bind (.refl _) fun is => ?_
  exact (hown d _).bind fun own => .refl _

/-- The parts of a device, as rows of one part each. -/
theorem alike_parts_rows (e : Element) :
    (parts e).Alike
      (rows (fun x => (fun p => [p]) <$> part x 0) (e.nested "peripherals" "peripheral")) :=
  (Alike.mapM_zipIdx (fun x i => alike_part x i 0) _).trans (Checked.alike_rows_mapM _ _)

/-! ## Descriptions -/

/-- In the second description one row of the first one has been written out, a row of registers or
    a row of fields. -/
inductive WrittenOut : Element → Element → Prop
  | registers {e e' : Element} (h : Inside "peripherals" "peripheral"
      (Single (Inside "registers" "register" RegistersOf)) e e') : WrittenOut e e'
  | fields {e e' : Element} (h : Inside "peripherals" "peripheral"
      (Single (Inside "registers" "register" (Single (Inside "fields" "field" FieldsOf)))) e e') :
      WrittenOut e e'

/-- A peripheral with a row that is written out says the same. -/
theorem alike_part_of_inside {P : Element → List Element → Prop}
    (hP : ∀ r rs, P r rs → (registerRow r .device).Alike (rows (registerRow · .device) rs))
    (h : Inside "registers" "register" P e e') : (part e 0).Alike (part e' 0) :=
  alike_part_of_registers h.sameBut (alike_rows_nested hP h)

/-- Writing out a row of fields changes nothing for the register around it. -/
theorem alike_registerRow_of_inside (h : Inside "fields" "field" FieldsOf e e') :
    (registerRow e .device).Alike (registerRow e' .device) :=
  alike_registerRow_of_fields h.sameBut (alike_rows_nested (fun _ _ => alike_rows_fieldsOf) h)

/-- What the peripherals of a description say is the same if one of them is replaced by another one
    that says the same. -/
theorem alike_parts_of_inside {R : Element → Element → Prop}
    (hR : ∀ c c', R c c' → (part c 0).Alike (part c' 0))
    (h : Inside "peripherals" "peripheral" (Single R) e e') : (parts e).Alike (parts e') := by
  refine (alike_parts_rows e).trans (.trans ?_ (alike_parts_rows e').symm)
  exact alike_rows_nested (alike_rows_single fun c c' hc => (hR c c' hc).map _) h

/-- Writing out a row changes nothing for the peripherals. -/
theorem WrittenOut.alike_parts (h : WrittenOut e e') : (parts e).Alike (parts e') := by
  -- the rows that are written out are those of registers or those of fields
  cases h with
  | registers h =>
    exact alike_parts_of_inside (fun _ _ => alike_part_of_inside fun _ _ => alike_rows_registersOf) h
  | fields h =>
    have hrows := alike_rows_single (f := (registerRow · .device))
      fun _ _ => alike_registerRow_of_inside
    exact alike_parts_of_inside (fun _ _ => alike_part_of_inside hrows) h

/-- It changes nothing outside of them. -/
theorem WrittenOut.sameBut (h : WrittenOut e e') : SameBut "peripherals" e e' := by
  cases h with
  | registers h => exact h.sameBut
  | fields h => exact h.sameBut

end Declared

/-- A description in which a row of registers or of fields is written out compiles exactly if it
    did before, and to the same device. -/
theorem Device.gives_iff_of_writtenOut {e e' : Element} (h : Declared.WrittenOut e e') (d : Device) :
    (ofElement e).Gives d ↔ (ofElement e').Gives d := by
  have hwidth : Declared.width e' = Declared.width e := by
    rw [Declared.width, Declared.width, h.sameBut.childText? (by decide)]
  have hname : e'.childText? "name" = e.childText? "name" := h.sameBut.childText? (by decide)
  have hparts : ∀ ps, (Declared.parts e).Gives ps ↔ (Declared.parts e').Gives ps := h.alike_parts
  rw [gives_ofElement, gives_ofElement]
  simp only [hwidth, hname, hparts]

namespace Device

/-- A description of a peripheral with some registers. -/
def channelsWith (registers : List Element) : Element :=
  ⟨"device", [], [(Element.leaf "width" "32").node,
    .element "peripherals" []
      [.element "peripheral" []
        [(Element.leaf "name" "DMA").node, (Element.leaf "baseAddress" "0x40020000").node,
          .element "registers" [] (registers.map Element.node)]]]⟩

/-- A row of two registers. -/
def channelRow : Element :=
  ⟨"register", [],
    [(Element.leaf "dim" "2").node, (Element.leaf "dimIncrement" "0x14").node,
      (Element.leaf "dimIndex" "A,B").node, (Element.leaf "name" "CCR%s").node,
      (Element.leaf "addressOffset" "0x8").node,
      .element "fields" []
        [.element "field" [] [(Element.leaf "name" "EN").node, (Element.leaf "bitRange" "[3:0]").node]]]⟩

/-- The elements of the row. -/
def channelRegisters : List Instance := [⟨"CCRA", 8⟩, ⟨"CCRB", 0x1C⟩]

/-- The device with the two registers. -/
def channels : Device where
  name := none
  width := .w32
  peripherals := [⟨"DMA", "DMA", none, 0x40020000, none⟩]
  groups :=
    [⟨"DMA", [⟨"CCRA", 8, none, none, [⟨"EN", 0, 4, none⟩]⟩,
      ⟨"CCRB", 0x1C, none, none, [⟨"EN", 0, 4, none⟩]⟩]⟩]
  interrupts := []

/-- A row of channels, declared as a row and one by one. -/
theorem gives_iff_of_writtenOut_channels :
    (ofElement (channelsWith [channelRow])).Gives channels
      ∧ (ofElement (channelsWith (channelRegisters.map (Declared.writtenRegister channelRow)))).Gives
        channels := by
  have hread : (Expansion.read channelRow "CCR%s" 8 .device).Gives (.row channelRegisters) := by
    decide +kernel
  have hrow := Declared.registersOf_writtenRegister (by decide +kernel) (by decide +kernel) hread
    (by decide)
  have hgives : (ofElement (channelsWith [channelRow])).Gives channels := by
    decide +kernel
  have hwritten : Declared.WrittenOut (channelsWith [channelRow])
      (channelsWith (channelRegisters.map (Declared.writtenRegister channelRow))) := by
    -- from the row outwards: the registers, the peripheral, the peripherals, the device
    have hregisters := @Replaced.child "register" Declared.RegistersOf "registers" [] [] [] channelRow
      _ hrow rfl (by decide +kernel)
    have hperipheral := @Replaced.child "registers" (Single _) "peripheral" []
      [(Element.leaf "name" "DMA").node, (Element.leaf "baseAddress" "0x40020000").node] [] _ [_]
      ⟨_, rfl, hregisters⟩ rfl (by simp)
    have hperipherals := @Replaced.child "peripheral" (Single _) "peripherals" [] [] [] _ [_]
      ⟨_, rfl, hperipheral⟩ rfl (by simp)
    exact .registers (@Replaced.child "peripherals" (Single _) "device" []
      [(Element.leaf "width" "32").node] [] _ [_] ⟨_, rfl, hperipherals⟩ rfl (by simp))
  exact ⟨hgives, (gives_iff_of_writtenOut hwritten channels).1 hgives⟩

end Device
end RegisterMap
