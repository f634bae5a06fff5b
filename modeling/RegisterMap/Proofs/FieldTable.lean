import RegisterMap.Proofs.BitSpan
import RegisterMap.Proofs.Expansion

/-!
# The fields of a register

The fields of a register are read element by element, and those of one element
at once, in the order of its row. Each is compared with those that are there. So
the first field of every name is kept, and what stops the reading is the first
thing that is wrong: an element that cannot be read, or a field whose bits are
not those of an earlier field of its name. It makes no difference whether the
two come from one element or from two.

- `Declared.fields_merged`: when the fields of a register can be read, what they
  are, and otherwise what is wrong
-/

namespace RegisterMap.Declared

open Xml (Element)
open FirstWins (Agree FirstClash firsts)

variable {es : List Element} {loc : Location} {rows : List (List Field)} {f : Fault}

/-- The rows of fields that some elements stand for, one for each element. -/
def FieldRows (es : List Element) (rows : List (List Field)) : Prop :=
  List.Forall₂ (fun e row => (fieldRow e .device).Gives row) es rows

/-- The first thing that is wrong with the fields of a register. The elements in front of it can be
    read, and their fields agree. -/
inductive FieldFault (loc : Location) (es : List Element) : Fault → Prop
  | unread {before after : List Element} {e : Element} {rows : List (List Field)} {f : Fault}
    (hsplit : es = before ++ e :: after) (hrows : FieldRows before rows)
    (hagree : Agree Field.name Field.span rows.flatten)
    (hfails : (fieldRow e (loc.child "field" before.length none)).Fails f) : FieldFault loc es f
  | conflict {before after : List Element} {e : Element} {rows : List (List Field)}
    {row : List Field} {first second : Field}
    (hsplit : es = before ++ e :: after) (hrows : FieldRows before rows)
    (hrow : (fieldRow e .device).Gives row)
    (hclash : FirstClash Field.name Field.span rows.flatten row first second) :
    FieldFault loc es (.fieldConflict ((loc.child "field" before.length none).named second.name)
      second.name first.span second.span)

/-- The place of an element does not matter for its fields. -/
theorem gives_mapM_fieldRow :
    (es.zipIdx.mapM fun x => fieldRow x.1 (loc.child "field" x.2 none)).Gives rows
      ↔ FieldRows es rows := by
  rw [FieldRows, ← Checked.gives_mapM]
  exact Checked.Alike.mapM_zipIdx (fun e i => alike_fieldRow e (loc.child "field" i none) .device)
    es rows

/-- All rows of fields can be read if each of them can. -/
theorem exists_fieldRows_iff :
    (∃ rows, FieldRows es rows) ↔ ∀ e ∈ es, ∃ row, (fieldRow e .device).Gives row := by
  simp only [FieldRows, ← Checked.gives_mapM]
  exact Checked.exists_gives_mapM

/-- They are read to one list of rows. -/
theorem FieldRows.unique {rows' : List (List Field)} (h : FieldRows es rows)
    (h' : FieldRows es rows') : rows = rows' :=
  (Checked.gives_mapM.2 h).unique (Checked.gives_mapM.2 h')

/-- Every field has the description of its own element. -/
theorem FieldRows.description (h : FieldRows es rows) :
    List.Forall₂ (fun e row => ∀ f ∈ row, f.description = description e) es rows := by
  refine List.Forall₂.imp (fun e row hrow f hf => ?_) h
  obtain ⟨name, span, expansion, _, _, _, _, rfl⟩ := gives_fieldRow.1 hrow
  obtain ⟨x, _, rfl⟩ := List.mem_map.1 hf
  rfl

/-- The fields of a register are the first ones of their names in all rows, if fields of one name
    agree on their bits. -/
theorem gives_fields_iff {e : Element} {fs : List Field} :
    (fields e loc).Gives fs
      ↔ ∃ rows, FieldRows (e.nested "fields" "field") rows
          ∧ Agree Field.name Field.span rows.flatten ∧ fs = firsts Field.name rows.flatten := by
  simp only [gives_fields, gives_mapM_fieldRow]

/-- A field is refused by one of its name that takes other bits. -/
theorem fails_addField {table : List Field} {g : Field} :
    (addField loc table g).Fails f
      ↔ ∃ first, FirstWins.offer Field.name Field.span table g = .clash first
          ∧ f = .fieldConflict (loc.named g.name) g.name first.span g.span := by
  unfold addField
  cases FirstWins.offer Field.name Field.span table g with
  | added table' => simp
  | repeated => simp
  | clash first => simp [eq_comm]

/-- The fields of a register fail with the fault of the first declaration that fails or clashes. -/
theorem fails_fields_iff {e : Element} :
    (fields e loc).Fails f ↔ FieldFault loc (e.nested "fields" "field") f := by
  have hloop := FirstWins.fails_foldlM_rows (fun table => table)
    (fun x : Element × Nat => addField (loc.child "field" x.2 none))
    (fun _ _ _ _ => gives_addField)
    (fun x first g => .fieldConflict ((loc.child "field" x.2 none).named g.name) g.name first.span
      g.span)
    (fun _ _ _ _ => fails_addField) (fun x => fieldRow x.1 (loc.child "field" x.2 none))
    FirstWins.agree_nil (e.nested "fields" "field").zipIdx f
  -- the loop runs over elements with their indices, and the fault speaks of elements
  refine hloop.trans (Checked.exists_split_zipIdx.trans ?_)
  simp only [gives_mapM_fieldRow, List.nil_append]
  constructor
  · intro h
    obtain ⟨before, c, after, hsplit, rows, hrows, hagree, hfails | hclash⟩ := h
    · exact .unread hsplit hrows hagree hfails
    · obtain ⟨row, first, second, hrow, hclash, rfl⟩ := hclash
      exact .conflict hsplit hrows ((alike_fieldRow c _ _ row).1 hrow) hclash
  · intro h
    cases h with
    | unread hsplit hrows hagree hfails =>
      exact ⟨_, _, _, hsplit, _, hrows, hagree, .inl hfails⟩
    | @conflict before after c rows row first second hsplit hrows hrow hclash =>
      refine ⟨_, _, _, hsplit, _, hrows, ?_, .inr ⟨row, first, second, ?_, hclash, rfl⟩⟩
      · -- all fields in front of the clash agree, those of this element among them
        obtain ⟨front, _, _, hagree, _⟩ := hclash
        exact hagree.sublist (List.sublist_append_left _ _)
      · exact (alike_fieldRow c _ _ row).1 hrow

/-- The fields of a register can be read if and only if each of its elements can and those of one
    name have the same bits. Then the first field of every name is kept, as it is. Otherwise the
    first thing that is wrong is reported: an element that cannot be read, or the first field that
    has other bits than an earlier one of its name, with the bits of the earlier one in front. -/
theorem fields_merged (e : Element) (loc : Location) :
    ((∃ fs, (fields e loc).Gives fs)
        ↔ (∀ c ∈ e.nested "fields" "field", ∃ row, (fieldRow c .device).Gives row)
          ∧ ∀ rows, FieldRows (e.nested "fields" "field") rows →
            Agree Field.name Field.span rows.flatten)
      ∧ (∀ fs, (fields e loc).Gives fs
        ↔ ∃ rows, FieldRows (e.nested "fields" "field") rows
          ∧ List.Forall₂ (fun c row => ∀ f ∈ row, f.description = description c)
            (e.nested "fields" "field") rows
          ∧ Agree Field.name Field.span rows.flatten ∧ fs = firsts Field.name rows.flatten)
      ∧ ∀ f, (fields e loc).Fails f ↔ FieldFault loc (e.nested "fields" "field") f := by
  refine ⟨?_, fun fs => ?_, fun f => fails_fields_iff⟩
  · simp only [gives_fields_iff, ← exists_fieldRows_iff]
    constructor
    · intro h
      obtain ⟨_, rows, hrows, hagree, _⟩ := h
      -- there are no other rows that could disagree
      exact ⟨⟨rows, hrows⟩, fun rows' hrows' => hrows.unique hrows' ▸ hagree⟩
    · intro h
      obtain ⟨⟨rows, hrows⟩, hagree⟩ := h
      exact ⟨_, rows, hrows, hagree rows hrows, rfl⟩
  · rw [gives_fields_iff]
    -- the descriptions follow from the rows
    refine exists_congr fun rows => and_congr_right fun hrows => ?_
    exact (and_iff_right hrows.description).symm

/-- A register that says nothing but its fields. -/
def registerWith (fields : List Element) : Element :=
  ⟨"register", [], [.element "fields" [] (fields.map Element.node)]⟩

/-- Two fields of two bits each, with two bits between them. -/
def enableRow : Element :=
  fieldWith [("name", "EN%s"), ("dim", "2"), ("dimIncrement", "4"), ("bitOffset", "0"),
    ("bitWidth", "2"), ("description", "Enable")]

/-- The second field of the row once more, in another form. -/
def enableAgain : Element :=
  fieldWith [("name", "EN1"), ("bitRange", "[5:4]"), ("description", "Again")]

/-- A row that begins where the second field of the other one is. -/
def enableShifted : Element :=
  fieldWith [("name", "EN%s"), ("dim", "2"), ("dimIncrement", "4"), ("bitOffset", "4"),
    ("bitWidth", "2")]

/-- A row that is declared again, and then once more with other bits. -/
theorem fields_merged_enableRow :
    (∃ rows, FieldRows [enableRow, enableAgain] rows ∧ Agree Field.name Field.span rows.flatten
        ∧ [⟨"EN0", 0, 2, some "Enable"⟩, ⟨"EN1", 4, 2, some "Enable"⟩]
          = firsts Field.name rows.flatten)
      ∧ FieldFault .device [enableRow, enableAgain, enableShifted]
        (.fieldConflict ⟨[⟨"field", 2, some "EN0"⟩]⟩ "EN0" ⟨0, 2⟩ ⟨4, 2⟩) := by
  constructor
  · -- the second row puts a field where it is, so the first declaration stays
    obtain ⟨_, hgives, _⟩ := fields_merged (registerWith [enableRow, enableAgain]) .device
    obtain ⟨rows, hrows, _, hagree, hfirsts⟩ :=
      (hgives [⟨"EN0", 0, 2, some "Enable"⟩, ⟨"EN1", 4, 2, some "Enable"⟩]).1 (by decide +kernel)
    exact ⟨rows, hrows, hagree, hfirsts⟩
  · -- the third row puts the field elsewhere
    obtain ⟨_, _, hfails⟩ :=
      fields_merged (registerWith [enableRow, enableAgain, enableShifted]) .device
    exact (hfails _).1 (by decide +kernel)

end RegisterMap.Declared
