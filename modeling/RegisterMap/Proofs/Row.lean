import RegisterMap.Proofs.Expansion

/-!
# Rows

A dimension puts the elements of its row at equal distances, one for each of
its labels, and refuses the row exactly if no word holds the offset of the last
one. Every label that is asked for is there, since the labels have been counted
when the dimension was read.

- `Dimension.instances_eq`: the elements of a row, label by label
- `Dimension.places_row`: what the dimension of a declaration makes of a name
  and an offset, and of a register
-/

namespace RegisterMap

open Xml (Element)

namespace Dimension

variable {d : Dimension} {template : String} {base : Nat} {loc : Location}

/-! ## Labels -/

/-- The labels of a row: those that the declaration lists, or the numerals from zero on. -/
def labels (d : Dimension) : List String :=
  match d.index with
  | none => (List.range d.count).map toString
  | some listed => listed

/-- A row has as many labels as it counts. -/
theorem WellFormed.length_labels (h : d.WellFormed) : d.labels.length = d.count := by
  unfold labels
  cases hindex : d.index with
  | none => simp
  | some listed => exact h.length listed hindex

/-- The label of a place is in the list. -/
theorem WellFormed.getElem?_labels (h : d.WellFormed) {i : Nat} (hi : i < d.count) :
    d.labels[i]? = some (d.label i) := by
  unfold labels label
  cases hindex : d.index with
  | none => simp [hi]
  | some listed =>
    have hlt : i < listed.length := h.length listed hindex ▸ hi
    simp [hlt]

/-! ## Elements -/

/-- The elements that a declared name and offset stand for, one for every label. -/
def row (d : Dimension) (template : String) (base : Nat) : List Instance :=
  d.labels.mapIdx fun i label => ⟨elementName template label, base + i * d.increment⟩

/-- Going through the places is the same as going through the labels. -/
theorem WellFormed.map_element (h : d.WellFormed) (template : String) (base : Nat) :
    (List.range d.count).map (d.element template base) = d.row template base := by
  apply List.ext_getElem?
  intro i
  rw [row, List.getElem?_map, List.getElem?_mapIdx]
  -- at each position, there are as many labels as elements
  by_cases hi : i < d.count
  · rw [List.getElem?_range hi, h.getElem?_labels hi]
    rfl
  · rw [List.getElem?_eq_none (by simpa using hi),
      List.getElem?_eq_none (by simpa [h.length_labels] using hi)]
    rfl

/-- A row has its elements, unless no word holds the offset of the last one. -/
theorem WellFormed.instances_eq (h : d.WellFormed) {xs : List Instance} :
    d.instances template base loc = .ok xs
      ↔ ¬ (0 < d.count ∧ Word.limit ≤ base + (d.count - 1) * d.increment)
        ∧ xs = d.row template base := by
  rw [instances_eq_ok_iff, fits_iff_last, h.map_element]

/-- A row is refused exactly if its last offset is beyond the words. -/
theorem exists_instances_error :
    (∃ f, d.instances template base loc = .error f)
      ↔ 0 < d.count ∧ Word.limit ≤ base + (d.count - 1) * d.increment := by
  have hlast := d.fits_iff_last base
  constructor
  · intro h
    obtain ⟨f, hf⟩ := h
    obtain ⟨k, hk, hle, _⟩ := instances_eq_error_iff.1 hf
    -- if the last offset fits, all of them do
    by_contra hnot
    exact absurd (hlast.2 hnot k hk) (by omega)
  · intro h
    obtain hfits | ⟨k, hk, hle, hfirst⟩ := d.fits_or_exists_first base
    · exact absurd h (hlast.1 hfits)
    · exact ⟨_, instances_eq_error_iff.2 ⟨k, hk, hle, hfirst, rfl⟩⟩

end Dimension

/-- A declaration with a dimension stands for a row. -/
theorem Expansion.gives_row {e : Element} {loc : Location} {d : Dimension}
    (h : (Dimension.read? e loc).Gives (some d)) {name : String} {base : Nat} {x : Expansion} :
    (Expansion.read e name base loc).Gives x
      ↔ ∃ xs, d.instances name base loc = .ok xs ∧ x = .row xs := by
  simp only [Expansion.read, Checked.gives_bind]
  constructor
  · intro hread
    obtain ⟨d?, hd?, hread⟩ := hread
    -- there is one dimension only that can be read
    obtain rfl := h.unique hd?
    simp only [Checked.gives_bind, Checked.gives_ofExcept, Checked.gives_pure] at hread
    obtain ⟨xs, hxs, rfl⟩ := hread
    exact ⟨xs, hxs, rfl⟩
  · intro hrow
    obtain ⟨xs, hxs, rfl⟩ := hrow
    exact ⟨some d, h, by simpa using hxs⟩

/-! ## Registers -/

/-- The registers of a row differ in name and offset only. -/
theorem Declared.exists_row_of_registerRow {e : Element} {loc : Location} {d : Dimension}
    (h : (Dimension.read? e loc).Gives (some d)) {loc' : Location} {rs : List Register}
    (hrs : (registerRow e loc').Gives rs) :
    ∃ template base access text fs, e.childText? "name" = some template
      ∧ (e.childText? "addressOffset").bind Numeral.scalar? = some base
      ∧ rs = (d.row template base).map fun x => ⟨x.name, x.offset, access, text, fs⟩ := by
  obtain ⟨template, base, expansion, fs, hname, hoffset, hread, _, _, rfl⟩ :=
    gives_registerRow.1 hrs
  have hdevice := (Dimension.alike_read? e loc .device _).1 h
  obtain ⟨xs, hxs, rfl⟩ := (Expansion.gives_row hdevice).1 hread
  obtain ⟨_, rfl⟩ := (Dimension.wellFormed_of_gives hdevice).instances_eq.1 hxs
  exact ⟨template, base, accessOf e, description e, fs, hname, hoffset, rfl⟩

/-- What the dimension of a declaration makes of any name and offset. Its labels are as many as it
    counts, so that every one that is asked for is there. There is an element for each of them, at
    equal distances, unless no word holds the offset of the last one; then, and only then, the row
    is refused. So a declared register stands for one register at each of the places, and all of
    them have the same access, description and fields. -/
theorem Dimension.places_row {e : Element} {loc : Location} {d : Dimension}
    (h : (read? e loc).Gives (some d)) :
    (e.childText? "dim").bind Numeral.scalar? = some d.count
      ∧ (match e.childText? "dimIncrement" with
        | none => d.increment = 1
        | some content => Numeral.scalar? content = some d.increment)
      ∧ (match e.childText? "dimIndex" with
        | none => d.labels = (List.range d.count).map toString
        | some content => indices content.toList = .ok d.labels)
      ∧ d.labels.length = d.count ∧ (∀ i < d.count, d.labels[i]? = some (d.label i))
      ∧ (∀ template base loc',
        ((∃ f, d.instances template base loc' = .error f)
            ↔ 0 < d.count ∧ Word.limit ≤ base + (d.count - 1) * d.increment)
          ∧ ∀ xs, d.instances template base loc' = .ok xs
            ↔ ¬ (0 < d.count ∧ Word.limit ≤ base + (d.count - 1) * d.increment)
              ∧ xs = d.labels.mapIdx fun i label =>
                ⟨elementName template label, base + i * d.increment⟩)
      ∧ ∀ loc' rs, (Declared.registerRow e loc').Gives rs →
        ∃ template base access text fs, e.childText? "name" = some template
          ∧ (e.childText? "addressOffset").bind Numeral.scalar? = some base
          ∧ rs.length = d.count
          ∧ rs = d.labels.mapIdx fun i label =>
            ⟨elementName template label, base + i * d.increment, access, text, fs⟩ := by
  have hwf : d.WellFormed := wellFormed_of_gives h
  obtain ⟨hcount, hincrement, hindex⟩ := gives_read?.1 h
  refine ⟨hcount, hincrement, ?_, hwf.length_labels, fun i => hwf.getElem?_labels, ?_, ?_⟩
  · -- the labels are the indices, or the places themselves
    unfold labels
    cases hcontent : e.childText? "dimIndex" with
    | none =>
      simp only [hcontent] at hindex
      simp [hindex]
    | some content =>
      simp only [hcontent] at hindex
      obtain ⟨listed, hd, hlisted, _⟩ := hindex
      simpa [hd] using hlisted
  · exact fun template base loc' => ⟨exists_instances_error, fun xs => hwf.instances_eq⟩
  · intro loc' rs hrs
    -- all registers of a row share what is not their name or offset
    obtain ⟨template, base, access, text, fs, hname, hoffset, rfl⟩ :=
      Declared.exists_row_of_registerRow h hrs
    refine ⟨template, base, access, text, fs, hname, hoffset, ?_, ?_⟩
    · rw [List.length_map, row, List.length_mapIdx, hwf.length_labels]
    · rw [row, List.mapIdx_eq_zipIdx_map, List.mapIdx_eq_zipIdx_map, List.map_map]
      rfl

/-- Two channels, and the same row too far behind. -/
theorem Dimension.places_row_channels :
    (read? Device.channelRow .device).Gives (some ⟨2, 0x14, some ["A", "B"]⟩)
      ∧ instances ⟨2, 0x14, some ["A", "B"]⟩ "CCR%s" 8 .device
        = .ok [⟨"CCRA", 8⟩, ⟨"CCRB", 0x1C⟩]
      ∧ (∃ f, instances ⟨2, 0x14, some ["A", "B"]⟩ "CCR%s" (Word.limit - 0x14) .device = .error f)
      ∧ ∃ rs, (Declared.registerRow Device.channelRow .device).Gives rs ∧ rs.length = 2 := by
  have h : (read? Device.channelRow .device).Gives (some ⟨2, 0x14, some ["A", "B"]⟩) := by
    decide +kernel
  obtain ⟨_, _, _, _, _, hrow, hregisters⟩ := places_row h
  -- the registers of the row, at the base of the declaration
  have hgives : (Declared.registerRow Device.channelRow .device).Gives
      [⟨"CCRA", 8, none, none, [⟨"EN", 0, 4, none⟩]⟩,
        ⟨"CCRB", 0x1C, none, none, [⟨"EN", 0, 4, none⟩]⟩] := by
    decide +kernel
  obtain ⟨_, _, _, _, _, _, _, hlength, _⟩ := hregisters _ _ hgives
  refine ⟨h, ?_, (hrow _ _ _).1.2 (by decide), _, hgives, hlength⟩
  exact ((hrow _ _ _).2 _).2 ⟨by decide, by decide +kernel⟩

end RegisterMap
