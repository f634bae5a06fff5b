import RegisterMap.Proofs.Dimension
import RegisterMap.Proofs.Meaning

/-!
# Locations and values

A reading is given the location of what it reads, and puts it into its faults
and notices. What it gives does not depend on it: the same declaration at
another place is read to the same values, or not at all. There is one lemma for
every kind of reading, in the order in which they are built on each other.

- `Declared.alike_part`: what a peripheral says is the same at every index
-/

namespace RegisterMap

open Xml (Element)
open Checked (Alike)

namespace Declared

/-- A required text is the same anywhere. -/
theorem alike_text (e : Element) (tag : String) (loc loc' : Location) :
    (text e tag loc).Alike (text e tag loc') :=
  Checked.alike_require _ _ _

/-- So is a number that is read from a text. -/
theorem alike_toNumber (content tag : String) (loc loc' : Location) :
    (toNumber content tag loc).Alike (toNumber content tag loc') :=
  Checked.alike_require _ _ _

/-- So is a required number. -/
theorem alike_number (e : Element) (tag : String) (loc loc' : Location) :
    (number e tag loc).Alike (number e tag loc') :=
  (alike_text e tag loc loc').bind fun content => alike_toNumber content tag loc loc'

/-- So is a number that may be absent. -/
theorem alike_number? (e : Element) (tag : String) (loc loc' : Location) :
    (number? e tag loc).Alike (number? e tag loc') := by
  unfold number?
  cases e.childText? tag with
  | none => exact .refl _
  | some content => exact (alike_toNumber content tag loc loc').map some

/-- So is an address, whose location is in a notice only. -/
theorem alike_address (e : Element) (tag : String) (loc loc' : Location) :
    (address e tag loc).Alike (address e tag loc') := by
  refine (alike_text e tag loc loc').bind fun content => ?_
  refine (alike_toNumber content tag loc loc').bind fun value => ?_
  exact Alike.noteIf (.refl _)

/-- A name is a word anywhere, or nowhere. -/
theorem alike_checkName (name : String) (loc loc' : Location) :
    (checkName name loc).Alike (checkName name loc') := by
  intro u
  unfold checkName
  split
  · rfl
  · exact Checked.alike_fail _ _ u

/-- The layout of a peripheral has a location for its group name only. -/
theorem alike_layout (e : Element) (name : String) (loc loc' : Location) :
    (layout e name loc).Alike (layout e name loc') := by
  unfold layout
  split
  · exact .refl _
  · exact (alike_checkName _ loc loc').bind fun _ => .refl _
  · exact .refl _

/-- A peripheral is declared alike anywhere. -/
theorem alike_peripheral (e : Element) (loc loc' : Location) :
    (peripheral e loc).Alike (peripheral e loc') := by
  refine (alike_text e "name" loc loc').bind fun name => ?_
  refine (alike_checkName name _ _).bind fun _ => ?_
  refine (alike_address e "baseAddress" _ _).bind fun base => ?_
  exact (alike_layout e name _ _).bind fun l => .refl _

/-- So is an interrupt. -/
theorem alike_interrupt (e : Element) (loc loc' : Location) :
    (interrupt e loc).Alike (interrupt e loc') := by
  refine (Checked.alike_require _ _ _).bind fun name => ?_
  refine (alike_checkName name _ _).bind fun _ => ?_
  refine (Checked.alike_require _ _ _).bind fun value => ?_
  exact (Checked.alike_require _ _ _).bind fun number => .refl _

end Declared

/-- The indices that a text lists are the same anywhere. -/
theorem Dimension.alike_toIndex (content : String) (count : Nat) (loc loc' : Location) :
    (toIndex content count loc).Alike (toIndex content count loc') := by
  unfold toIndex
  split
  · exact Checked.alike_fail _ _
  · split
    · exact .refl _
    · exact Checked.alike_fail _ _

/-- So is a dimension. -/
theorem Dimension.alike_read? (e : Element) (loc loc' : Location) :
    (read? e loc).Alike (read? e loc') := by
  have hindex : ∀ count increment : Nat, ∀ content : String,
      ((some <$> toIndex content count loc) >>= fun index =>
        pure (some (⟨count, increment, index⟩ : Dimension))).Alike
      ((some <$> toIndex content count loc') >>= fun index =>
        pure (some (⟨count, increment, index⟩ : Dimension))) := by
    intro count increment content
    exact ((alike_toIndex content count loc loc').map some).bind fun index => .refl _
  unfold read?
  cases e.childText? "dim" with
  | none => exact .refl _
  | some content =>
    refine (Checked.alike_require _ _ _).bind fun count => ?_
    -- the increment and the index may be absent, each on its own
    cases e.childText? "dimIncrement" with
    | none =>
      cases e.childText? "dimIndex" with
      | none => exact .refl _
      | some index => exact Alike.bind (.refl _) fun increment => hindex count increment index
    | some increment =>
      refine (Checked.alike_require _ _ _).bind fun increment => ?_
      cases e.childText? "dimIndex" with
      | none => exact .refl _
      | some index => exact hindex count increment index

/-- So is what a declaration stands for. -/
theorem Expansion.alike_read (e : Element) (name : String) (base : Nat) (loc loc' : Location) :
    (Expansion.read e name base loc).Alike (Expansion.read e name base loc') := by
  refine (Dimension.alike_read? e loc loc').bind fun d? => ?_
  cases d? with
  | none => exact .refl _
  | some d =>
    have h : (Checked.ofExcept (d.instances name base loc)).Alike
        (Checked.ofExcept (d.instances name base loc')) := by
      intro xs
      -- the location of a row is in its fault only
      rw [Checked.gives_ofExcept, Checked.gives_ofExcept, Dimension.instances_eq_ok_iff,
        Dimension.instances_eq_ok_iff]
    exact h.bind fun elements => .refl _

namespace Declared

/-- The bits between two bits are the same anywhere. -/
theorem alike_toSpan (low high : Nat) (tag content : String) (loc loc' : Location) :
    (toSpan low high tag content loc).Alike (toSpan low high tag content loc') := by
  unfold toSpan
  split
  · exact Checked.alike_fail _ _
  · exact .refl _

/-- So are the bits of a field, in each of its forms. -/
theorem alike_bitSpan (e : Element) (loc loc' : Location) :
    (bitSpan e loc).Alike (bitSpan e loc') := by
  refine (alike_number? e "bitOffset" loc loc').bind fun offset => ?_
  -- the form is found by the tags alone
  cases offset with
  | some offset => exact (alike_number e "bitWidth" loc loc').bind fun width => .refl _
  | none =>
    refine (alike_number? e "lsb" loc loc').bind fun low => ?_
    cases low with
    | some low =>
      refine (alike_number e "msb" loc loc').bind fun high => ?_
      exact alike_toSpan _ _ _ _ loc loc'
    | none =>
      cases e.childText? "bitRange" with
      | some content =>
        refine (Checked.alike_require _ _ _).bind fun bits => ?_
        exact alike_toSpan _ _ _ _ loc loc'
      | none => exact Checked.alike_fail _ _

/-- So are the fields of a row. -/
theorem alike_fieldRow (e : Element) (loc loc' : Location) :
    (fieldRow e loc).Alike (fieldRow e loc') := by
  refine (alike_text e "name" loc loc').bind fun name => ?_
  refine (alike_bitSpan e _ _).bind fun span => ?_
  refine (Expansion.alike_read e name span.offset _ _).bind fun expansion => ?_
  refine Alike.mapM (fun i => ?_) _
  exact (alike_checkName i.name _ _).bind fun _ => .refl _

/-- A field is taken anywhere, or nowhere. -/
theorem alike_addField (loc loc' : Location) (fields : List Field) (f : Field) :
    (addField loc fields f).Alike (addField loc' fields f) := by
  unfold addField
  cases FirstWins.offer Field.name Field.span fields f with
  | added fields' => exact .refl _
  | repeated => exact (Checked.alike_note _ _).bind fun _ => .refl _
  | clash first => exact Checked.alike_fail _ _

/-- The fields of a register are the same anywhere. -/
theorem alike_fields (e : Element) (loc loc' : Location) :
    (fields e loc).Alike (fields e loc') := by
  refine Alike.foldlM (fun fs x => ?_) _ _
  -- each declaration has a location of its own
  refine (alike_fieldRow x.1 _ _).bind fun row => ?_
  exact Alike.foldlM (alike_addField _ _) row fs

/-- An access is too, even one that cannot be read. -/
theorem alike_access (e : Element) (loc loc' : Location) :
    (access e loc).Alike (access e loc') := by
  unfold access
  split
  · exact .refl _
  · split
    · exact .refl _
    · exact (Checked.alike_note _ _).bind fun _ => .refl _

/-- So are the registers of a row. -/
theorem alike_registerRow (e : Element) (loc loc' : Location) :
    (registerRow e loc).Alike (registerRow e loc') := by
  refine (alike_text e "name" loc loc').bind fun name => ?_
  refine (alike_address e "addressOffset" _ _).bind fun offset => ?_
  refine (alike_access e _ _).bind fun access => ?_
  refine (Expansion.alike_read e name offset _ _).bind fun expansion => ?_
  -- the location of a notice does not matter
  refine Alike.noteIf ?_
  have hnames := Alike.forM (fun i : Instance =>
    alike_checkName i.name (loc.named name) (loc'.named name)) (expansion.instances name offset)
  refine hnames.bind fun _ => ?_
  exact (alike_fields e (loc.named name) (loc'.named name)).bind fun fs => .refl _

/-- So are the interrupts of a peripheral. -/
theorem alike_interrupts (e : Element) (loc loc' : Location) :
    (interrupts e loc).Alike (interrupts e loc') :=
  Alike.mapM (fun x : Element × Nat =>
    alike_interrupt x.1 (loc.child "interrupt" x.2 none) (loc'.child "interrupt" x.2 none)) _

/-- So are its registers. -/
theorem alike_ownRegisters (e : Element) (d : Declaration) (loc loc' : Location) :
    (ownRegisters e d loc).Alike (ownRegisters e d loc') := by
  unfold ownRegisters
  -- a derived layout reads no registers
  cases d.layout with
  | owned group =>
    have hrows : (registerRows (e.nested "registers" "register") loc).Alike
        (registerRows (e.nested "registers" "register") loc') :=
      Alike.mapM (fun x : Element × Nat =>
        alike_registerRow x.1 (loc.child "register" x.2 none) (loc'.child "register" x.2 none)) _
    exact hrows.map List.flatten
  | derived parent => exact .refl _

/-- What a peripheral says on its own does not depend on its place among the others. -/
theorem alike_part (e : Element) (i j : Nat) : (part e i).Alike (part e j) := by
  refine (alike_peripheral e _ _).bind fun d => ?_
  refine (alike_interrupts e _ _).bind fun is => ?_
  exact (alike_ownRegisters e d _ _).bind fun rs => .refl _

end Declared
end RegisterMap
