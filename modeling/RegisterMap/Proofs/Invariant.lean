import RegisterMap.Proofs.Alias
import RegisterMap.Proofs.Meaning
import RegisterMap.Proofs.Vectors
import RegisterMap.Proofs.WellFormed

/-!
# The invariant of devices

What holds of every device that a description compiles to. No single step of the
compilation sees to all of it: names are checked declaration by declaration,
tables keep their entries apart, walks along parents end at a group that some
peripheral fills, and the vector table closes its gaps.

- `Device.WellFormed`: the invariant
- `Device.wellFormed_of_gives`: a compiled device has it
- `Device.invariant_of_gives`: and its vectors are those that its description declares
-/

namespace RegisterMap

open Xml (Element)
open FirstWins

/-! ## The invariant -/

structure Group.WellFormed (g : Group) : Prop where
  name : Name.isWord g.name = true
  registers : ∀ r ∈ g.registers, r.WellFormed
  nodup : (g.registers.map Register.name).Nodup
  /-- A look-up gives the register that is listed under the name. -/
  register?_iff : ∀ name r, g.register? name = some r ↔ r ∈ g.registers ∧ r.name = name

structure Peripheral.WellFormed (p : Peripheral) : Prop where
  name : Name.isWord p.name = true
  description : OneLine p.description

structure Device.WellFormed (d : Device) : Prop where
  peripherals : ∀ p ∈ d.peripherals, p.WellFormed
  groups : ∀ g ∈ d.groups, g.WellFormed
  groups_nodup : (d.groups.map Group.name).Nodup
  /-- Every peripheral has a group. -/
  group : ∀ p ∈ d.peripherals, ∃ g, d.group? p.group = some g
  /-- Every derived peripheral is derived from a peripheral of the device. -/
  parent : ∀ p ∈ d.peripherals, ∀ parent, p.parent = some parent →
    ∃ q ∈ d.peripherals, q.name = parent
  interrupts : ∀ i ∈ d.interrupts, i.WellFormed
  interrupts_nodup : ((d.interrupts.filter (·.valid)).map Interrupt.name).Nodup
  sorted : d.interrupts.Pairwise Interrupt.NotAbove
  /-- There is a vector of every number up to the highest. -/
  contiguous : ∀ n, (∃ i ∈ d.interrupts, i.number = n) ↔ ∃ i ∈ d.interrupts, n ≤ i.number
  /-- An entry that is not valid is a placeholder. -/
  placeholder : ∀ i ∈ d.interrupts, i.valid = false → i = Interrupt.placeholder i.number

/-! ## Parts -/

structure Part.WellFormed (p : Part) : Prop where
  declaration : p.declaration.WellFormed
  interrupts : ∀ i ∈ p.interrupts, i.WellFormed ∧ i.valid = true
  registers : ∀ r ∈ p.registers, r.WellFormed

/-- The registers of a peripheral are well-formed, each in its row. -/
theorem Declared.wellFormed_of_ownRegisters {e : Element} {d : Declaration} {loc : Location}
    {rs : List Register} (h : (ownRegisters e d loc).Gives rs) : ∀ r ∈ rs, r.WellFormed := by
  unfold ownRegisters at h
  split at h
  · obtain ⟨rows, hrows, hflat⟩ := Checked.gives_map.1 h
    intro r hr
    obtain ⟨row, hrow, hrrow⟩ := List.mem_flatten.1 (hflat ▸ hr)
    -- each register belongs to the row of some declaration
    obtain ⟨x, _, hx⟩ := Checked.exists_of_mem_mapM hrows hrow
    exact wellFormed_of_registerRow hx r hrrow
  · rw [← Checked.gives_pure.1 h]
    exact fun r hr => absurd hr List.not_mem_nil

/-- All that a peripheral says is well-formed. -/
theorem Declared.wellFormed_of_part {e : Element} {i : Nat} {p : Part}
    (h : (part e i).Gives p) : p.WellFormed := by
  simp only [part, Checked.gives_bind, Checked.gives_pure] at h
  obtain ⟨d, hd, is, his, own, hown, hp⟩ := h
  subst hp
  refine ⟨wellFormed_of_peripheral hd, ?_, wellFormed_of_ownRegisters hown⟩
  -- each interrupt is read from a child of the peripheral
  intro i hi
  obtain ⟨x, _, hx⟩ := Checked.exists_of_mem_mapM his hi
  exact wellFormed_of_interrupt hx

/-- All that any peripheral says is. -/
theorem Declared.wellFormed_of_parts {e : Element} {ps : List Part} (h : (parts e).Gives ps) :
    ∀ p ∈ ps, p.WellFormed := by
  intro p hp
  obtain ⟨x, _, hx⟩ := Checked.exists_of_mem_mapM h hp
  exact wellFormed_of_part hx

namespace Part

variable {ps : List Part}

/-- The interrupts of all peripherals are well-formed, and valid. -/
theorem wellFormed_of_mem_allInterrupts (h : ∀ p ∈ ps, p.WellFormed) {i : Interrupt}
    (hi : i ∈ allInterrupts ps) : i.WellFormed ∧ i.valid = true := by
  obtain ⟨p, hp, hip⟩ := List.mem_flatMap.1 hi
  exact (h p hp).interrupts i hip

/-- The groups are well-formed: their registers come from the peripherals, and have different
    names. -/
theorem wellFormed_of_mem_groups (h : ∀ p ∈ ps, p.WellFormed) {g : Group} (hg : g ∈ groups ps) :
    g.WellFormed := by
  obtain ⟨group, hgroup, hgg⟩ := List.mem_map.1 hg
  subst hgg
  have hnodup : ((firsts Register.name (groupRegisters ps group)).map Register.name).Nodup :=
    nodup_firsts _
  refine ⟨?_, ?_, hnodup, ?_⟩
  · obtain ⟨p, hp, hpgroup⟩ := mem_groupNames.1 hgroup
    exact (h p hp).declaration.group group hpgroup
  · intro r hr
    obtain ⟨p, hp, hrp⟩ := List.mem_flatMap.1 (mem_of_mem_firsts hr)
    -- only parts that fill the group have registers in it
    unfold registersIn at hrp
    split at hrp
    · exact (h p hp).registers r hrp
    · exact absurd hrp List.not_mem_nil
  · intro name r
    constructor
    · intro hr
      exact ⟨mem_of_find? hr, name_of_find? hr⟩
    · intro h
      obtain ⟨hr, hname⟩ := h
      exact hname ▸ find?_of_nodup hnodup hr

/-- The groups have the names that the peripherals ask for. -/
theorem map_name_groups (ps : List Part) : (groups ps).map Group.name = groupNames ps := by
  rw [groups, List.map_map]
  exact List.map_id _

/-- A group that some peripheral fills is found. -/
theorem exists_group {p : Part} (hp : p ∈ ps) {group : String} (hgroup : p.group? = some group) :
    ∃ g, find? Group.name (groups ps) group = some g := by
  have hmem : group ∈ (groups ps).map Group.name := by
    rw [map_name_groups]
    exact mem_groupNames.2 ⟨p, hp, hgroup⟩
  cases hf : find? Group.name (groups ps) group with
  | none => exact absurd hmem (find?_eq_none_iff.1 hf)
  | some g => exact ⟨g, rfl⟩

end Part

/-! ## Linked peripherals -/

section Link

variable {ps : List Part} {peripherals : List Peripheral}
  (hlink : (Alias.linkAll (ps.map Part.declaration)).Gives peripherals)
include hlink

/-- Linking keeps peripherals well-formed. -/
theorem Alias.wellFormed_of_linkAll (h : ∀ p ∈ ps, p.WellFormed) :
    ∀ p ∈ peripherals, p.WellFormed := by
  intro p hp
  obtain ⟨d, hd, hdp⟩ := exists_declaration hlink hp
  obtain ⟨part, hpart, hpd⟩ := List.mem_map.1 hd
  obtain ⟨_, hname, _, _, hdescription⟩ := gives_link.1 hdp
  have hwf : d.WellFormed := hpd ▸ (h part hpart).declaration
  exact ⟨hname ▸ hwf.name, hdescription ▸ hwf.description⟩

/-- The walk of a peripheral ends at a group that some peripheral fills. -/
theorem Alias.exists_group_of_linkAll {p : Peripheral} (hp : p ∈ peripherals) :
    ∃ g, find? Group.name (Part.groups ps) p.group = some g := by
  obtain ⟨d, hd, hdp⟩ := exists_declaration hlink hp
  obtain ⟨owner, howner, hlayout⟩ := owner_of_resolve hd (gives_link.1 hdp).1
  obtain ⟨part, hpart, hpo⟩ := List.mem_map.1 howner
  apply Part.exists_group hpart
  rw [Part.group?, hpo, Declaration.group?, hlayout]

/-- The parent of a peripheral is one of the peripherals. -/
theorem Alias.exists_parent_of_linkAll {p : Peripheral} (hp : p ∈ peripherals) {parent : String}
    (hparent : p.parent = some parent) : ∃ q ∈ peripherals, q.name = parent := by
  obtain ⟨d, hd, hdp⟩ := exists_declaration hlink hp
  -- a peripheral with a parent comes from a derived declaration
  have hlayout := layout_of_parent hdp hparent
  obtain ⟨o, hlast, _⟩ := exists_last?_of_resolve hlayout (gives_link.1 hdp).1
  -- linking keeps the names, so the parent is there as a peripheral too
  have hmem : parent ∈ peripherals.map Peripheral.name := by
    rw [map_name_of_linkAll hlink, ← name_of_last? hlast]
    exact List.mem_map_of_mem (last?_mem hlast)
  obtain ⟨q, hq, hqname⟩ := List.mem_map.1 hmem
  exact ⟨q, hq, hqname⟩

end Link

/-! ## The vector table -/

/-- The vectors of a device go up to the highest number that is declared. -/
theorem Part.exists_vector_iff {ps : List Part} (h : Coherent ps) {n : Nat} :
    (∃ i ∈ Interrupt.vectors (firsts Interrupt.name (allInterrupts ps)), i.number = n)
      ↔ ∃ j ∈ allInterrupts ps, n ≤ j.number := by
  rw [Interrupt.exists_vector_iff]
  exact h.interrupts.exists_firsts_iff (P := fun m => n ≤ m)

/-- A vector is a placeholder exactly if no peripheral declares an interrupt of its number. -/
theorem Part.vector_eq_placeholder_iff {ps : List Part} (hcoherent : Coherent ps)
    (hwf : ∀ p ∈ ps, p.WellFormed) {i : Interrupt}
    (hi : i ∈ Interrupt.vectors (firsts Interrupt.name (allInterrupts ps))) :
    i = Interrupt.placeholder i.number ↔ ∀ j ∈ allInterrupts ps, j.number ≠ i.number := by
  obtain hfirst | ⟨n, hn, hni⟩ := Interrupt.mem_vectors.1 hi
  · -- an interrupt that is declared is valid, as no placeholder is
    have hmem := mem_of_mem_firsts hfirst
    constructor
    · intro heq
      have hvalid := (wellFormed_of_mem_allInterrupts hwf hmem).2
      rw [heq] at hvalid
      cases hvalid
    · intro hnone
      exact absurd rfl (hnone i hmem)
  · -- the number of a filled gap is one that no first entry has, and so no entry at all
    subst hni
    refine ⟨fun _ => ?_, fun _ => rfl⟩
    intro j hj hjn
    have hunused := (Interrupt.mem_unusedVectors.1 hn).2
    obtain ⟨k, hk, hkn⟩ := (hcoherent.interrupts.exists_firsts_iff (P := (· = n))).2 ⟨j, hj, hjn⟩
    exact hunused k hk hkn

/-! ## Devices -/

/-- A device that is put together from parts is well formed. -/
theorem Device.wellFormed_of_parts {e : Element} {ps : List Part} {peripherals : List Peripheral}
    (hps : (Declared.parts e).Gives ps)
    (hlink : (Alias.linkAll (ps.map Part.declaration)).Gives peripherals) (name : Option String)
    (w : Width) :
    WellFormed ⟨name, w, peripherals, Part.groups ps,
      Interrupt.vectors (firsts Interrupt.name (Part.allInterrupts ps))⟩ := by
  have hwf := Declared.wellFormed_of_parts hps
  have hvalid : ∀ i ∈ firsts Interrupt.name (Part.allInterrupts ps), i.valid = true :=
    fun i hi => (Part.wellFormed_of_mem_allInterrupts hwf (mem_of_mem_firsts hi)).2
  exact {
    peripherals := Alias.wellFormed_of_linkAll hlink hwf
    groups := fun g => Part.wellFormed_of_mem_groups hwf
    groups_nodup := by
      rw [Part.map_name_groups]
      exact Part.nodup_groupNames ps
    group := fun p => Alias.exists_group_of_linkAll hlink
    parent := fun p hp parent => Alias.exists_parent_of_linkAll hlink hp
    interrupts := by
      intro i hi
      -- a vector is an interrupt that was declared, or a placeholder
      obtain hi | ⟨n, _, hn⟩ := Interrupt.mem_vectors.1 hi
      · exact (Part.wellFormed_of_mem_allInterrupts hwf (mem_of_mem_firsts hi)).1
      · exact hn ▸ Interrupt.wellFormed_placeholder n
    interrupts_nodup := ((Interrupt.filter_valid_vectors hvalid).map _).nodup_iff.2 (nodup_firsts _)
    sorted := Interrupt.vectors_sorted _
    contiguous := Interrupt.vectors_contiguous
    placeholder := by
      intro i hi hinvalid
      obtain hi | ⟨n, _, hn⟩ := Interrupt.mem_vectors.1 hi
      · rw [hvalid i hi] at hinvalid
        cases hinvalid
      · exact hn ▸ rfl }

/-- A compiled device is well formed. -/
theorem Device.wellFormed_of_gives {text : String} {d : Device} (h : (ofText text).Gives d) :
    d.WellFormed := by
  obtain ⟨e, _, h⟩ := gives_ofText.1 h
  obtain ⟨w, ps, peripherals, _, hps, _, hlink, hd⟩ := gives_ofElement.1 h
  exact hd ▸ wellFormed_of_parts hps hlink _ w

/-- A compiled device is well formed. Its vectors go up to the highest number that its
    description declares, and the numbers that are not declared have placeholders. -/
theorem Device.invariant_of_gives {text : String} {d : Device} (h : (ofText text).Gives d) :
    d.WellFormed
      ∧ ∃ e ps, Xml.Document.parse? text = some e ∧ (Declared.parts e).Gives ps
        ∧ (∀ n, (∃ i ∈ d.interrupts, i.number = n) ↔ ∃ j ∈ Part.allInterrupts ps, n ≤ j.number)
        ∧ ∀ i ∈ d.interrupts, i = Interrupt.placeholder i.number
            ↔ ∀ j ∈ Part.allInterrupts ps, j.number ≠ i.number := by
  obtain ⟨e, he, hof⟩ := gives_ofText.1 h
  -- the interrupts of the device are the vectors of the declared ones
  obtain ⟨w, ps, peripherals, _, hps, hcoherent, hlink, hd⟩ := gives_ofElement.1 hof
  refine ⟨wellFormed_of_gives h, e, ps, he, hps, ?_, ?_⟩
  · subst hd
    exact fun n => Part.exists_vector_iff hcoherent
  · subst hd
    exact fun i => Part.vector_eq_placeholder_iff hcoherent (Declared.wellFormed_of_parts hps)

/-- The ports are well-formed. -/
theorem Device.invariant_ports : (ofText portsText).Gives ports ∧ ports.WellFormed :=
  ⟨gives_ports, (invariant_of_gives gives_ports).1⟩

end RegisterMap
