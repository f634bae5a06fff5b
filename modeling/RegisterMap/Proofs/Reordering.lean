import RegisterMap.Proofs.Invariant
import RegisterMap.Proofs.Location

/-!
# The order of peripherals

The first declaration of a name wins everywhere, and a compilation stops at its
first fault. Still the order of the peripherals does not matter for what a
device says under a name, as long as no two peripherals have one name: parts
are read on their own, agreement does not depend on the order, and entries that
agree have one place, so that it does not matter which of them is the first.

- `Declared.Reordered`: two descriptions with the same peripherals
- `Device.SameMap`: two devices that give the same answers
- `Device.sameMap_of_reordered`: reordered descriptions describe the same map
-/

namespace RegisterMap

open Xml (Element)
open FirstWins

/-! ## Parts -/

namespace Part

variable {ps qs : List Part}

/-- The registers of a group are the same in another order. -/
theorem groupRegisters_perm (h : qs.Perm ps) (group : String) :
    (groupRegisters qs group).Perm (groupRegisters ps group) :=
  h.flatMap_right _

/-- So are all interrupts. -/
theorem allInterrupts_perm (h : qs.Perm ps) : (allInterrupts qs).Perm (allInterrupts ps) :=
  h.flatMap_right _

/-- Peripherals are coherent in any order. -/
theorem Coherent.perm (h : Coherent ps) (hperm : qs.Perm ps) : Coherent qs where
  registers group := (h.registers group).perm (groupRegisters_perm hperm group)
  interrupts := h.interrupts.perm (allInterrupts_perm hperm)

/-- A look-up in a group leads to the first register of the name that any peripheral declares
    in it. -/
theorem register?_groups (ps : List Part) (group name : String) :
    (find? Group.name (groups ps) group).bind (·.register? name)
      = find? Register.name (groupRegisters ps group) name := by
  -- a group that no peripheral owns has no registers
  by_cases hmem : group ∈ groupNames ps
  · have hgroup : (⟨group, firsts Register.name (groupRegisters ps group)⟩ : Group) ∈ groups ps :=
      List.mem_map_of_mem hmem
    have hnodup : ((groups ps).map Group.name).Nodup := by
      rw [map_name_groups]
      exact nodup_groupNames ps
    rw [find?_of_nodup hnodup hgroup, Option.bind_some, Group.register?, find?_firsts]
  · have hnone : find? Group.name (groups ps) group = none := by
      rw [find?_eq_none_iff, map_name_groups]
      exact hmem
    rw [hnone, groupRegisters_eq_nil hmem]
    rfl

section Vectors

variable (hcoherent : Coherent ps) (hwf : ∀ p ∈ ps, p.WellFormed)
include hcoherent hwf

/-- The valid vectors of a device are the interrupts that its peripherals declare, as far as
    their names and numbers go. -/
theorem exists_valid_vector_iff {name : String} {number : Nat} :
    (∃ i ∈ Interrupt.vectors (firsts Interrupt.name (allInterrupts ps)),
        i.valid = true ∧ i.name = name ∧ i.number = number)
      ↔ ∃ i ∈ allInterrupts ps, i.name = name ∧ i.number = number := by
  constructor
  · intro h
    obtain ⟨i, hi, hvalid, hname, hnumber⟩ := h
    obtain hfirst | ⟨n, _, hn⟩ := Interrupt.mem_vectors.1 hi
    · exact ⟨i, mem_of_mem_firsts hfirst, hname, hnumber⟩
    · rw [← hn] at hvalid
      cases hvalid
  · -- the first interrupt of the name is listed, and it has the same number
    intro h
    obtain ⟨i, hi, hname, hnumber⟩ := h
    have hfind := hcoherent.interrupts.map_find?_eq_some_iff.2 ⟨i, hi, hname, hnumber⟩
    rw [← find?_firsts, Option.map_eq_some_iff] at hfind
    obtain ⟨j, hj, hjnumber⟩ := hfind
    have hvalid := (wellFormed_of_mem_allInterrupts hwf (mem_of_mem_firsts (mem_of_find? hj))).2
    exact ⟨j, Interrupt.mem_vectors.2 (.inl (mem_of_find? hj)), hvalid, name_of_find? hj, hjnumber⟩

/-- The vectors that are not valid are the numbers below the highest that no peripheral
    declares. -/
theorem exists_invalid_vector_iff {number : Nat} :
    (∃ i ∈ Interrupt.vectors (firsts Interrupt.name (allInterrupts ps)),
        i.valid = false ∧ i.number = number)
      ↔ (∃ j ∈ allInterrupts ps, number < j.number)
        ∧ ∀ j ∈ allInterrupts ps, j.number ≠ number := by
  have hhigher := hcoherent.interrupts.exists_firsts_iff (P := fun m => number < m)
  have hused := hcoherent.interrupts.exists_firsts_iff (P := fun m => m = number)
  have hunused : number ∈ Interrupt.unusedVectors (firsts Interrupt.name (allInterrupts ps))
      ↔ (∃ j ∈ allInterrupts ps, number < j.number)
        ∧ ∀ j ∈ allInterrupts ps, j.number ≠ number := by
    rw [Interrupt.mem_unusedVectors, hhigher]
    refine and_congr_right fun _ => ?_
    simpa using not_congr hused
  -- a vector that is not valid is a placeholder
  rw [← hunused]
  constructor
  · intro h
    obtain ⟨i, hi, hvalid, hnumber⟩ := h
    obtain hfirst | ⟨n, hn, hni⟩ := Interrupt.mem_vectors.1 hi
    · rw [(wellFormed_of_mem_allInterrupts hwf (mem_of_mem_firsts hfirst)).2] at hvalid
      cases hvalid
    · rw [← hni] at hnumber
      exact (show n = number from hnumber) ▸ hn
  · intro h
    exact ⟨_, Interrupt.mem_vectors.2 (.inr ⟨number, h, rfl⟩), rfl, rfl⟩

end Vectors

end Part

/-! ## Descriptions -/

namespace Declared

/-- Two descriptions have the same width and the same peripherals in some order. -/
structure Reordered (e e' : Element) : Prop where
  width : e'.childText? "width" = e.childText? "width"
  peripherals : (e'.nested "peripherals" "peripheral").Perm (e.nested "peripherals" "peripheral")

instance (e e' : Element) : Decidable (Reordered e e') :=
  decidable_of_iff (e'.childText? "width" = e.childText? "width"
      ∧ (e'.nested "peripherals" "peripheral").Perm (e.nested "peripherals" "peripheral"))
    ⟨fun h => ⟨h.1, h.2⟩, fun h => ⟨h.1, h.2⟩⟩

/-- The order can be changed back. -/
theorem Reordered.symm {e e' : Element} (h : Reordered e e') : Reordered e' e :=
  ⟨h.width.symm, h.peripherals.symm⟩

/-- A peripheral has the name that its declaration says. -/
theorem name_of_peripheral {e : Element} {loc : Location} {d : Declaration}
    (h : (peripheral e loc).Gives d) : e.childText? "name" = some d.name := by
  simp only [peripheral, text, Checked.gives_bind, Checked.gives_require, Checked.gives_pure] at h
  obtain ⟨name, hname, _, _, base, _, l, _, hd⟩ := h
  rw [hname, ← hd]

/-- The same with all that it says. -/
theorem name_of_part {e : Element} {i : Nat} {p : Part} (h : (part e i).Gives p) :
    e.childText? "name" = some p.declaration.name := by
  simp only [part, Checked.gives_bind, Checked.gives_pure] at h
  obtain ⟨d, hd, is, _, own, _, hp⟩ := h
  rw [name_of_peripheral hd, ← hp]

/-- The peripherals of a device can all be read as if each were the first. -/
theorem gives_parts {e : Element} {ps : List Part} :
    (parts e).Gives ps ↔ ((e.nested "peripherals" "peripheral").mapM fun x => part x 0).Gives ps :=
  -- the place of a peripheral only shows in the faults of its part
  Checked.Alike.mapM_zipIdx (fun x i => alike_part x i 0) _ ps

/-- The names of all peripherals are those that are declared. -/
theorem map_name_parts {e : Element} {ps : List Part} (h : (parts e).Gives ps) :
    (ps.map Part.declaration).map Declaration.name
      = (e.nested "peripherals" "peripheral").filterMap (·.childText? "name") := by
  have hall := Checked.gives_mapM.1 (gives_parts.1 h)
  -- the induction is on the elements, and forgets where they come from
  generalize e.nested "peripherals" "peripheral" = es at hall
  clear h
  induction hall with
  | nil => rfl
  | cons hpart _ ih =>
    simp only [List.map_cons, List.filterMap_cons, name_of_part hpart, ih]

end Declared

/-! ## Devices -/

/-- Two devices give the same answers under every name. The order in which things are listed
    may differ, and so may what a register says besides its offset. -/
structure Device.SameMap (d d' : Device) : Prop where
  peripheral? : ∀ name, d'.peripheral? name = d.peripheral? name
  registerAddress? : ∀ peripheral register,
    d'.registerAddress? peripheral register = d.registerAddress? peripheral register
  groups : ∀ name, name ∈ d'.groups.map Group.name ↔ name ∈ d.groups.map Group.name
  offset? : ∀ group name, ((d'.group? group).bind (·.register? name)).map Register.offset
    = ((d.group? group).bind (·.register? name)).map Register.offset
  /-- The valid vectors have the same names and numbers. -/
  interrupts : ∀ name number,
    (∃ i ∈ d'.interrupts, i.valid = true ∧ i.name = name ∧ i.number = number)
      ↔ ∃ i ∈ d.interrupts, i.valid = true ∧ i.name = name ∧ i.number = number
  placeholders : ∀ number, (∃ i ∈ d'.interrupts, i.valid = false ∧ i.number = number)
    ↔ ∃ i ∈ d.interrupts, i.valid = false ∧ i.number = number

namespace Device

/-- Addresses follow from the peripherals and the offsets of the groups. The parents of the
    peripherals play no part. -/
theorem registerAddress?_congr {d d' : Device}
    (hperipheral : ∀ name, (d'.peripheral? name).map Peripheral.unlinked
      = (d.peripheral? name).map Peripheral.unlinked)
    (hoffset : ∀ group name, ((d'.group? group).bind (·.register? name)).map Register.offset
      = ((d.group? group).bind (·.register? name)).map Register.offset)
    (peripheral register : String) :
    d'.registerAddress? peripheral register = d.registerAddress? peripheral register := by
  -- an address is made of the base, the group and the offset alone
  have haddress : ∀ d : Device, d.registerAddress? peripheral register
      = ((d.peripheral? peripheral).map Peripheral.unlinked).bind fun p =>
        ((d.group? p.group).bind (·.register? register)).bind fun r => Word.add? p.base r.offset := by
    intro d
    rw [Option.bind_map]
    rfl
  rw [haddress, haddress, hperipheral]
  refine congrArg _ (funext fun p => ?_)
  have h := congrArg (·.bind fun offset => Word.add? p.base offset) (hoffset p.group register)
  simpa only [Option.bind_map, Function.comp_def] using h

/-- A description whose peripherals are put into another order describes the same map. -/
theorem exists_sameMap {e e' : Element} {d : Device} (h : Declared.Reordered e e')
    (hnames : ((e.nested "peripherals" "peripheral").filterMap (·.childText? "name")).Nodup)
    (hd : (ofElement e).Gives d) : ∃ d', (ofElement e').Gives d' ∧ d.SameMap d' := by
  obtain ⟨w, ps, peripherals, hw, hps, hcoherent, hlink, hd⟩ := gives_ofElement.1 hd
  -- the other description compiles, since its parts and its links are the same up to the order
  obtain ⟨qs, hqs, hperm⟩ := (Declared.gives_parts.1 hps).mapM_perm h.peripherals
  have hqs := Declared.gives_parts.2 hqs
  have hnodup : ((ps.map Part.declaration).map Declaration.name).Nodup := by
    rwa [Declared.map_name_parts hps]
  obtain ⟨peripherals', hlink', hpermuted⟩ :=
    Alias.gives_linkAll_perm hnodup (hperm.map Part.declaration) hlink
  have hw' : Declared.width e' = .ok w := by
    rwa [Declared.width, h.width]
  have hcoherent' := hcoherent.perm hperm
  refine ⟨_, gives_ofElement.2 ⟨w, qs, peripherals', hw', hqs, hcoherent', hlink', rfl⟩, ?_⟩
  subst hd
  -- names are different or agree, so it does not matter which entry of a name comes first
  have hperipheral : ∀ name, find? Peripheral.name peripherals' name
      = find? Peripheral.name peripherals name := by
    apply find?_perm _ hpermuted
    rwa [Alias.map_name_of_linkAll hlink]
  have hoffset : ∀ group name,
      ((find? Group.name (Part.groups qs) group).bind (·.register? name)).map Register.offset
        = ((find? Group.name (Part.groups ps) group).bind (·.register? name)).map Register.offset := by
    intro group name
    rw [Part.register?_groups, Part.register?_groups]
    exact (hcoherent.registers group).map_find?_perm (Part.groupRegisters_perm hperm group) name
  have hinterrupts := Part.allInterrupts_perm hperm
  have hwf := Declared.wellFormed_of_parts hps
  have hwf' := Declared.wellFormed_of_parts hqs
  exact {
    peripheral? := hperipheral
    registerAddress? := registerAddress?_congr (fun name => congrArg _ (hperipheral name)) hoffset
    groups := by
      intro name
      rw [Part.map_name_groups, Part.map_name_groups, Part.mem_groupNames, Part.mem_groupNames]
      simp only [hperm.mem_iff]
    offset? := hoffset
    interrupts := by
      intro name number
      rw [Part.exists_valid_vector_iff hcoherent' hwf', Part.exists_valid_vector_iff hcoherent hwf]
      simp only [hinterrupts.mem_iff]
    placeholders := by
      intro number
      rw [Part.exists_invalid_vector_iff hcoherent' hwf',
        Part.exists_invalid_vector_iff hcoherent hwf]
      simp only [hinterrupts.mem_iff] }

/-- Descriptions of peripherals with different names compile in any order of the peripherals or
    in none, and then describe the same map. -/
theorem sameMap_of_reordered {text text' : String} {e e' : Element}
    (he : Xml.Document.parse? text = some e) (he' : Xml.Document.parse? text' = some e')
    (h : Declared.Reordered e e')
    (hnames : ((e.nested "peripherals" "peripheral").filterMap (·.childText? "name")).Nodup) :
    ((∃ d, (ofText text).Gives d) ↔ ∃ d', (ofText text').Gives d')
      ∧ ∀ d d', (ofText text).Gives d → (ofText text').Gives d' → d.SameMap d' := by
  have hgives : ∀ d, (ofText text).Gives d ↔ (ofElement e).Gives d := by
    intro d
    rw [gives_ofText, he]
    simp
  have hgives' : ∀ d, (ofText text').Gives d ↔ (ofElement e').Gives d := by
    intro d
    rw [gives_ofText, he']
    simp
  have hnames' : ((e'.nested "peripherals" "peripheral").filterMap (·.childText? "name")).Nodup :=
    (h.peripherals.filterMap _).nodup_iff.2 hnames
  simp only [hgives, hgives']
  -- the change of order works both ways
  refine ⟨⟨?_, ?_⟩, ?_⟩
  · intro hd
    obtain ⟨d, hd⟩ := hd
    obtain ⟨d', hd', _⟩ := exists_sameMap h hnames hd
    exact ⟨d', hd'⟩
  · intro hd
    obtain ⟨d', hd'⟩ := hd
    obtain ⟨d, hd, _⟩ := exists_sameMap h.symm hnames' hd'
    exact ⟨d, hd⟩
  · intro d d' hd hd'
    obtain ⟨d'', hd'', hsame⟩ := exists_sameMap h hnames hd
    exact hd'.unique hd'' ▸ hsame

/-- The description of the ports with the derived port first and the others swapped. -/
def reorderedPortsText : String :=
  "<device><name>Ports</name><width>32</width><peripherals>
    <peripheral derivedFrom='PA'><name>PC</name><baseAddress>0x40020800</baseAddress></peripheral>
    <peripheral><name>PB</name><groupName>PORT</groupName><baseAddress>0xFFFFFFF0</baseAddress>
      <interrupt><name>PIN</name><value>2</value></interrupt>
      <registers>
        <register><name>OUT</name><addressOffset>0x14</addressOffset></register>
        <register><name>IN</name><addressOffset>0x4</addressOffset></register>
      </registers></peripheral>
    <peripheral><name>PA</name><groupName>PORT</groupName><baseAddress>0x40020000</baseAddress>
      <interrupt><name>PIN</name><value>2</value></interrupt>
      <registers>
        <register><name>MODE</name><addressOffset>0x0</addressOffset></register>
        <register><name>OUT</name><description>output  data</description>
          <addressOffset>0x14</addressOffset><fields>
            <field><name>LOW</name><bitOffset>0</bitOffset><bitWidth>8</bitWidth></field>
          </fields></register>
      </registers></peripheral>
  </peripherals></device>"

/-- The ports in another order. -/
theorem sameMap_ports :
    ∃ e e' d', Xml.Document.parse? portsText = some e
      ∧ Xml.Document.parse? reorderedPortsText = some e'
      ∧ Declared.Reordered e e'
      ∧ ((e.nested "peripherals" "peripheral").filterMap (·.childText? "name")).Nodup
      ∧ (ofText reorderedPortsText).Gives d' ∧ ports.SameMap d' := by
  -- the two texts are read, and compared, in one go
  have hcheck : ((Xml.Document.parse? portsText).bind fun e =>
      (Xml.Document.parse? reorderedPortsText).map fun e' =>
        decide (Declared.Reordered e e'
          ∧ ((e.nested "peripherals" "peripheral").filterMap (·.childText? "name")).Nodup))
      = some true := by
    unfold portsText reorderedPortsText Xml.Document.parse?
    rw [String.toList_ofList, String.toList_ofList]
    decide +kernel
  obtain ⟨e, he, hmap⟩ := Option.bind_eq_some_iff.1 hcheck
  obtain ⟨e', he', hdecide⟩ := Option.map_eq_some_iff.1 hmap
  obtain ⟨hreordered, hnames⟩ := of_decide_eq_true hdecide
  obtain ⟨hiff, hsame⟩ := sameMap_of_reordered he he' hreordered hnames
  obtain ⟨d', hd'⟩ := hiff.1 ⟨ports, gives_ports⟩
  exact ⟨e, e', d', he, he', hreordered, hnames, hd', hsame ports d' gives_ports hd'⟩

end Device
end RegisterMap
