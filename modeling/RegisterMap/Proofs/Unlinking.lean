import RegisterMap.Proofs.Blank
import RegisterMap.Proofs.Element
import RegisterMap.Proofs.Listing.WellFormed
import RegisterMap.Proofs.Reordering

/-!
# Peripherals that name their group

A derived peripheral without registers of its own may as well name the group
that it gets from its parent. It then fills that group, with nothing, and may be
the first one to do so, which moves the group in the list of all groups. Walks
of other peripherals that came through it end at it. For the device nothing else
changes, and no module of a peripheral changes in a listing.

- `Declared.Unlinked`: a peripheral that names its group instead of its parent
- `Listing.peripheralTexts`: the texts of the modules of the peripherals
- `Device.gives_of_unlinked`: the device of a description with such a peripheral
-/

namespace RegisterMap

open Xml (Element)
open FirstWins

/-! ## The texts of modules -/

namespace Listing

/-- The text of some lines, with the descriptions among them if the listing shows any. -/
def textOf (l : Listing) (ls : List Line) : String :=
  String.join ((ls.filter fun line => l.descriptions || !line.isDoc).map fun line =>
    line.text ++ "\n")

/-- The texts of the modules of the peripherals, in order. -/
def peripheralTexts (l : Listing) : List String :=
  (contents l.peripherals).map fun m => l.textOf (m.lines l.width)

/-- The text of lines is put together from its parts. -/
theorem textOf_append (l : Listing) (ls ms : List Line) :
    l.textOf (ls ++ ms) = l.textOf ls ++ l.textOf ms := by
  apply String.toList_inj.1
  simp only [textOf, List.filter_append, List.map_append, String.toList_append,
    String.toList_join, List.flatMap_append]

/-- The modules of the peripherals stand one behind the other between the groups and the
    interrupts, each below an empty line. -/
theorem text_eq_append_peripheralTexts (l : Listing) :
    l.text = l.textOf (banner l.device
        ++ l.groups.toList.flatMap fun groups => .blank :: groupLines l.width groups)
      ++ String.join (l.peripheralTexts.map ("\n" ++ ·))
      ++ l.textOf (l.interrupts.toList.flatMap fun vectors =>
        .blank :: interruptLines l.width vectors) := by
  have hblank : ∀ ls, l.textOf (.blank :: ls) = "\n" ++ l.textOf ls := by
    intro ls
    have hkept : (l.descriptions || !Line.blank.isDoc) = true := Bool.or_true l.descriptions
    apply String.toList_inj.1
    rw [textOf, List.filter_cons, if_pos hkept, String.toList_append]
    simp [textOf, Line.text]
  -- every module has an empty line in front
  have hmodules : ∀ ms : List PeripheralModule,
      l.textOf (ms.flatMap fun m => .blank :: m.lines l.width)
        = String.join (ms.map fun m => "\n" ++ l.textOf (m.lines l.width)) := by
    intro ms
    induction ms with
    | nil => rfl
    | cons m ms ih => rw [List.flatMap_cons, textOf_append, hblank, ih, List.map_cons, String.join_cons]
  have hlines : l.text = l.textOf l.describedLines := rfl
  rw [hlines, describedLines, textOf_append, textOf_append, flatMap_lines, hmodules,
    peripheralTexts, List.map_map]
  rfl

end Listing

/-! ## Parts -/

namespace Part

/-- What a peripheral says that names its group instead of its parent. -/
def unlinked (p : Part) (group : String) : Part :=
  { p with declaration := p.declaration.unlinked group }

variable {before after : List Part} {p : Part} {group : String}

/-- The interrupts of a peripheral do not depend on its link. -/
theorem allInterrupts_unlinked (before after : List Part) (p : Part) (group : String) :
    allInterrupts (before ++ p.unlinked group :: after) = allInterrupts (before ++ p :: after) := by
  simp only [allInterrupts, List.flatMap_append, List.flatMap_cons]
  rfl

/-- A peripheral without registers adds none, whatever group it fills. -/
theorem groupRegisters_unlinked (hp : p.registers = []) :
    groupRegisters (before ++ p.unlinked group :: after) = groupRegisters (before ++ p :: after) := by
  funext g
  -- a part without registers adds none to any group
  have hnone : ∀ q : Part, q.registers = [] → registersIn g q = [] := by
    intro q hq
    rw [registersIn, hq]
    exact ite_self []
  simp only [groupRegisters, List.flatMap_append, List.flatMap_cons, hnone p hp,
    hnone (p.unlinked group) hp]

/-- The groups are those that were there, if the one that is filled now was among them. -/
theorem groupNames_unlinked (hp : p.group? = none) (hgroup : group ∈ groupNames (before ++ p :: after)) :
    (groupNames (before ++ p.unlinked group :: after)).Perm (groupNames (before ++ p :: after)) := by
  rw [List.perm_ext_iff_of_nodup (nodup_groupNames _) (nodup_groupNames _)]
  intro g
  rw [mem_groupNames] at hgroup ⊢
  rw [mem_groupNames]
  have hunlinked : (p.unlinked group).group? = some group := rfl
  simp only [List.mem_append, List.mem_cons, or_and_right, exists_or, exists_eq_left, hp,
    hunlinked, reduceCtorEq, false_or, Option.some.injEq] at hgroup ⊢
  -- the only new name is that of the group, which another peripheral owns
  constructor
  · intro h
    obtain h | rfl | h := h
    · exact .inl h
    · exact hgroup
    · exact .inr h
  · exact fun h => h.imp id .inr

/-- The groups are the same, in another order if the peripheral now is the first one of its
    group. -/
theorem groups_unlinked (hp : p.group? = none) (hregisters : p.registers = [])
    (hgroup : group ∈ groupNames (before ++ p :: after)) :
    (groups (before ++ p.unlinked group :: after)).Perm (groups (before ++ p :: after)) := by
  unfold groups
  rw [groupRegisters_unlinked hregisters]
  exact (groupNames_unlinked hp hgroup).map _

/-- Peripherals stay coherent, since the one that is unlinked has no registers. -/
theorem Coherent.unlinked (h : Coherent (before ++ p :: after)) (hregisters : p.registers = [])
    (group : String) : Coherent (before ++ p.unlinked group :: after) where
  registers g := by
    rw [groupRegisters_unlinked hregisters]
    exact h.registers g
  interrupts := by
    rw [allInterrupts_unlinked]
    exact h.interrupts

end Part

namespace Declared

/-- A derived peripheral without registers, and the same one with the name of a group in the
    place of its parent. -/
structure Unlinked (c c' : Element) (group : String) : Prop where
  derived : ∃ parent, c.attribute? "derivedFrom" = some parent
  registers : c.nested "registers" "register" = []
  notDerived : c'.attribute? "derivedFrom" = none
  group : c'.childText? "groupName" = some group
  others : ∀ tag, tag ≠ "groupName" → c'.childrenNamed tag = c.childrenNamed tag

variable {c c' : Element} {group : String} (h : Unlinked c c' group)
include h

/-- Every text but the name of the group stays. -/
theorem Unlinked.childText? {tag : String} (htag : tag ≠ "groupName") :
    c'.childText? tag = c.childText? tag :=
  Element.childText?_congr (h.others tag htag)

/-- The declaration says the same, but for its layout. -/
theorem Unlinked.gives_peripheral (hgroup : Name.isWord group = true) {loc : Location}
    {d : Declaration} (hd : (peripheral c loc).Gives d) :
    d.group? = none ∧ (peripheral c' loc).Gives (d.unlinked group) := by
  obtain ⟨hname, hword, hbase, hl, hdescription⟩ := Declared.gives_peripheral.1 hd
  obtain ⟨parent, hparent⟩ := h.derived
  have hdescription' : description c' = description c := by
    rw [description, description, h.childText? (by decide)]
  constructor
  · rw [layout, hparent, Checked.gives_pure] at hl
    rw [Declaration.group?, ← hl]
  · -- without a parent, the name of the group is read and checked
    have hl' : (layout c' d.name (loc.named d.name)).Gives (.owned group) := by
      rw [layout, h.notDerived, h.group]
      simp [hgroup]
    rw [Declared.gives_peripheral, hdescription', h.childText? (by decide), h.childText? (by decide)]
    exact ⟨hname, hword, hbase, hl', hdescription⟩

/-- What such a peripheral says is the same but for its layout, and it says nothing about
    registers. -/
theorem Unlinked.gives_part (hgroup : Name.isWord group = true) {i : Nat} {p : Part}
    (hp : (part c i).Gives p) :
    p.group? = none ∧ p.registers = [] ∧ (part c' i).Gives (p.unlinked group) := by
  simp only [part, Checked.gives_bind, Checked.gives_pure] at hp ⊢
  obtain ⟨d, hd, is, his, own, hown, rfl⟩ := hp
  obtain ⟨hnone, hd'⟩ := h.gives_peripheral hgroup hd
  have hinterrupts : interrupts c' = interrupts c := by
    funext loc
    rw [interrupts, interrupts, h.others _ (by decide)]
  have hregisters : c'.nested "registers" "register" = [] := by
    rw [Element.nested_congr (h.others _ (by decide)), h.registers]
  -- the one has no registers because it is derived, the other one because it declares none
  have hnil : own = [] := by
    unfold Declaration.group? at hnone
    split at hnone
    · cases hnone
    · next hl =>
      rw [ownRegisters, hl] at hown
      exact (Checked.gives_pure.1 hown).symm
  subst hnil
  refine ⟨hnone, rfl, d.unlinked group, hd', is, ?_, [], ?_, rfl⟩
  · rw [hinterrupts]
    exact his
  · rw [ownRegisters, hregisters]
    exact Checked.gives_map.2 ⟨[], Checked.gives_pure.2 rfl, rfl⟩

end Declared

/-- The element with the name of a group in the place of its parent. -/
def Declared.unlink (c : Element) (group : String) : Element :=
  { c with
    attributes := c.attributes.filter fun a => !(a.space == none && a.name == "derivedFrom")
  }.restated [("groupName", group)] []

/-- A peripheral whose link is written out is unlinked. -/
theorem Declared.unlinked_unlink {c : Element} {parent group : String}
    (hparent : c.attribute? "derivedFrom" = some parent)
    (hregisters : c.nested "registers" "register" = []) (hgroup : Name.isWord group = true) :
    Unlinked c (unlink c group) group where
  derived := ⟨parent, hparent⟩
  registers := hregisters
  notDerived := by
    rw [unlink, Element.restated, Element.attribute?, Option.map_eq_none_iff, List.find?_eq_none]
    intro a ha hderived
    -- the attribute was left out
    have hkept := (List.mem_filter.1 ha).2
    rw [hderived] at hkept
    cases hkept
  group := by
    rw [unlink, Element.childText?_restated rfl,
      Text.trim_of_isTrimmed (Text.isTrimmed_of_isWord hgroup)]
  others tag htag := by
    apply Element.childrenNamed_restated_of_not_mem
    · simpa using htag
    · exact List.not_mem_nil

/-! ## Devices -/

namespace Device

variable {d d' : Device}

section Same

variable (hgroups : d'.groups.Perm d.groups) (hnodup : (d.groups.map Group.name).Nodup)
  (hperipherals : d'.peripherals.map Peripheral.unlinked = d.peripherals.map Peripheral.unlinked)

include hgroups hnodup in
/-- Groups are found by their names in any order. -/
theorem group?_of_perm (name : String) : d'.group? name = d.group? name :=
  find?_perm hnodup hgroups name

include hperipherals in
/-- Peripherals are found by their names, linked or not. -/
theorem peripheral?_of_unlinked (name : String) :
    (d'.peripheral? name).map Peripheral.unlinked = (d.peripheral? name).map Peripheral.unlinked := by
  have hfind : ∀ ps : List Peripheral, (find? Peripheral.name ps name).map Peripheral.unlinked
      = find? Peripheral.name (ps.map Peripheral.unlinked) name := by
    intro ps
    rw [find?, find?, List.find?_map]
    rfl
  rw [peripheral?, peripheral?, hfind, hfind, hperipherals]

include hgroups hnodup hperipherals in
/-- What a listing shows of the peripherals depends neither on their parents nor on the order of
    the groups. -/
theorem peripherals_listing (hwidth : d'.width = d.width) (hinterrupts : d'.interrupts = d.interrupts)
    (o : Options) : (d'.listing o).peripherals = (d.listing o).peripherals := by
  have hreserved : Listing.reservedModules d' o = Listing.reservedModules d o := by
    rw [Listing.reservedModules, Listing.reservedModules, hgroups.isEmpty_eq, hinterrupts]
  have hregisters : d'.registersOf = d.registersOf := by
    funext group
    rw [registersOf, registersOf, group?_of_perm hgroups hnodup]
  have hitem : Listing.peripheralItem d' = Listing.peripheralItem d := by
    funext p
    rw [Listing.peripheralItem, Listing.peripheralItem, hwidth, hregisters]
  -- an item says nothing about the parent, so that it may be taken from a peripheral without one
  have hitems : ∀ ps : List Peripheral,
      (ps.filter fun p => o.selection.admits p.name).map (Listing.peripheralItem d)
        = ((ps.map Peripheral.unlinked).filter fun p => o.selection.admits p.name).map
          (Listing.peripheralItem d) := by
    intro ps
    rw [List.filter_map, List.map_map]
    rfl
  show Listing.claim _ _ = Listing.claim _ _
  rw [hreserved, hitem, hitems d'.peripherals, hperipherals, ← hitems]

end Same

/-- A peripheral without its parent is the same as before, but for the parent. -/
theorem map_unlinked_set {ps : List Peripheral} {i : Nat} {p : Peripheral} (h : ps[i]? = some p) :
    (ps.set i p.unlinked).map Peripheral.unlinked = ps.map Peripheral.unlinked := by
  obtain ⟨hi, hp⟩ := List.getElem?_eq_some_iff.1 h
  have hlength : i < (ps.map Peripheral.unlinked).length := by simpa using hi
  have hunlinked : p.unlinked.unlinked = (ps.map Peripheral.unlinked)[i] := by
    rw [List.getElem_map, hp]
    rfl
  rw [List.map_set, hunlinked, List.set_getElem_self hlength]

/-- The two devices differ in the parent of the `i`-th peripheral, which the second one does not
    have, and in the order of their groups. -/
structure UnlinkedAt (i : Nat) (p : Peripheral) (d d' : Device) : Prop where
  name : d'.name = d.name
  width : d'.width = d.width
  peripherals : d'.peripherals = d.peripherals.set i p.unlinked
  interrupts : d'.interrupts = d.interrupts
  groups : d'.groups.Perm d.groups
  registerAddress? : ∀ peripheral register,
    d'.registerAddress? peripheral register = d.registerAddress? peripheral register
  peripheralTexts : ∀ o, (d'.listing o).peripheralTexts = (d.listing o).peripheralTexts
  /-- The modules of the peripherals stand in both listings as one text. -/
  texts : ∀ o, ∃ front front' back,
    (d.listing o).text
        = front ++ String.join ((d.listing o).peripheralTexts.map ("\n" ++ ·)) ++ back
      ∧ (d'.listing o).text
        = front' ++ String.join ((d.listing o).peripheralTexts.map ("\n" ++ ·)) ++ back

/-- Look-ups and listings follow from the lists of the device. -/
theorem UnlinkedAt.of_peripherals {i : Nat} {p : Peripheral} (hp : d.peripherals[i]? = some p)
    (hname : d'.name = d.name) (hwidth : d'.width = d.width)
    (hperipherals : d'.peripherals = d.peripherals.set i p.unlinked)
    (hinterrupts : d'.interrupts = d.interrupts) (hgroups : d'.groups.Perm d.groups)
    (hnodup : (d.groups.map Group.name).Nodup) : UnlinkedAt i p d d' := by
  have hunlinked : d'.peripherals.map Peripheral.unlinked
      = d.peripherals.map Peripheral.unlinked := by
    rw [hperipherals, map_unlinked_set hp]
  -- the modules are made from what the link does not change
  have hlisting := peripherals_listing hgroups hnodup hunlinked hwidth hinterrupts
  have htexts : ∀ o, (d'.listing o).peripheralTexts = (d.listing o).peripheralTexts := by
    intro o
    have hwidth' : (d'.listing o).width = (d.listing o).width := hwidth
    rw [Listing.peripheralTexts, Listing.peripheralTexts, hlisting, hwidth']
    rfl
  refine ⟨hname, hwidth, hperipherals, hinterrupts, hgroups, ?_, htexts, ?_⟩
  · apply registerAddress?_congr (peripheral?_of_unlinked hunlinked)
    intro group name
    rw [group?_of_perm hgroups hnodup]
  · intro o
    -- so is what stands behind them
    have hback : (d'.listing o).textOf ((d'.listing o).interrupts.toList.flatMap fun vectors =>
          .blank :: Listing.interruptLines (d'.listing o).width vectors)
        = (d.listing o).textOf ((d.listing o).interrupts.toList.flatMap fun vectors =>
          .blank :: Listing.interruptLines (d.listing o).width vectors) := by
      simp only [listing, hinterrupts, hwidth]
      rfl
    have htext := Listing.text_eq_append_peripheralTexts (d'.listing o)
    rw [hback, htexts] at htext
    exact ⟨_, _, _, Listing.text_eq_append_peripheralTexts _, htext⟩

/-- A description in which a derived peripheral without registers names the group that it has
    compiles as well, and describes the same device but for the parent. -/
theorem gives_of_unlinked {e e' c c' : Element} {before after : List Element} {p : Peripheral}
    (hd : (ofElement e).Gives d) (hsame : e.SameBut "peripherals" e')
    (he : e.nested "peripherals" "peripheral" = before ++ c :: after)
    (he' : e'.nested "peripherals" "peripheral" = before ++ c' :: after)
    (hp : d.peripherals[before.length]? = some p) (hc : Declared.Unlinked c c' p.group) :
    ∃ d', (ofElement e').Gives d' ∧ UnlinkedAt before.length p d d' := by
  obtain ⟨w, ps, peripherals, hw, hps, hcoherent, hlink, rfl⟩ := gives_ofElement.1 hd
  have hwf := Declared.wellFormed_of_parts hps
  rw [Declared.gives_parts, he, Checked.gives_mapM_middle] at hps
  obtain ⟨front, q, back, hfront, hq, hback, rfl⟩ := hps
  have hlength := Checked.length_of_gives_mapM hfront
  -- the group is a word, since it is one of the groups of the device
  obtain ⟨g, hg⟩ := Alias.exists_group_of_linkAll hlink (List.mem_of_getElem? hp)
  have hmem : p.group ∈ Part.groupNames (front ++ q :: back) := by
    rw [← Part.map_name_groups, ← name_of_find? hg]
    exact List.mem_map_of_mem (mem_of_find? hg)
  have hword : Name.isWord p.group = true :=
    name_of_find? hg ▸ (Part.wellFormed_of_mem_groups hwf (mem_of_find? hg)).name
  obtain ⟨hderived, hnone, hq'⟩ := hc.gives_part hword hq
  have hlink : (Alias.linkAll (front.map Part.declaration
      ++ q.declaration :: back.map Part.declaration)).Gives peripherals := by
    simpa only [List.map_append, List.map_cons] using hlink
  have hp' : peripherals[(front.map Part.declaration).length]? = some p := by
    rw [List.length_map, hlength]
    exact hp
  obtain ⟨_, hlink'⟩ := Alias.linkAll_unlinked hlink hp'
  rw [List.length_map, hlength] at hlink'
  have hps' : (Declared.parts e').Gives (front ++ q.unlinked p.group :: back) := by
    rw [Declared.gives_parts, he', Checked.gives_mapM_middle]
    exact ⟨front, _, back, hfront, hq', hback, rfl⟩
  have hw' : Declared.width e' = .ok w := by
    rwa [Declared.width, hsame.childText? (by decide)]
  have hlinked : (Alias.linkAll ((front ++ q.unlinked p.group :: back).map Part.declaration)).Gives
      (peripherals.set before.length p.unlinked) := by
    rw [List.map_append, List.map_cons]
    exact hlink'
  have hd' := gives_ofElement.2 ⟨w, _, _, hw', hps', hcoherent.unlinked hnone p.group, hlinked, rfl⟩
  refine ⟨_, hd', ?_⟩
  apply UnlinkedAt.of_peripherals hp
  · exact hsame.childText? (by decide)
  · rfl
  · rfl
  · exact congrArg (fun is => Interrupt.vectors (firsts Interrupt.name is))
      (Part.allInterrupts_unlinked front back q p.group)
  · exact Part.groups_unlinked hderived hnone hmem
  · show ((Part.groups (front ++ q :: back)).map Group.name).Nodup
    rw [Part.map_name_groups]
    exact Part.nodup_groupNames _

/-- A timer that is derived from the second one, a serial port, and the third timer. -/
def otherTimers : List Element :=
  [⟨"peripheral", [⟨none, "derivedFrom", "T2"⟩],
      [(Element.leaf "name" "T1").node, (Element.leaf "baseAddress" "0x100").node]⟩,
    ⟨"peripheral", [],
      [(Element.leaf "name" "UART").node, (Element.leaf "baseAddress" "0x200").node]⟩,
    ⟨"peripheral", [],
      [(Element.leaf "name" "T3").node, (Element.leaf "groupName" "TIM").node,
        (Element.leaf "baseAddress" "0x300").node,
        .element "registers" []
          [.element "register" []
            [(Element.leaf "name" "CNT").node, (Element.leaf "addressOffset" "0x24").node]]]⟩]

/-- A description of timers, with some element for the second one in front. -/
def timersWith (second : Element) : Element :=
  ⟨"device", [], [(Element.leaf "width" "32").node,
    .element "peripherals" [] ((second :: otherTimers).map Element.node)]⟩

/-- The second timer, derived from the third one. -/
def secondTimer : Element :=
  ⟨"peripheral", [⟨none, "derivedFrom", "T3"⟩],
    [(Element.leaf "name" "T2").node, (Element.leaf "baseAddress" "0x0").node]⟩

/-- The device with the three timers. -/
def timers : Device where
  name := none
  width := .w32
  peripherals :=
    [⟨"T2", "TIM", some "T3", 0, none⟩, ⟨"T1", "TIM", some "T2", 0x100, none⟩,
      ⟨"UART", "UART", none, 0x200, none⟩, ⟨"T3", "TIM", none, 0x300, none⟩]
  groups := [⟨"UART", []⟩, ⟨"TIM", [⟨"CNT", 0x24, none, none, []⟩]⟩]
  interrupts := []

/-- The timers are the same with the second one written out. -/
theorem gives_of_unlinked_timers :
    (ofElement (timersWith secondTimer)).Gives timers
      ∧ ∃ d', (ofElement (timersWith (Declared.unlink secondTimer "TIM"))).Gives d'
        ∧ UnlinkedAt 0 ⟨"T2", "TIM", some "T3", 0, none⟩ timers d' := by
  have hgives : (ofElement (timersWith secondTimer)).Gives timers := by decide +kernel
  -- all but the peripherals stay
  have hsame : (timersWith secondTimer).SameBut "peripherals"
      (timersWith (Declared.unlink secondTimer "TIM")) := by
    have hreplaced := @Element.Replaced.child "peripherals" (fun _ _ => True) "device" []
      [(Element.leaf "width" "32").node] []
      ⟨"peripherals", [], (secondTimer :: otherTimers).map Element.node⟩
      [⟨"peripherals", [], (Declared.unlink secondTimer "TIM" :: otherTimers).map Element.node⟩]
      trivial rfl (List.forall_mem_singleton.2 rfl)
    exact hreplaced.sameBut
  have hperipherals : (timersWith secondTimer).nested "peripherals" "peripheral"
      = [] ++ secondTimer :: otherTimers := by decide +kernel
  have hperipherals' : (timersWith (Declared.unlink secondTimer "TIM")).nested "peripherals" "peripheral"
      = [] ++ Declared.unlink secondTimer "TIM" :: otherTimers := by decide +kernel
  have hunlinked : Declared.Unlinked secondTimer (Declared.unlink secondTimer "TIM") "TIM" :=
    Declared.unlinked_unlink (show secondTimer.attribute? "derivedFrom" = some "T3" by decide +kernel)
      (by decide +kernel) (by decide)
  exact ⟨hgives, gives_of_unlinked hgives hsame hperipherals hperipherals' rfl hunlinked⟩

end Device
end RegisterMap
