import RegisterMap.Compile
import RegisterMap.Proofs.FirstWins

/-!
# The meaning of a description

A description is compiled in one pass that fills groups and an interrupt table
as it goes and stops at the first fault. What it computes can be said without
the pass: every peripheral is read on its own into a `Part`, the parts have to
be coherent (no register of a group and no interrupt is declared at two
places), and the device is put together from them.

- `Draft.gives_addPeripherals`: the pass over the peripherals
- `Device.gives_ofElement`: the whole compilation
- `Device.compiles_iff_coherent`: when a description compiles, and to which groups
-/

namespace RegisterMap

open Xml (Element)
open FirstWins

/-! ## Parts -/

/-- What one peripheral says on its own. A derived one says nothing about registers. -/
structure Part where
  declaration : Declaration
  interrupts : List Interrupt
  registers : List Register

namespace Declared

/-- The interrupts that a peripheral declares. -/
def interrupts (e : Element) (loc : Location) : Checked (List Interrupt) :=
  (e.childrenNamed "interrupt").zipIdx.mapM fun x =>
    interrupt x.1 (loc.child "interrupt" x.2 none)

/-- The registers that the declarations of a peripheral stand for, a row for each. -/
def registerRows (registers : List Element) (loc : Location) : Checked (List (List Register)) :=
  registers.zipIdx.mapM fun x => registerRow x.1 (loc.child "register" x.2 none)

/-- The registers that a peripheral declares in its group. -/
def ownRegisters (e : Element) (d : Declaration) (loc : Location) : Checked (List Register) :=
  match d.layout with
  | .owned _ => List.flatten <$> registerRows (e.nested "registers" "register") loc
  | .derived _ => pure []

/-- What a peripheral, the `i`-th of its device, says on its own. -/
def part (e : Element) (i : Nat) : Checked Part := do
  let loc := Location.device.child "peripheral" i none
  let d ← peripheral e loc
  let interrupts ← interrupts e (loc.named d.name)
  let registers ← ownRegisters e d (loc.named d.name)
  return ⟨d, interrupts, registers⟩

/-- What the peripherals of a device say, each on its own. -/
def parts (e : Element) : Checked (List Part) :=
  (e.nested "peripherals" "peripheral").zipIdx.mapM fun x => part x.1 x.2

end Declared

namespace Part

/-- The group that a peripheral fills, if it is not derived. -/
def group? (p : Part) : Option String := p.declaration.group?

/-- The groups that peripherals fill, in the order of their first use. -/
def groupNames (ps : List Part) : List String := firsts id (ps.filterMap group?)

/-- The registers that a peripheral declares in a group. -/
def registersIn (group : String) (p : Part) : List Register :=
  if p.group? = some group then p.registers else []

/-- The registers that are declared in a group by any peripheral, in order. -/
def groupRegisters (ps : List Part) (group : String) : List Register :=
  ps.flatMap (registersIn group)

/-- The interrupts that are declared by any peripheral, in order. -/
def allInterrupts (ps : List Part) : List Interrupt := ps.flatMap Part.interrupts

/-- The groups of a device: in each the first register of every name. -/
def groups (ps : List Part) : List Group :=
  (groupNames ps).map fun group => ⟨group, firsts Register.name (groupRegisters ps group)⟩

/-- No two peripherals contradict each other, nor does one contradict itself. -/
structure Coherent (ps : List Part) : Prop where
  /-- Registers of one name have one offset in a group. -/
  registers : ∀ group, Agree Register.name Register.offset (groupRegisters ps group)
  /-- Interrupts of one name have one number. -/
  interrupts : Agree Interrupt.name Interrupt.number (allInterrupts ps)

/-- The peripherals in front are coherent if all are. -/
theorem Coherent.of_append {ps qs : List Part} (h : Coherent (ps ++ qs)) : Coherent ps where
  registers group := by
    apply (h.registers group).sublist
    rw [groupRegisters, groupRegisters, List.flatMap_append]
    exact List.sublist_append_left _ _
  interrupts := by
    apply h.interrupts.sublist
    rw [allInterrupts, allInterrupts, List.flatMap_append]
    exact List.sublist_append_left _ _

/-- One more peripheral puts its registers behind those of its group. -/
theorem groupRegisters_concat (ps : List Part) (p : Part) (group : String) :
    groupRegisters (ps ++ [p]) group = groupRegisters ps group ++ registersIn group p := by
  rw [groupRegisters, List.flatMap_append, List.flatMap_singleton, groupRegisters]

/-- It puts its interrupts behind all others. -/
theorem allInterrupts_concat (ps : List Part) (p : Part) :
    allInterrupts (ps ++ [p]) = allInterrupts ps ++ p.interrupts := by
  rw [allInterrupts, List.flatMap_append, List.flatMap_singleton, allInterrupts]

/-- The groups that there are, are those that peripherals own. -/
theorem mem_groupNames {ps : List Part} {group : String} :
    group ∈ groupNames ps ↔ ∃ p ∈ ps, p.group? = some group := by
  have h : group ∈ (firsts id (ps.filterMap group?)).map id ↔ group ∈ (ps.filterMap group?).map id :=
    mem_map_firsts
  rw [List.map_id, List.map_id] at h
  rw [groupNames, h, List.mem_filterMap]

/-- They have different names. -/
theorem nodup_groupNames (ps : List Part) : (groupNames ps).Nodup := by
  have h : ((firsts id (ps.filterMap group?)).map id).Nodup := nodup_firsts _
  rwa [List.map_id] at h

/-- A group that no peripheral fills has no registers. -/
theorem groupRegisters_eq_nil {ps : List Part} {group : String} (h : group ∉ groupNames ps) :
    groupRegisters ps group = [] := by
  rw [groupRegisters, List.flatMap_eq_nil_iff]
  intro p hp
  exact if_neg fun hg => h (mem_groupNames.2 ⟨p, hp, hg⟩)

/-- A peripheral with a group of its own adds it, if it is new. -/
theorem groupNames_concat_owned {ps : List Part} {p : Part} {group : String}
    (h : p.group? = some group) :
    groupNames (ps ++ [p])
      = if group ∈ groupNames ps then groupNames ps else groupNames ps ++ [group] := by
  have hmem : group ∈ (ps.filterMap group?).map id ↔ group ∈ groupNames ps := by
    rw [mem_groupNames, List.map_id, List.mem_filterMap]
  rw [groupNames, List.filterMap_append, List.filterMap_cons_some h, List.filterMap_nil,
    firsts_concat, ← groupNames]
  simp only [id_eq, hmem]

/-- One that derives its group adds none. -/
theorem groupNames_concat_derived {ps : List Part} {p : Part} (h : p.group? = none) :
    groupNames (ps ++ [p]) = groupNames ps := by
  rw [groupNames, List.filterMap_append, List.filterMap_cons_none h, List.filterMap_nil,
    List.append_nil, groupNames]

end Part

/-! ## One more register, one more interrupt -/

/-- A register is merged by what its offer to the registers of the group makes of them. -/
theorem Group.gives_merge {loc : Location} {name : String} {table : List Register} {r : Register}
    {g : Group} :
    (Group.merge loc ⟨name, table⟩ r).Gives g
      ↔ ∃ table', (offer Register.name Register.offset table r).table? table = some table'
          ∧ g = ⟨name, table'⟩ := by
  unfold Group.merge Group.insert
  cases offer Register.name Register.offset table r with
  | added table' => simp [Outcome.table?, eq_comm]
  | repeated => simp [Outcome.table?, eq_comm]
  | clash first => simp [Outcome.table?]

/-- An interrupt is merged by what its offer to the table makes of it. -/
theorem Interrupt.gives_merge {loc : Location} {table : List Interrupt} {i : Interrupt}
    {s : List Interrupt} :
    (Interrupt.merge loc table i).Gives s
      ↔ ∃ table', (offer Interrupt.name Interrupt.number table i).table? table = some table'
          ∧ s = table' := by
  unfold Interrupt.merge Interrupt.insert
  cases offer Interrupt.name Interrupt.number table i with
  | added table' => simp [Outcome.table?, eq_comm]
  | repeated => simp [Outcome.table?, eq_comm]
  | clash first => simp [Outcome.table?]

/-! ## One more peripheral -/

/-- Reading the registers of a peripheral into a group is reading them on their own and
    then comparing them with those that are there. -/
theorem Declared.gives_addLayout {loc : Location} {registers : List Element} {name : String}
    {rs : List Register} (h : Agree Register.name Register.offset rs) (g : Group) :
    (addLayout loc registers ⟨name, firsts Register.name rs⟩).Gives g
      ↔ ∃ rows, (registerRows registers loc).Gives rows
          ∧ Agree Register.name Register.offset (rs ++ rows.flatten)
          ∧ g = ⟨name, firsts Register.name (rs ++ rows.flatten)⟩ :=
  gives_foldlM_rows (fun table => (⟨name, table⟩ : Group))
    (fun x : Element × Nat => Group.merge (loc.child "register" x.2 none))
    (fun _ _ _ _ => Group.gives_merge) (fun x => registerRow x.1 (loc.child "register" x.2 none))
    h registers.zipIdx g

/-- The interrupts of one more peripheral are added if they agree with all in front. -/
theorem Declared.gives_addInterrupts {loc : Location} {e : Element} {is : List Interrupt}
    (h : Agree Interrupt.name Interrupt.number is) (table : List Interrupt) :
    (addInterrupts loc (firsts Interrupt.name is) e).Gives table
      ↔ ∃ own, (interrupts e loc).Gives own
          ∧ Agree Interrupt.name Interrupt.number (is ++ own)
          ∧ table = firsts Interrupt.name (is ++ own) :=
  gives_foldlM_entries (fun table => table)
    (fun x : Element × Nat => Interrupt.merge (loc.child "interrupt" x.2 none))
    (fun _ _ _ _ => Interrupt.gives_merge) (fun x => interrupt x.1 (loc.child "interrupt" x.2 none))
    h (e.childrenNamed "interrupt").zipIdx table

/-- Filling a group changes that group only, and puts it at the end if it is new. -/
theorem Group.gives_fill {name : String} {step : Group → Checked Group} {names : List String}
    {registers : String → List Register} (hnodup : names.Nodup)
    (hnew : name ∉ names → registers name = []) {gs : List Group} :
    (Group.fill name step (names.map fun n => ⟨n, registers n⟩)).Gives gs
      ↔ ∃ g, (step ⟨name, registers name⟩).Gives g
          ∧ gs = (if name ∈ names then names else names ++ [name]).map
              fun n => if n = name then g else ⟨n, registers n⟩ := by
  induction names generalizing gs with
  | nil =>
    rw [hnew List.not_mem_nil]
    simp [Group.fill, Group.empty, eq_comm]
  | cons n names ih =>
    obtain ⟨hn, hnodup'⟩ := List.nodup_cons.1 hnodup
    rw [List.map_cons, Group.fill]
    by_cases heq : n = name
    · subst heq
      -- behind the group that is filled there is none of its name
      have hrest : ∀ g : Group, names.map (fun m => if m = n then g else ⟨m, registers m⟩)
          = names.map fun m => (⟨m, registers m⟩ : Group) := by
        intro g
        refine List.map_congr_left fun m hm => if_neg ?_
        exact fun hmn => hn (hmn ▸ hm)
      simp only [if_true, Checked.gives_bind, Checked.gives_pure, List.map_cons, hrest,
        if_pos (List.mem_cons_self (a := n))]
      constructor
      · intro h
        obtain ⟨g, hg, hgs⟩ := h
        exact ⟨g, hg, hgs.symm⟩
      · intro h
        obtain ⟨g, hg, hgs⟩ := h
        exact ⟨g, hg, hgs.symm⟩
    · -- the group in front is kept, and the step goes to one of the others
      have hmem : name ∈ n :: names ↔ name ∈ names := by
        rw [List.mem_cons]
        exact or_iff_right fun h => heq h.symm
      have hmap : ∀ g : Group, (if name ∈ n :: names then n :: names else n :: names ++ [name]).map
          (fun m => if m = name then g else ⟨m, registers m⟩)
          = ⟨n, registers n⟩ :: (if name ∈ names then names else names ++ [name]).map
            fun m => if m = name then g else ⟨m, registers m⟩ := by
        intro g
        simp only [hmem]
        split <;> simp [heq]
      simp only [heq, if_false, hmap]
      simp only [Checked.gives_bind, Checked.gives_pure, ih hnodup' fun h => hnew (hmem.not.2 h)]
      constructor
      · intro h
        obtain ⟨gs', ⟨g, hg, hgs'⟩, hgs⟩ := h
        exact ⟨g, hg, by rw [← hgs, hgs']⟩
      · intro h
        obtain ⟨g, hg, hgs⟩ := h
        exact ⟨_, ⟨g, hg, rfl⟩, hgs.symm⟩

/-- A peripheral adds its registers to the group it fills and to no other one. -/
theorem Part.coherent_registers_concat {ps : List Part} {p : Part} {group : String}
    (h : Coherent ps) (hp : p.group? = some group) :
    (∀ g, Agree Register.name Register.offset (groupRegisters (ps ++ [p]) g))
      ↔ Agree Register.name Register.offset (groupRegisters ps group ++ p.registers) := by
  have hown : registersIn group p = p.registers := if_pos hp
  constructor
  · intro hall
    have := hall group
    rwa [groupRegisters_concat, hown] at this
  · intro hgroup g
    rw [groupRegisters_concat]
    -- the registers of other groups stay what they were
    by_cases hg : g = group
    · rw [hg, hown]
      exact hgroup
    · have hnone : registersIn g p = [] := if_neg fun h' => hg (Option.some.inj (h'.symm.trans hp))
      rw [hnone, List.append_nil]
      exact h.registers g

/-- One more peripheral extends its own group, or begins it, and leaves the others. -/
theorem Part.groups_concat_owned {ps : List Part} {p : Part} {group : String}
    (hp : p.group? = some group) :
    groups (ps ++ [p])
      = (if group ∈ groupNames ps then groupNames ps else groupNames ps ++ [group]).map fun n =>
          if n = group then ⟨group, firsts Register.name (groupRegisters ps group ++ p.registers)⟩
          else ⟨n, firsts Register.name (groupRegisters ps n)⟩ := by
  rw [groups, groupNames_concat_owned hp]
  apply List.map_congr_left
  intro n _
  rw [groupRegisters_concat]
  -- only the group of the last part gets more registers
  by_cases hn : n = group
  · rw [if_pos hn, hn, registersIn, if_pos hp]
  · have hnone : registersIn n p = [] := if_neg fun h' => hn (Option.some.inj (h'.symm.trans hp))
    rw [if_neg hn, hnone, List.append_nil]

/-- A derived peripheral leaves the groups as they are. -/
theorem Part.groups_concat_derived {ps : List Part} {p : Part} (hp : p.group? = none) :
    groups (ps ++ [p]) = groups ps := by
  rw [groups, groups, groupNames_concat_derived hp]
  apply List.map_congr_left
  intro n _
  have hnone : registersIn n p = [] := if_neg (by simp [hp])
  rw [groupRegisters_concat, hnone, List.append_nil]

/-- The groups are filled if the registers of the peripheral agree with those of its group. -/
theorem Draft.gives_fillGroups {ps : List Part} (h : Part.Coherent ps) (e : Element)
    (d : Declaration) (is : List Interrupt) (loc : Location) (gs : List Group) :
    (fillGroups (Part.groups ps) d (e.nested "registers" "register") loc).Gives gs
      ↔ ∃ own, (Declared.ownRegisters e d loc).Gives own
          ∧ (∀ g, Agree Register.name Register.offset
              (Part.groupRegisters (ps ++ [⟨d, is, own⟩]) g))
          ∧ gs = Part.groups (ps ++ [⟨d, is, own⟩]) := by
  unfold fillGroups Declared.ownRegisters
  cases hl : d.layout with
  | owned group =>
    have hp : ∀ own, (⟨d, is, own⟩ : Part).group? = some group := by
      intro own
      simp [Part.group?, Declaration.group?, hl]
    have hnew : group ∉ Part.groupNames ps →
        firsts Register.name (Part.groupRegisters ps group) = [] := by
      intro hg
      rw [Part.groupRegisters_eq_nil hg]
      rfl
    rw [Part.groups, Group.gives_fill (Part.nodup_groupNames ps) hnew]
    simp only [Declared.gives_addLayout (h.registers group), Checked.gives_map]
    -- the group agrees exactly if all do, since the others are as they were
    constructor
    · intro h
      obtain ⟨g, ⟨rows, hrows, hagree, hg⟩, hgs⟩ := h
      refine ⟨rows.flatten, ⟨rows, hrows, rfl⟩, ?_, ?_⟩
      · exact (Part.coherent_registers_concat h (hp _)).2 hagree
      · rw [Part.groups_concat_owned (hp _), hgs, hg]
    · intro h
      obtain ⟨own, ⟨rows, hrows, hown⟩, hagree, hgs⟩ := h
      subst hown
      refine ⟨_, ⟨rows, hrows, ?_, rfl⟩, ?_⟩
      · exact (Part.coherent_registers_concat h (hp _)).1 hagree
      · rw [hgs, Part.groups_concat_owned (hp _)]
  | derived parent =>
    have hp : ∀ own, (⟨d, is, own⟩ : Part).group? = none := by
      intro own
      simp [Part.group?, Declaration.group?, hl]
    -- registers under a derived peripheral belong to no group and are not read
    have hregisters : ∀ own g, Part.groupRegisters (ps ++ [⟨d, is, own⟩]) g
        = Part.groupRegisters ps g := by
      intro own g
      rw [Part.groupRegisters_concat, Part.registersIn, hp, if_neg (by simp), List.append_nil]
    simp only [Checked.gives_noteIf, Checked.gives_pure, hregisters,
      Part.groups_concat_derived (hp _)]
    constructor
    · intro hgs
      exact ⟨[], rfl, h.registers, hgs.symm⟩
    · intro h
      obtain ⟨_, _, _, hgs⟩ := h
      exact hgs.symm

/-- The draft that has read some parts. -/
def Draft.ofParts (ps : List Part) : Draft :=
  ⟨ps.map Part.declaration, Part.groups ps, firsts Interrupt.name (Part.allInterrupts ps)⟩

/-- A peripheral that is read into a draft is read on its own and then compared with what
    is there. -/
theorem Draft.gives_addPeripheral {ps : List Part} (h : Part.Coherent ps) (e : Element) (i : Nat)
    (draft : Draft) :
    ((ofParts ps).addPeripheral e i).Gives draft
      ↔ ∃ p, (Declared.part e i).Gives p ∧ Part.Coherent (ps ++ [p]) ∧ draft = ofParts (ps ++ [p]) := by
  unfold addPeripheral Declared.part ofParts
  simp only [Checked.gives_bind, Checked.gives_pure, Checked.gives_note, Checked.gives_noteAll,
    Declared.gives_addInterrupts h.interrupts]
  constructor
  · intro h
    -- its declaration, its interrupts and its registers, in the order of the program
    obtain ⟨d, hd, _, _, table, ⟨is, his, hagree, htable⟩, gs, hgs, _, _, hdraft⟩ := h
    obtain ⟨own, hown, hregisters, hgroups⟩ := (gives_fillGroups h e d is _ gs).1 hgs
    refine ⟨⟨d, is, own⟩, ⟨d, hd, is, his, own, hown, rfl⟩, ⟨hregisters, ?_⟩, ?_⟩
    · rwa [Part.allInterrupts_concat]
    · rw [← hdraft, hgroups, htable, Part.allInterrupts_concat, List.map_append]
      rfl
  · intro h
    obtain ⟨p, ⟨d, hd, is, his, own, hown, hp⟩, hcoherent, hdraft⟩ := h
    -- the same parts, put together to the steps of the program
    subst hp
    have hagree := hcoherent.interrupts
    rw [Part.allInterrupts_concat] at hagree hdraft
    refine ⟨d, hd, (), trivial, _, ⟨is, his, hagree, rfl⟩, _,
      (gives_fillGroups h e d is _ _).2 ⟨own, hown, hcoherent.registers, rfl⟩, (), trivial, ?_⟩
    rw [hdraft, List.map_append]
    rfl

/-! ## The whole description -/

/-- No peripherals are coherent. -/
theorem Part.coherent_nil : Coherent [] where
  registers _ := agree_nil
  interrupts := agree_nil

/-- The pass over the peripherals is reading all of them on their own and then comparing
    them. -/
theorem Draft.gives_addPeripherals {e : Element} {draft : Draft} :
    (empty.addPeripherals e).Gives draft
      ↔ ∃ ps, (Declared.parts e).Gives ps ∧ Part.Coherent ps ∧ draft = ofParts ps := by
  -- the loop may start behind any parts that are coherent
  have loop : ∀ (xs : List (Element × Nat)) {ps : List Part}, Part.Coherent ps →
      ((xs.foldlM (fun (draft : Draft) x => draft.addPeripheral x.1 x.2) (ofParts ps)).Gives draft
        ↔ ∃ qs, (xs.mapM fun x => Declared.part x.1 x.2).Gives qs ∧ Part.Coherent (ps ++ qs)
            ∧ draft = ofParts (ps ++ qs)) := by
    intro xs
    induction xs with
    | nil =>
      intro ps h
      rw [Checked.gives_foldlM_nil, List.mapM_nil]
      simp only [Checked.gives_pure, exists_eq_left', List.append_nil]
      exact ⟨fun hd => ⟨h, hd.symm⟩, fun hd => hd.2.symm⟩
    | cons x xs ih =>
      intro ps h
      simp only [Checked.gives_foldlM_cons, List.mapM_cons, Checked.gives_bind, Checked.gives_pure]
      constructor
      · intro h
        obtain ⟨u, hu, hdraft⟩ := h
        obtain ⟨p, hp, hcoherent, hup⟩ := (gives_addPeripheral h x.1 x.2 u).1 hu
        subst hup
        obtain ⟨qs, hqs, hall, heq⟩ := (ih hcoherent).1 hdraft
        rw [List.append_assoc] at hall heq
        exact ⟨p :: qs, ⟨p, hp, qs, hqs, rfl⟩, hall, heq⟩
      · intro h
        obtain ⟨_, ⟨p, hp, qs, hqs, hps⟩, hall, heq⟩ := h
        subst hps
        rw [List.append_cons] at hall heq
        -- a fault of the first peripheral would be one of the whole list
        have hcoherent : Part.Coherent (ps ++ [p]) := hall.of_append
        exact ⟨ofParts (ps ++ [p]), (gives_addPeripheral h x.1 x.2 _).2 ⟨p, hp, hcoherent, rfl⟩,
          (ih hcoherent).2 ⟨qs, hqs, hall, heq⟩⟩
  exact loop _ Part.coherent_nil

/-- What the root element of a description has to say for a device, and which one it is. -/
theorem Device.gives_ofElement {e : Element} {d : Device} :
    (ofElement e).Gives d
      ↔ ∃ w ps peripherals, Declared.width e = .ok w ∧ (Declared.parts e).Gives ps
          ∧ Part.Coherent ps ∧ (Alias.linkAll (ps.map Part.declaration)).Gives peripherals
          ∧ d = ⟨e.childText? "name", w, peripherals, Part.groups ps,
              Interrupt.vectors (firsts Interrupt.name (Part.allInterrupts ps))⟩ := by
  unfold ofElement Draft.finish Interrupt.reconcile
  simp only [Checked.gives_bind, Checked.gives_pure, Checked.gives_note, Checked.gives_noteAll,
    Checked.gives_ofExcept, Draft.gives_addPeripherals]
  constructor
  · -- the notices on the way give no result, so the blanks stand for them
    intro h
    obtain ⟨w, hw, draft, ⟨ps, hps, hcoherent, hdraft⟩, peripherals, hlink, is, hvectors, _, _, hd⟩ := h
    obtain ⟨_, _, his⟩ := hvectors
    subst hdraft his
    exact ⟨w, ps, peripherals, hw, hps, hcoherent, hlink, hd.symm⟩
  · intro h
    obtain ⟨w, ps, peripherals, hw, hps, hcoherent, hlink, hd⟩ := h
    exact ⟨w, hw, _, ⟨ps, hps, hcoherent, rfl⟩, peripherals, hlink, _, ⟨(), trivial, rfl⟩, (),
      trivial, hd.symm⟩

/-- A text gives the device of its root. -/
theorem Device.gives_ofText {text : String} {d : Device} :
    (ofText text).Gives d ↔ ∃ e, Xml.Document.parse? text = some e ∧ (ofElement e).Gives d := by
  simp only [ofText, Checked.gives_bind, Checked.gives_require]

/-! ## When a description compiles -/

/-- A description with a valid width compiles exactly if every peripheral is well formed on
    its own, no two of them contradict each other, and every derived one has a parent with
    registers. Its groups then are those that the peripherals fill, in the order of their
    first use, each with the first register of every name. -/
theorem Device.compiles_iff_coherent {text : String} {e : Element} {w : Width}
    (he : Xml.Document.parse? text = some e) (hw : Declared.width e = .ok w) :
    ((∃ d, (ofText text).Gives d)
        ↔ ∃ ps, List.Forall₂ (fun x p => (Declared.part x.1 x.2).Gives p)
              (e.nested "peripherals" "peripheral").zipIdx ps
            ∧ Part.Coherent ps
            ∧ ∃ peripherals, (Alias.linkAll (ps.map Part.declaration)).Gives peripherals)
      ∧ ∀ d ps, (ofText text).Gives d → (Declared.parts e).Gives ps → d.groups = Part.groups ps := by
  have hgives : ∀ d, (ofText text).Gives d ↔ (ofElement e).Gives d := by
    intro d
    rw [gives_ofText, he]
    simp
  constructor
  · constructor
    · intro h
      obtain ⟨d, hd⟩ := h
      rw [hgives, gives_ofElement] at hd
      obtain ⟨_, ps, peripherals, _, hps, hcoherent, hlink, _⟩ := hd
      exact ⟨ps, Checked.gives_mapM.1 hps, hcoherent, peripherals, hlink⟩
    · intro h
      obtain ⟨ps, hps, hcoherent, peripherals, hlink⟩ := h
      have hd := gives_ofElement.2 ⟨w, ps, peripherals, hw, Checked.gives_mapM.2 hps, hcoherent,
        hlink, rfl⟩
      exact ⟨_, (hgives _).2 hd⟩
  · -- the peripherals that were read are the only ones
    intro d ps hd hps
    rw [hgives, gives_ofElement] at hd
    obtain ⟨_, qs, _, _, hqs, _, _, hd⟩ := hd
    rw [hd, hps.unique hqs]

/-- A description of two ports that share a group and of a third one that is derived. The
    second port repeats a register and an interrupt of the first one. -/
def Device.portsText : String :=
  "<device><name>Ports</name><width>32</width><peripherals>
    <peripheral><name>PA</name><groupName>PORT</groupName><baseAddress>0x40020000</baseAddress>
      <interrupt><name>PIN</name><value>2</value></interrupt>
      <registers>
        <register><name>MODE</name><addressOffset>0x0</addressOffset></register>
        <register><name>OUT</name><description>output  data</description>
          <addressOffset>0x14</addressOffset><fields>
            <field><name>LOW</name><bitOffset>0</bitOffset><bitWidth>8</bitWidth></field>
          </fields></register>
      </registers></peripheral>
    <peripheral derivedFrom='PA'><name>PC</name><baseAddress>0x40020800</baseAddress></peripheral>
    <peripheral><name>PB</name><groupName>PORT</groupName><baseAddress>0xFFFFFFF0</baseAddress>
      <interrupt><name>PIN</name><value>2</value></interrupt>
      <registers>
        <register><name>OUT</name><addressOffset>0x14</addressOffset></register>
        <register><name>IN</name><addressOffset>0x4</addressOffset></register>
      </registers></peripheral>
  </peripherals></device>"

/-- The device with the three ports. -/
def Device.ports : Device where
  name := some "Ports"
  width := .w32
  peripherals :=
    [⟨"PA", "PORT", none, 0x40020000, none⟩, ⟨"PC", "PORT", some "PA", 0x40020800, none⟩,
      ⟨"PB", "PORT", none, 0xFFFFFFF0, none⟩]
  groups :=
    [⟨"PORT", [⟨"MODE", 0, none, none, []⟩,
      ⟨"OUT", 0x14, none, some "Output data", [⟨"LOW", 0, 8, none⟩]⟩, ⟨"IN", 4, none, none, []⟩]⟩]
  interrupts := [.placeholder 0, .placeholder 1, ⟨"PIN", 2, none, true⟩]

/-- The description gives the ports. -/
theorem Device.gives_ports : (ofText portsText).Gives ports := by
  unfold portsText ofText Xml.Document.parse?
  rw [String.toList_ofList]
  decide +kernel

/-- The peripherals of the ports are coherent. -/
theorem Device.compiles_iff_coherent_ports :
    ∃ e ps, Xml.Document.parse? portsText = some e ∧ Declared.width e = .ok .w32
      ∧ (Declared.parts e).Gives ps ∧ Part.Coherent ps ∧ ports.groups = Part.groups ps := by
  obtain ⟨e, he, h⟩ := gives_ofText.1 gives_ports
  obtain ⟨w, _, _, hw, _, _, _, hports⟩ := gives_ofElement.1 h
  -- the width is that of the device
  have hw : Declared.width e = .ok .w32 := hw.trans (congrArg Except.ok (congrArg width hports).symm)
  obtain ⟨hcompiles, hgroups⟩ := compiles_iff_coherent he hw
  obtain ⟨ps, hps, hcoherent, _⟩ := hcompiles.1 ⟨ports, gives_ports⟩
  have hps := Checked.gives_mapM.2 hps
  exact ⟨e, ps, he, hw, hps, hcoherent, hgroups ports ps gives_ports hps⟩

end RegisterMap
