import RegisterMap.Proofs.Listing.RoundTrip

/-!
# Reading tables back

The tables of a listing are the modules that stand inside others: one for every
group that is shown, and one for the fields of every register that is shown with
them. A table is read under the path of its module, and nothing else is.

- `Device.ShowsGroup`, `Device.ShowsFields`: a group, and the fields of a
  register, have a module of their own
- `ShowsGroup.entriesIn_eq`, `ShowsFields.entriesIn_eq`: the constants of that
  module
-/

namespace RegisterMap

open FirstWins
open Name (AllWordChars)

namespace Listing

/-! ## Paths of inner modules -/

/-- The path of an inner module tells the names of both modules. -/
theorem pathName_inner_inj {a b c d : String} (ha : AllWordChars a) (hc : AllWordChars c) :
    Reader.pathName [a, b] = Reader.pathName [c, d] ↔ a = c ∧ b = d := by
  constructor
  · intro h
    have hpath : (a ++ "::" ++ b).toList = (c ++ "::" ++ d).toList := congrArg String.toList h
    have hmark : "::".toList = [':', ':'] := by decide
    simp only [String.toList_append, hmark, List.append_assoc, List.cons_append,
      List.nil_append] at hpath
    -- no name holds a colon, so the outer name ends in front of the first one
    have houter : ∀ s, AllWordChars s → ∀ rest,
        (s.toList ++ ':' :: rest).takeWhile (· ≠ ':') = s.toList := by
      intro s hs rest
      have hcolon : ∀ b ∈ s.toList, decide (b ≠ ':') = true := by
        intro b hb
        refine decide_eq_true fun heq => ?_
        exact absurd (hs ':' (heq ▸ hb)) (by decide)
      rw [List.takeWhile_append_of_pos hcolon, List.takeWhile_cons_of_neg (by decide),
        List.append_nil]
    have hac : a.toList = c.toList := by
      rw [← houter a ha (':' :: b.toList), hpath, houter c hc]
    rw [hac] at hpath
    have htail := List.append_cancel_left hpath
    exact ⟨String.toList_inj.1 hac, String.toList_inj.1 (List.cons.inj (List.cons.inj htail).2).2⟩
  · intro h
    rw [h.1, h.2]

/-- The entries of a table stand in its module under that of its parent. -/
theorem entriesIn_table_inner {outer inner base : String} (houter : AllWordChars outer)
    (hbase : AllWordChars base) (t : Table) :
    entriesIn (Reader.pathName [outer, inner]) (t.entries [base])
      = if base = outer ∧ t.name = inner then t.entries [base] else [] := by
  rw [Table.entries, entriesIn_map_entry]
  exact if_congr (pathName_inner_inj hbase houter) rfl rfl

/-- Of tables with different names, one is read under the path of its module. -/
theorem entriesIn_tables {base : String} (hbase : AllWordChars base) {ts : List Table}
    (hnodup : (ts.map Table.name).Nodup) {t : Table} (ht : t ∈ ts) :
    entriesIn (Reader.pathName [base, t.name]) (ts.flatMap (Table.entries [base]))
      = t.entries [base] := by
  have hothers : ∀ u ∈ ts, u.name ≠ t.name →
      entriesIn (Reader.pathName [base, t.name]) (u.entries [base]) = [] := by
    intro u _ hu
    rw [entriesIn_table_inner hbase hbase, if_neg fun h => hu h.2]
  rw [entriesIn_flatMap, flatMap_of_nodup hnodup ht hothers, entriesIn_table_inner hbase hbase,
    if_pos ⟨rfl, rfl⟩]

/-- The tables of one module are not read under the path of another one. -/
theorem entriesIn_tables_of_ne {outer inner base : String} (houter : AllWordChars outer)
    (hbase : AllWordChars base) (hne : base ≠ outer) (ts : List Table) :
    entriesIn (Reader.pathName [outer, inner]) (ts.flatMap (Table.entries [base])) = [] := by
  rw [entriesIn_flatMap]
  refine List.flatMap_eq_nil_iff.2 fun t _ => ?_
  rw [entriesIn_table_inner houter hbase, if_neg fun h => hne h.1]

/-! ## The tables of a peripheral -/

/-- The tables that are written in the module of a peripheral. -/
def PeripheralModule.tables (m : PeripheralModule) : List Table :=
  (contents (m.registers.map RegisterEntry.fields)).filterMap id

/-- Inside the module of a peripheral, an inner path leads to the tables. -/
theorem entriesIn_inner_peripheralModule {outer inner : String} {m : PeripheralModule}
    (hm : AllWordChars m.name) :
    entriesIn (Reader.pathName [outer, inner]) m.entries
      = entriesIn (Reader.pathName [outer, inner]) (m.tables.flatMap (Table.entries [m.name])) := by
  -- the constants of the module itself have a path of one name
  have hconstants : ∀ cs : List Constant,
      entriesIn (Reader.pathName [outer, inner]) (cs.map (Constant.entry [m.name])) = [] := by
    intro cs
    rw [entriesIn_map_entry]
    exact if_neg fun h => pathName_inner_ne hm outer inner h.symm
  have htables : m.tables.flatMap (Table.entries [m.name])
      = m.registers.flatMap fun e => (contents [e.fields]).flatMap fun fields =>
          fields.toList.flatMap (Table.entries [m.name]) := by
    rw [PeripheralModule.tables, List.filterMap_eq_flatMap_toList, contents_map, List.flatMap_assoc,
      List.flatMap_assoc]
    rfl
  rw [PeripheralModule.entries, entriesIn_append, hconstants, List.nil_append, htables,
    entriesIn_flatMap, entriesIn_flatMap]
  refine List.flatMap_congr fun e _ => ?_
  rw [RegisterEntry.entries, entriesIn_append, hconstants, List.nil_append]

/-- A register without fields claims no module. -/
theorem fieldsItem_eq_unnamed (w : Width) {r : Register} (h : r.fields = []) :
    fieldsItem w r = .written ⟨r.name, none, none⟩ :=
  if_pos (by simp [h])

/-- A register with fields claims one of its name. -/
theorem fieldsItem_eq_named (w : Width) {r : Register} (h : r.fields ≠ []) :
    fieldsItem w r = .written ⟨r.name, some (Name.toModule r.name), some (Table.ofFields w r)⟩ :=
  if_neg (by simp [h])

/-- The name that is claimed is that of the table. -/
theorem name_of_fieldsItem {w : Width} {rs : List Register} :
    ∀ item ∈ contents (rs.map (fieldsItem w)), item.name = item.content.map Table.name := by
  intro item hitem
  obtain ⟨r, _, hr⟩ := List.mem_map.1 (mem_contents.1 hitem)
  -- without fields there is neither a table nor a name
  by_cases h : r.fields = []
  · rw [fieldsItem_eq_unnamed w h] at hr
    rw [← Verdict.written.inj hr]
    rfl
  · rw [fieldsItem_eq_named w h] at hr
    rw [← Verdict.written.inj hr]
    rfl

/-- The tables of a peripheral are those of its registers that have fields. -/
theorem filterMap_fieldsItems (w : Width) (rs : List Register) :
    ((contents (rs.map (fieldsItem w))).map Item.content).filterMap id
      = (rs.filter fun r => r.fields ≠ []).map (Table.ofFields w) := by
  induction rs with
  | nil => rfl
  | cons r rs ih =>
    -- a register without fields adds nothing on either side
    by_cases h : r.fields = []
    · rw [List.map_cons, fieldsItem_eq_unnamed w h, contents_written,
        List.filter_cons_of_neg (by simp [h]), ← ih]
      rfl
    · rw [List.map_cons, fieldsItem_eq_named w h, contents_written,
        List.filter_cons_of_pos (by simp [h]), List.map_cons, List.map_cons, ← ih]
      rfl

/-- The fields that are written are those of registers that have any, the first table of every
    name. -/
theorem tables_ofPeripheral (w : Width) (p : Peripheral) (rs : List Register) :
    (PeripheralModule.ofPeripheral w p rs).tables
      = firsts Table.name ((rs.filter fun r => r.fields ≠ []).map (Table.ofFields w)) := by
  have hregisters : (PeripheralModule.ofPeripheral w p rs).registers.map RegisterEntry.fields
      = claim [] (rs.map (fieldsItem w)) := (map_registerEntries w p rs).2
  rw [PeripheralModule.tables, hregisters, filterMap_contents_claim name_of_fieldsItem,
    filterMap_fieldsItems]
  exact List.filter_eq_self.2 fun t _ => rfl

/-! ## The tables of the groups -/

/-- The tables that are written for the groups: the first one of every name. -/
theorem contents_groups (w : Width) (gs : List Group) :
    contents (claim [] (gs.map (groupItem w))) = firsts Table.name (gs.map (Table.ofGroup w)) := by
  have hfamily : Family Table.name (Table.ofGroup w) (fun _ => True) (groupItem w) :=
    ⟨fun g _ => ⟨g.name, rfl⟩, fun _ h => absurd trivial h⟩
  rw [hfamily.contents_claim]
  simp

/-- The offsets of a group are written or omitted as they fit in the width. -/
theorem family_offsetItem (w : Width) (group : String) :
    Family Constant.name (fun r => ⟨Name.toConstant r.name, .address r.offset, r.description⟩)
      (fun r => r.offset ≤ w.maxValue) (offsetItem w group) where
  written _ h := ⟨_, within_of_le h _ _⟩
  omitted _ h := ⟨_, within_of_lt (Nat.lt_of_not_le h) _ _⟩

end Listing

namespace Device

open Listing

/-! ## Groups and fields that are shown -/

/-- A group has a module in a listing of groups: no group in front of it takes the name of the
    module. -/
def ShowsGroup (d : Device) (g : Group) : Prop :=
  ∃ before after, d.groups = before ++ g :: after
    ∧ ∀ h ∈ before, Name.toModule h.name ≠ Name.toModule g.name

/-- The fields of a register have a module inside that of a peripheral: there are any, and no
    register with fields in front of it takes the name of the module. -/
structure ShowsFields (d : Device) (p : Peripheral) (r : Register) : Prop where
  mem : r ∈ d.registersOf p.group
  nonempty : r.fields ≠ []
  first : ∀ q ∈ d.registersOf p.group, [q, r].Sublist (d.registersOf p.group) → q.fields ≠ [] →
    Name.toModule q.name ≠ Name.toModule r.name

variable {d : Device} {o : Options} {p : Peripheral}

/-- A group that is shown has its table in the listing. -/
theorem ShowsGroup.mem_contents {g : Group} (h : d.ShowsGroup g) :
    Table.ofGroup d.width g ∈ contents (claim [] (d.groups.map (groupItem d.width))) := by
  obtain ⟨before, after, hd, hbefore⟩ := h
  -- the search for the name passes the groups in front
  have hnone : before.find? (fun h => Name.toModule h.name == Name.toModule g.name) = none := by
    apply List.find?_eq_none.2
    intro h hmem hname
    exact hbefore h hmem (beq_iff_eq.1 hname)
  rw [contents_groups, mem_firsts_iff, Table.name_ofGroup, find?, List.find?_map, hd,
    List.find?_append]
  simp only [Function.comp_def, Table.name_ofGroup, hnone, Option.none_or]
  rw [List.find?_cons_of_pos (by simp), Option.map_some]

/-- A register whose fields are shown has its table in the peripheral. -/
theorem ShowsFields.mem_tables {r : Register} (h : d.ShowsFields p r) :
    Table.ofFields d.width r
      ∈ (PeripheralModule.ofPeripheral d.width p (d.registersOf p.group)).tables := by
  have hself : r.fields ≠ [] ∧ Name.toModule r.name = Name.toModule r.name := ⟨h.nonempty, rfl⟩
  obtain ⟨q, hq, hfirst, hqr⟩ := exists_find?_of_mem
    (P := fun q : Register => q.fields ≠ [] ∧ Name.toModule q.name = Name.toModule r.name) h.mem
    hself
  obtain ⟨hfields, hname⟩ := hfirst
  -- a register in front of it would take the module
  have heq : q = r := hqr.resolve_right fun hfront =>
    h.first q (List.mem_of_find?_eq_some hq) hfront hfields hname
  rw [heq] at hq
  rw [tables_ofPeripheral, mem_firsts_iff, Table.name_ofFields, find?, List.find?_map,
    List.find?_filter]
  simp only [Function.comp_def, Table.name_ofFields]
  have hpred : (fun q : Register => decide (decide (q.fields ≠ []) = true
      ∧ (Name.toModule q.name == Name.toModule r.name) = true))
      = fun q => decide (q.fields ≠ [] ∧ Name.toModule q.name = Name.toModule r.name) := by
    funext q
    simp
  rw [hpred, hq, Option.map_some]

/-! ## What is read in a table -/

/-- The modules of the peripherals are named by words. -/
theorem allWordChars_of_mem_peripherals (hd : d.WellFormed) {m : PeripheralModule}
    (hm : m ∈ contents (d.listing o).peripherals) : AllWordChars m.name := by
  rw [contents_peripherals, List.mem_filter] at hm
  obtain ⟨q, hq, hqm⟩ := List.mem_map.1 (mem_of_mem_firsts hm.1)
  have hname := (hd.peripherals q (List.mem_of_mem_filter hq)).name
  rw [← hqm, PeripheralModule.name_ofPeripheral]
  exact Name.allWordChars_toModule (Name.allWordChars_of_isWord hname)

/-- The interrupts and the modules of other peripherals say nothing under the path of an inner
    module. -/
theorem entriesIn_inner_listing {outer inner : String} (hd : d.WellFormed)
    (houter : AllWordChars outer) :
    entriesIn (Reader.pathName [outer, inner]) (d.listing o).entries
      = (d.listing o).groups.toList.flatMap (fun groups =>
          entriesIn (Reader.pathName [outer, inner])
            ((contents groups).flatMap (Table.entries ["groups"])))
        ++ (contents (d.listing o).peripherals).flatMap fun m =>
          if m.name = outer then
            entriesIn (Reader.pathName [outer, inner]) (m.tables.flatMap (Table.entries [m.name]))
          else [] := by
  -- the interrupts have no module under theirs
  have hvectors : (d.listing o).interrupts.toList.flatMap (fun vectors =>
      entriesIn (Reader.pathName [outer, inner]) ((contents vectors).flatMap Vector.entries)) = [] := by
    refine List.flatMap_eq_nil_iff.2 fun vectors _ => ?_
    rw [entriesIn_flatMap]
    refine List.flatMap_eq_nil_iff.2 fun v _ => ?_
    exact entriesIn_vector (pathName_inner_ne (by decide) outer inner) v
  -- a peripheral of another name has none of the entries
  have hperipherals : (contents (d.listing o).peripherals).flatMap (fun m =>
      entriesIn (Reader.pathName [outer, inner]) m.entries)
      = (contents (d.listing o).peripherals).flatMap fun m =>
          if m.name = outer then
            entriesIn (Reader.pathName [outer, inner]) (m.tables.flatMap (Table.entries [m.name]))
          else [] := by
    refine List.flatMap_congr fun m hm => ?_
    have hname := allWordChars_of_mem_peripherals hd hm
    rw [entriesIn_inner_peripheralModule hname]
    split
    · rfl
    · next hne => exact entriesIn_tables_of_ne houter hname hne m.tables
  rw [entries, entriesIn_append, entriesIn_append, entriesIn_flatMap, entriesIn_flatMap,
    entriesIn_flatMap, hvectors, hperipherals, List.append_nil]

/-- The constants that are read in the module of a group are the offsets of its registers. -/
theorem ShowsGroup.entriesIn_eq {g : Group} (h : d.ShowsGroup g) (hd : d.WellFormed)
    (ho : o.groups = true) :
    entriesIn (Reader.pathName ["groups", Name.toModule g.name]) (d.listing o).entries
      = (Table.ofGroup d.width g).entries ["groups"] := by
  have hgroups : d.groups ≠ [] := by
    obtain ⟨before, after, heq, _⟩ := h
    rw [heq]
    exact List.append_ne_nil_of_right_ne_nil _ (List.cons_ne_nil _ _)
  have hlisting : (d.listing o).groups = some (claim [] (d.groups.map (groupItem d.width))) :=
    if_pos (by simp [ho, hgroups])
  have hnodup : ((contents (claim [] (d.groups.map (groupItem d.width)))).map Table.name).Nodup := by
    rw [contents_groups]
    exact nodup_firsts _
  -- a peripheral of that name would not be shown, so no other module has the path
  have hothers : (contents (d.listing o).peripherals).flatMap (fun m =>
      if m.name = "groups" then
        entriesIn (Reader.pathName ["groups", Name.toModule g.name])
          (m.tables.flatMap (Table.entries [m.name]))
      else []) = [] :=
    List.flatMap_eq_nil_iff.2 fun m hm => if_neg (name_ne_groups ho hgroups hm)
  have hbase : AllWordChars "groups" := by decide
  have htable := entriesIn_tables hbase hnodup h.mem_contents
  rw [Table.name_ofGroup] at htable
  rw [entriesIn_inner_listing hd hbase, hothers, hlisting, List.append_nil,
    Option.toList_some, List.flatMap_singleton, htable]

/-- The constants that are read in the module of the fields of a register are the bit offsets of
    its fields. -/
theorem ShowsFields.entriesIn_eq {r : Register} (h : d.ShowsFields p r) (hp : d.Shows o p)
    (hd : d.WellFormed) :
    entriesIn (Reader.pathName [Name.toModule p.name, Name.toModule r.name]) (d.listing o).entries
      = (Table.ofFields d.width r).entries [Name.toModule p.name] := by
  have hmodule := hp.mem_contents
  have hname : (PeripheralModule.ofPeripheral d.width p (d.registersOf p.group)).name
      = Name.toModule p.name := PeripheralModule.name_ofPeripheral _ _ _
  have hwords : AllWordChars (Name.toModule p.name) :=
    hname ▸ allWordChars_of_mem_peripherals hd hmodule
  have hnodup : ((PeripheralModule.ofPeripheral d.width p (d.registersOf p.group)).tables.map
      Table.name).Nodup := by
    rw [tables_ofPeripheral]
    exact nodup_firsts _
  have htable := entriesIn_tables hwords hnodup h.mem_tables
  -- the module of the groups cannot have the name, since that would be reserved
  have hgroups : (d.listing o).groups.toList.flatMap (fun groups =>
      entriesIn (Reader.pathName [Name.toModule p.name, Name.toModule r.name])
        ((contents groups).flatMap (Table.entries ["groups"]))) = [] := by
    refine List.flatMap_eq_nil_iff.2 fun groups hgroups => ?_
    have hsome := Option.mem_toList.1 hgroups
    simp only [Device.listing, Option.ite_none_right_eq_some] at hsome
    have hemit : o.groups = true ∧ d.groups ≠ [] := by simpa using hsome.1
    have hne := name_ne_groups hemit.1 hemit.2 hmodule
    rw [hname] at hne
    exact entriesIn_tables_of_ne hwords (by decide) (Ne.symm hne) _
  -- of the peripherals, only this one has the outer name of the path
  rw [entriesIn_inner_listing hd hwords, hgroups, List.nil_append,
    flatMap_of_nodup (nodup_peripherals d o) hmodule fun m _ hm => if_neg (hname ▸ hm)]
  rw [Table.name_ofFields] at htable
  rw [if_pos hname, hname, htable]

end Device
end RegisterMap
