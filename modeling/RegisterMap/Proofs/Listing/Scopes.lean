import RegisterMap.Proofs.Listing.Outline
import RegisterMap.Proofs.Listing.Tables

/-!
# The scopes of a listing

No scope of a listing declares a name twice, as a constant or as a scope, and no
constant is beyond its integer type. There are six kinds of scopes: the top,
the groups, a group, a peripheral, the fields of a register and the interrupts.
For each of them it is said which constants and which scopes it declares, and
where their names come from: mostly from claims, which give a name once, but the
base address of a peripheral and the scopes beside the peripherals take theirs
without one.

- `IsScope`, `AllScopes`: one scope, and a tree of scopes of some depth
- `Device.allScopes_of_gives`: the scopes of a listing
-/

namespace RegisterMap

namespace Listing

open FirstWins

/-! ## Scopes -/

def Decl.constant? : Decl → Option TypedConstant
  | constant c => some c
  | scope _ _ => none

def Decl.scope? : Decl → Option (String × List Decl)
  | constant _ => none
  | scope name inside => some (name, inside)

/-- The constants that are declared in a scope. -/
def constantsOf (ds : List Decl) : List TypedConstant := ds.filterMap Decl.constant?

/-- The scopes that are declared in a scope. -/
def scopesOf (ds : List Decl) : List (String × List Decl) := ds.filterMap Decl.scope?

/-- In one scope nothing is declared twice, and the values are within the declared types. -/
structure IsScope (ds : List Decl) : Prop where
  constants : ((constantsOf ds).map TypedConstant.name).Nodup
  scopes : ((scopesOf ds).map Prod.fst).Nodup
  values : ∀ c ∈ constantsOf ds, c.value ≤ c.type.maxValue

/-- This holds of a scope and of all scopes inside it, which are at most `depth` deep. -/
def AllScopes : Nat → List Decl → Prop
  | 0, ds => IsScope ds ∧ scopesOf ds = []
  | depth + 1, ds => IsScope ds ∧ ∀ s ∈ scopesOf ds, AllScopes depth s.2

/-- A scope without inner ones may stand at any depth. -/
theorem AllScopes.of_zero {ds : List Decl} (h : AllScopes 0 ds) (depth : Nat) :
    AllScopes depth ds := by
  cases depth with
  | zero => exact h
  | succ depth =>
    refine ⟨h.1, ?_⟩
    rw [h.2]
    exact fun s hs => absurd hs List.not_mem_nil

/-! ### What is declared -/

/-- The constants and the scopes of declarations are those of the parts that they are put together
    from, and a constant and a scope are not taken for each other. -/
@[simp] theorem constantsOf_append (ds es : List Decl) :
    constantsOf (ds ++ es) = constantsOf ds ++ constantsOf es := List.filterMap_append ..

@[simp] theorem scopesOf_append (ds es : List Decl) :
    scopesOf (ds ++ es) = scopesOf ds ++ scopesOf es := List.filterMap_append ..

@[simp] theorem constantsOf_flatMap {α : Type} (as : List α) (f : α → List Decl) :
    constantsOf (as.flatMap f) = as.flatMap fun a => constantsOf (f a) := List.filterMap_flatMap ..

@[simp] theorem scopesOf_flatMap {α : Type} (as : List α) (f : α → List Decl) :
    scopesOf (as.flatMap f) = as.flatMap fun a => scopesOf (f a) := List.filterMap_flatMap ..

@[simp] theorem constantsOf_constantDecls (w : Width) (cs : List Constant) :
    constantsOf (constantDecls w cs) = cs.map (Constant.typed w) := by
  rw [constantsOf, constantDecls, List.filterMap_map]
  exact congrFun List.filterMap_eq_map cs

@[simp] theorem scopesOf_constantDecls (w : Width) (cs : List Constant) :
    scopesOf (constantDecls w cs) = [] := by
  rw [scopesOf, constantDecls, List.filterMap_map]
  exact List.filterMap_eq_nil_iff.2 fun _ _ => rfl

@[simp] theorem constantsOf_map_scope {α : Type} (as : List α) (name : α → String)
    (inside : α → List Decl) :
    constantsOf (as.map fun a => .scope (name a) (inside a)) = [] := by
  rw [constantsOf, List.filterMap_map]
  exact List.filterMap_eq_nil_iff.2 fun _ _ => rfl

@[simp] theorem scopesOf_map_scope {α : Type} (as : List α) (name : α → String)
    (inside : α → List Decl) :
    scopesOf (as.map fun a => .scope (name a) (inside a)) = as.map fun a => (name a, inside a) := by
  rw [scopesOf, List.filterMap_map]
  exact congrFun List.filterMap_eq_map as

/-- A scope of constants with different names. -/
theorem allScopes_constantDecls {w : Width} {cs : List Constant}
    (hnodup : (cs.map Constant.name).Nodup) (hvalues : ∀ c ∈ cs, c.literal.value ≤ w.maxValue) :
    AllScopes 0 (constantDecls w cs) := by
  refine ⟨⟨?_, ?_, ?_⟩, scopesOf_constantDecls w cs⟩
  · rwa [constantsOf_constantDecls, List.map_map]
  · rw [scopesOf_constantDecls]
    exact List.nodup_nil
  · rw [constantsOf_constantDecls]
    intro c hc
    obtain ⟨c, hmem, rfl⟩ := List.mem_map.1 hc
    exact hvalues c hmem

/-! ## Names that are claimed -/

/-- Constants that are claimed have different names. -/
theorem nodup_claim_constants {ι : Type} {item : ι → Verdict (Item Constant)} (is : List ι)
    (h : ∀ i x, item i = .written x → x.name = some x.content.name) :
    ((contents (claim [] (is.map item))).map Constant.name).Nodup := by
  have hnames : ∀ x ∈ contents (is.map item), x.name = some (Constant.name x.content) := by
    intro x hx
    obtain ⟨i, _, hi⟩ := List.mem_map.1 (mem_contents.1 hx)
    exact h i x hi
  rw [contents_claim hnames]
  exact (nodup_firsts _).sublist (List.filter_sublist.map _)

/-- The offsets of a group have distinct names. -/
theorem Table.nodup_ofGroup (w : Width) (g : Group) :
    ((contents (ofGroup w g).constants).map Constant.name).Nodup := by
  refine nodup_claim_constants _ fun r x hx => ?_
  obtain ⟨_, rfl⟩ := written_of_item hx
  rfl

/-- The fields of a register have distinct names. -/
theorem Table.nodup_ofFields (w : Width) (r : Register) :
    ((contents (ofFields w r).constants).map Constant.name).Nodup := by
  refine nodup_claim_constants _ fun f x hx => ?_
  obtain ⟨_, rfl⟩ := written_of_item hx
  rfl

/-- The base address and the addresses of a peripheral have different names, although the base
    address is not claimed with them. -/
theorem PeripheralModule.nodup_ofPeripheral (w : Width) (p : Peripheral) (rs : List Register) :
    ((ofPeripheral w p rs).constants.map Constant.name).Nodup := by
  have hentries : (ofPeripheral w p rs).constants.map (Constant.entry [Name.toModule p.name])
      = baseEntries w p rs ++ addressEntries w p rs := by
    rw [addressEntries, ← contents_registerEntries, ← contents_baseAddress, constants, List.map_append]
    rfl
  rw [← map_name_entry [Name.toModule p.name], hentries]
  exact nodup_map_name_entries w p rs

/-- The constants of the interrupts have different names. -/
theorem nodup_interrupts (w : Width) (is : List Interrupt) :
    (((contents (claim [] (is.map (interruptItem w)))).filterMap Vector.constant?).map
      Constant.name).Nodup := by
  -- the name that an interrupt claims is that of its constant
  have hnames : ∀ x ∈ contents (is.map (interruptItem w)),
      x.name = (Vector.constant? x.content).map Constant.name := by
    intro x hx
    obtain ⟨i, _, hi⟩ := List.mem_map.1 (mem_contents.1 hx)
    obtain ⟨_, rfl⟩ := written_of_within hi
    split <;> rfl
  rw [filterMap_contents_claim hnames]
  exact (nodup_firsts _).sublist (List.filter_sublist.map _)

/-! ## The scopes -/

/-- A table is a scope of distinct constants that fit, with no scope in it. -/
theorem Table.WellFormed.allScopes {w : Width} {t : Table} (h : t.WellFormed w)
    (hnodup : ((contents t.constants).map Constant.name).Nodup) : AllScopes 0 (t.decls w) :=
  allScopes_constantDecls hnodup fun c hc => (h.constants c hc).value

/-- The constants of a peripheral are its addresses. -/
theorem PeripheralModule.constantsOf_decls (w : Width) (m : PeripheralModule) :
    constantsOf (m.decls w) = m.constants.map (Constant.typed w) := by
  -- of a register only the address stands in the module itself
  have hentry : ∀ e : RegisterEntry,
      constantsOf (e.decls w) = (contents [e.address]).map (Constant.typed w) := by
    intro e
    simp [RegisterEntry.decls, tableDecls]
  rw [decls, constantsOf_append, constantsOf_constantDecls, constantsOf_flatMap, constants,
    List.map_append, contents_map, List.map_flatMap]
  simp only [hentry]

/-- The scopes of a peripheral are the tables of its fields. -/
theorem PeripheralModule.scopesOf_decls (w : Width) (m : PeripheralModule) :
    scopesOf (m.decls w) = m.tables.map fun t => (t.name, t.decls w) := by
  -- and only the fields stand in a module under it
  have hentry : ∀ e : RegisterEntry, scopesOf (e.decls w)
      = ((contents [e.fields]).flatMap Option.toList).map fun t => (t.name, t.decls w) := by
    intro e
    rw [RegisterEntry.decls, scopesOf_append, scopesOf_constantDecls, tableDecls, scopesOf_map_scope,
      List.nil_append]
  rw [decls, scopesOf_append, scopesOf_constantDecls, scopesOf_flatMap, List.nil_append, tables,
    List.filterMap_eq_flatMap_toList, contents_map, List.flatMap_assoc, List.map_flatMap]
  simp only [hentry]
  rfl

/-- A peripheral has distinct constants that fit, and under it one level of distinct scopes. -/
theorem PeripheralModule.allScopes {w : Width} {p : Peripheral} {rs : List Register}
    (hp : p.WellFormed) (hrs : ∀ r ∈ rs, r.WellFormed) :
    AllScopes 1 ((ofPeripheral w p rs).decls w) := by
  have hwf := wellFormed_ofPeripheral (w := w) hp hrs
  refine ⟨⟨?_, ?_, ?_⟩, ?_⟩
  · rw [constantsOf_decls, List.map_map]
    exact nodup_ofPeripheral w p rs
  · rw [scopesOf_decls, List.map_map, tables_ofPeripheral]
    exact nodup_firsts _
  · rw [constantsOf_decls]
    intro c hc
    obtain ⟨c, hmem, rfl⟩ := List.mem_map.1 hc
    -- the base address or that of a register
    obtain hmem | hmem := List.mem_append.1 hmem
    · exact (hwf.base c (List.mem_singleton.1 (mem_contents.1 hmem)).symm).value
    · obtain ⟨e, he, haddress⟩ := List.mem_map.1 (mem_contents.1 hmem)
      exact (hwf.addresses e he c haddress).value
  · -- every table is one of the fields of a register
    rw [scopesOf_decls, tables_ofPeripheral]
    intro s hs
    obtain ⟨t, ht, rfl⟩ := List.mem_map.1 hs
    obtain ⟨r, hr, rfl⟩ := List.mem_map.1 (mem_of_mem_firsts ht)
    exact (Table.wellFormed_ofFields (hrs r (List.mem_of_mem_filter hr))).allScopes
      (Table.nodup_ofFields w r)

end Listing

namespace Device

open Listing

variable {d : Device}

/-- So have the groups. -/
theorem WellFormed.allScopes_groups (h : d.WellFormed) :
    AllScopes 1 (tableDecls d.width (contents (claim [] (d.groups.map (groupItem d.width))))) := by
  rw [tableDecls, contents_groups]
  refine ⟨⟨?_, ?_, ?_⟩, ?_⟩
  · -- the module of the groups has no constant of its own
    rw [constantsOf_map_scope]
    exact List.nodup_nil
  · rw [scopesOf_map_scope, List.map_map]
    exact FirstWins.nodup_firsts _
  · rw [constantsOf_map_scope]
    exact fun c hc => absurd hc List.not_mem_nil
  · rw [scopesOf_map_scope]
    intro s hs
    obtain ⟨t, ht, rfl⟩ := List.mem_map.1 hs
    obtain ⟨g, hg, rfl⟩ := List.mem_map.1 (FirstWins.mem_of_mem_firsts ht)
    exact (Table.wellFormed_ofGroup (h.groups g hg)).allScopes (Table.nodup_ofGroup d.width g)

/-- The interrupts have distinct constants that fit, and no scope under them. -/
theorem WellFormed.allScopes_interrupts (h : d.WellFormed) :
    AllScopes 0 (constantDecls d.width
      ((contents (claim [] (d.interrupts.map (interruptItem d.width)))).filterMap
        Vector.constant?)) := by
  refine allScopes_constantDecls (nodup_interrupts d.width d.interrupts) fun c hc => ?_
  obtain ⟨v, hv, hvc⟩ := List.mem_filterMap.1 hc
  obtain ⟨item, hitem, rfl⟩ := exists_item_of_mem_claim hv
  obtain ⟨i, hi, hii⟩ := List.mem_map.1 (mem_contents.1 hitem)
  have hwf := Vector.wellFormed_of_interruptItem (h.interrupts i hi) hii
  -- a placeholder is no constant
  cases hcontent : item.content with
  | placeholder name number description =>
    rw [hcontent] at hvc
    cases hvc
  | constant c' =>
    rw [hcontent] at hvc hwf
    obtain rfl := Option.some.inj hvc
    exact Constant.WellFormed.value hwf

/-- The scopes beside the peripherals have the names that are reserved for them. -/
theorem map_name_reserved (d : Device) (o : Options) :
    (d.listing o).groups.toList.map (fun _ => "groups")
      ++ (d.listing o).interrupts.toList.map (fun _ => "interrupts") = reservedModules d o := by
  unfold listing reservedModules
  simp only
  split <;> split <;> rfl

/-- The names that are reserved for the groups and the interrupts are distinct. -/
theorem nodup_reservedModules (d : Device) (o : Options) : (reservedModules d o).Nodup := by
  unfold reservedModules
  split <;> split <;> decide

/-- The names of the scopes at the top are different: no peripheral takes a reserved one. -/
theorem nodup_scopesOf_decls (d : Device) (o : Options) :
    ((scopesOf (d.listing o).decls).map Prod.fst).Nodup := by
  have hnames : (scopesOf (d.listing o).decls).map Prod.fst
      = (d.listing o).groups.toList.map (fun _ => "groups")
        ++ (contents (d.listing o).peripherals).map PeripheralModule.name
        ++ (d.listing o).interrupts.toList.map fun _ => "interrupts" := by
    simp only [decls, scopesOf_append, scopesOf_map_scope, List.map_append, List.map_map]
    rfl
  -- a peripheral never takes a reserved name
  have hreserved : (reservedModules d o
      ++ (contents (d.listing o).peripherals).map PeripheralModule.name).Nodup := by
    refine List.nodup_append.2 ⟨nodup_reservedModules d o, nodup_peripherals d o, ?_⟩
    intro name hname other hother heq
    obtain ⟨m, hm, rfl⟩ := List.mem_map.1 hother
    exact not_mem_reservedModules hm (heq ▸ hname)
  rw [← map_name_reserved, List.append_assoc] at hreserved
  rw [hnames, List.append_assoc]
  -- the reserved names stand around the peripherals and not before them
  exact (List.perm_append_comm.append_left _).nodup_iff.2 hreserved

/-- In the text of a listing below its banner, braces close what they open, scopes are nested at
    most two deep, no scope declares a constant or a scope twice, and every constant is within its
    integer type. -/
theorem allScopes_of_gives {text : String} (h : (ofText text).Gives d) (o : Options) :
    ∃ body ds, (d.listing o).text = bannerText d.name ++ body ∧ Outline.read? body = some ds
      ∧ AllScopes 2 ds := by
  have hd := wellFormed_of_gives h
  refine ⟨_, _, text_eq_banner_append _, Outline.read?_bodyText hd o,
    ⟨?_, nodup_scopesOf_decls d o, ?_⟩, ?_⟩
  · simp [decls]
  · simp [decls]
  · intro s hs
    simp only [decls, scopesOf_append, scopesOf_map_scope, List.mem_append, List.mem_map] at hs
    -- the scope is that of the groups, of a peripheral or of the interrupts
    obtain (⟨groups, hgroups, rfl⟩ | ⟨m, hm, rfl⟩) | ⟨vectors, hvectors, rfl⟩ := hs
    · have hsome := Option.mem_toList.1 hgroups
      simp only [Device.listing, Option.ite_none_right_eq_some] at hsome
      obtain rfl := Option.some.inj hsome.2
      exact hd.allScopes_groups
    · rw [contents_peripherals, List.mem_filter] at hm
      obtain ⟨p, hp, rfl⟩ := List.mem_map.1 (FirstWins.mem_of_mem_firsts hm.1)
      exact PeripheralModule.allScopes (hd.peripherals p (List.mem_of_mem_filter hp))
        (wellFormed_registersOf hd _)
    · have hsome := Option.mem_toList.1 hvectors
      simp only [Device.listing, Option.ite_none_left_eq_some] at hsome
      obtain rfl := Option.some.inj hsome.2
      exact hd.allScopes_interrupts.of_zero 1

/-- The device of three ports, with the scopes of its listing. -/
theorem allScopes_ports :
    (ofText portsText).Gives ports
      ∧ ∃ body ds, (ports.listing {}).text = bannerText (some "Ports") ++ body
        ∧ Outline.read? body = some ds ∧ AllScopes 2 ds
        ∧ (scopesOf ds).map Prod.fst = ["groups", "pa", "pc", "pb", "interrupts"] := by
  obtain ⟨body, ds, htext, hread, hscopes⟩ := allScopes_of_gives gives_ports {}
  have hbody := eq_bodyText (l := ports.listing {}) htext
  have hdecls : some ds = some (ports.listing {}).decls := by
    rw [← hread, hbody, Outline.read?_bodyText (wellFormed_of_gives gives_ports)]
  obtain rfl := Option.some.inj hdecls
  exact ⟨gives_ports, body, _, htext, hread, hscopes, by decide +kernel⟩

end Device
end RegisterMap
