import RegisterMap.Proofs.Listing.Reader

/-!
# What is read from a listing

Reading the lines of a part of a listing notes the constants of that part and
leaves the modules around it open (`Reads`). Parts that follow each other are
read one by one and a module is read as its body, so that the constants that are
read from a whole listing can be said part by part (`entries`).
-/

namespace RegisterMap.Listing

open FirstWins
open Name (AllWordChars)

/-! ## Parts of a listing -/

/-- The reader reads some lines inside the modules `base` and notes the entries `es`. It may
    leave inner modules on its path. -/
def Reads (base : List String) (ls : List Line) (es : List Entry) : Prop :=
  ∀ r : Reader, r.path.take base.length = base →
    ∃ path, path.take base.length = base
      ∧ ls.foldlM Reader.advance? r = some ⟨path, r.entries ++ es⟩

namespace Reads

variable {base : List String} {ls ms : List Line} {es fs : List Entry}

/-- No lines have no entries. -/
theorem nil : Reads base [] [] := by
  intro r hr
  exact ⟨r.path, hr, by rw [List.append_nil]; rfl⟩

/-- Lines are read one after the other. -/
theorem append (hls : Reads base ls es) (hms : Reads base ms fs) :
    Reads base (ls ++ ms) (es ++ fs) := by
  intro r hr
  obtain ⟨path, hpath, hread⟩ := hls r hr
  obtain ⟨path', hpath', hread'⟩ := hms ⟨path, r.entries ++ es⟩ hpath
  refine ⟨path', hpath', ?_⟩
  rw [List.foldlM_append, hread, ← List.append_assoc]
  exact hread'

/-- So are the lines of things, one thing after the other. -/
theorem flatMap {α : Type} {as : List α} {lines : α → List Line} {entries : α → List Entry}
    (h : ∀ a ∈ as, Reads base (lines a) (entries a)) :
    Reads base (as.flatMap lines) (as.flatMap entries) := by
  induction as with
  | nil => exact nil
  | cons a as ih =>
    obtain ⟨ha, has⟩ := List.forall_mem_cons.1 h
    rw [List.flatMap_cons, List.flatMap_cons]
    exact ha.append (ih has)

/-- A line that the reader skips. -/
theorem skip {line : Line} (h : ∀ r : Reader, r.advance? line = some r) : Reads base [line] [] := by
  intro r hr
  refine ⟨r.path, hr, ?_⟩
  rw [List.foldlM_cons, h, List.append_nil]
  rfl

/-- A module is read as its body. -/
theorem enclose {name : String} (h : Reads (base ++ [name]) ls es) :
    Reads base (enclose base.length name ls) es := by
  intro r hr
  have hlength : (base ++ [name]).length = base.length + 1 := by simp
  have hopen : (r.path.take base.length ++ [name]).take (base ++ [name]).length = base ++ [name] := by
    rw [hr, List.take_length]
  obtain ⟨path, hpath, hread⟩ := h ⟨r.path.take base.length ++ [name], r.entries⟩ hopen
  refine ⟨path, ?_, ?_⟩
  · -- the modules around the new one are still open behind it
    have htake := congrArg (List.take base.length) hpath
    rwa [List.take_take, hlength, Nat.min_eq_left (Nat.le_succ _), List.take_left] at htake
  · rw [Listing.enclose, List.cons_append, List.foldlM_cons]
    -- the first line opens the module, and its name replaces what was left on the path
    show (ls ++ [Line.stop base.length]).foldlM Reader.advance?
      ⟨r.path.take base.length ++ [name], r.entries⟩ = _
    rw [List.foldlM_append, hread]
    rfl

/-- Descriptions may be left out. -/
theorem filter_isDoc (h : Reads base ls es) (descriptions : Bool) :
    Reads base (ls.filter fun line => descriptions || !line.isDoc) es := by
  -- a reader passes over a description, so it does not matter whether it is there
  have hfold : ∀ (ls : List Line) (r : Reader),
      (ls.filter fun line => descriptions || !line.isDoc).foldlM Reader.advance? r
        = ls.foldlM Reader.advance? r := by
    intro ls
    induction ls with
    | nil => exact fun r => rfl
    | cons line ls ih =>
      intro r
      rw [List.filter_cons]
      by_cases hkeep : (descriptions || !line.isDoc) = true
      · rw [if_pos hkeep, List.foldlM_cons, List.foldlM_cons]
        simp only [ih]
      · rw [if_neg hkeep, ih, List.foldlM_cons]
        cases line with
        | doc depth text => rfl
        | _ => simp [Line.isDoc] at hkeep
  intro r hr
  obtain ⟨path, hpath, hread⟩ := h r hr
  exact ⟨path, hpath, (hfold ls r).trans hread⟩

end Reads

/-- The lines of a description have no entries. -/
theorem reads_docLines (base : List String) (depth : Nat) (description : Option String) :
    Reads base (docLines depth description) [] := by
  cases description with
  | none => exact .nil
  | some s => exact .skip fun _ => rfl

/-! ## Constants and tables -/

/-- A constant as it is read inside some modules. -/
def Constant.entry (base : List String) (c : Constant) : Entry :=
  ⟨Reader.pathName base, c.name, c.literal.value⟩

/-- The line of a constant is read as its entry. -/
theorem Constant.reads (base : List String) (w : Width) (c : Constant) :
    Reads base (c.lines w base.length) [c.entry base] := by
  apply (reads_docLines base base.length c.description).append
  intro r hr
  -- the path is at least as deep as the modules it starts with
  have hdepth : ¬ r.path.length < base.length := by
    have hlength := congrArg List.length hr
    rw [List.length_take] at hlength
    omega
  refine ⟨r.path, hr, ?_⟩
  rw [List.foldlM_cons, Reader.advance?, if_neg hdepth, hr]
  rfl

/-- The constants of a module of constants. -/
def Table.entries (base : List String) (t : Table) : List Entry :=
  (contents t.constants).map (Constant.entry (base ++ [t.name]))

/-- The lines of a table are read as the entries of its module. -/
theorem Table.reads (base : List String) (w : Width) (t : Table) :
    Reads base (t.lines w base.length) (t.entries base) := by
  refine .enclose ?_
  rw [flatMap_lines, entries, List.map_eq_flatMap]
  refine .flatMap fun c _ => ?_
  have hlength : (base ++ [t.name]).length = base.length + 1 := by simp
  have hread := c.reads (base ++ [t.name]) w
  rwa [hlength] at hread

/-! ## Listings -/

/-- The constants of a register: its address and the offsets of its fields. -/
def RegisterEntry.entries (base : List String) (e : RegisterEntry) : List Entry :=
  (contents [e.address]).map (Constant.entry base)
    ++ (contents [e.fields]).flatMap fun fields => fields.toList.flatMap (Table.entries base)

/-- The constants of a peripheral. -/
def PeripheralModule.entries (m : PeripheralModule) : List Entry :=
  (contents [m.base]).map (Constant.entry [m.name])
    ++ m.registers.flatMap (RegisterEntry.entries [m.name])

/-- The constant of an interrupt, unless it is a placeholder. -/
def Vector.entries : Vector → List Entry
  | constant c => [c.entry ["interrupts"]]
  | placeholder _ _ _ => []

/-- The constants of a listing. -/
def entries (l : Listing) : List Entry :=
  l.groups.toList.flatMap (fun groups => (contents groups).flatMap (Table.entries ["groups"]))
    ++ (contents l.peripherals).flatMap PeripheralModule.entries
    ++ l.interrupts.toList.flatMap fun vectors => (contents vectors).flatMap Vector.entries

/-- A constant that is omitted has no entry. -/
theorem reads_constant? (base : List String) (w : Width) (v : Verdict Constant) :
    Reads base (v.lines (Constant.lines w base.length)) ((contents [v]).map (Constant.entry base)) := by
  cases v with
  | written c => exact c.reads base w
  | omitted n => exact .nil

/-- A register is read as its address and the entries of its fields. -/
theorem RegisterEntry.reads (name : String) (w : Width) (e : RegisterEntry) :
    Reads [name] (e.lines w) (e.entries [name]) := by
  apply (reads_constant? [name] w e.address).append
  have hfields : e.fields.lines (fun fields => fields.toList.flatMap (Table.lines w 1))
      = (contents [e.fields]).flatMap fun fields => fields.toList.flatMap (Table.lines w 1) := by
    rw [← flatMap_lines, List.flatMap_singleton]
  rw [hfields]
  exact .flatMap fun fields _ => .flatMap fun t _ => t.reads [name] w

/-- A peripheral is read as its base address and the entries of its registers. -/
theorem PeripheralModule.reads (w : Width) (m : PeripheralModule) :
    Reads [] (m.lines w) m.entries := by
  refine (reads_docLines [] 0 m.description).append (.enclose ?_)
  exact (reads_constant? [m.name] w m.base).append (.flatMap fun e _ => e.reads m.name w)

/-- A vector is read as its entry, and a placeholder as none. -/
theorem Vector.reads (w : Width) (v : Vector) : Reads ["interrupts"] (v.lines w) v.entries := by
  cases v with
  | constant c => exact c.reads ["interrupts"] w
  | placeholder name number description => exact .skip fun _ => rfl

/-- The constants of a listing are what is read from its lines below the banner. -/
theorem reads_bodyLines (l : Listing) : Reads [] l.bodyLines l.entries := by
  have hblank : Reads [] [Line.blank] [] := .skip fun _ => rfl
  refine .filter_isDoc ?_ l.descriptions
  refine .append (.append (.flatMap fun groups _ => ?_) ?_) (.flatMap fun vectors _ => ?_)
  · refine hblank.append (.enclose ?_)
    -- the comment on the groups is no entry
    have habout : Reads ["groups"] [.about 1
        "Register offsets relative to the base address of each peripheral."] [] :=
      .skip fun _ => rfl
    rw [flatMap_lines]
    exact habout.append (.flatMap fun t _ => t.reads ["groups"] l.width)
  · rw [flatMap_lines]
    exact .flatMap fun m _ => hblank.append (m.reads l.width)
  · refine hblank.append (.enclose ?_)
    rw [flatMap_lines]
    exact .flatMap fun v _ => v.reads l.width

/-! ## The constants of one module -/

/-- The entries of a module are found in both parts. -/
theorem entriesIn_append (name : String) (es fs : List Entry) :
    entriesIn name (es ++ fs) = entriesIn name es ++ entriesIn name fs := List.filter_append ..

/-- They are found in the entries of each thing. -/
theorem entriesIn_flatMap {α : Type} (name : String) (as : List α) (f : α → List Entry) :
    entriesIn name (as.flatMap f) = as.flatMap fun a => entriesIn name (f a) :=
  List.filter_flatMap ..

/-- The path of an inner module is not the name of any module. -/
theorem pathName_inner_ne {name : String} (h : AllWordChars name) (outer inner : String) :
    Reader.pathName [outer, inner] ≠ name := by
  intro heq
  have hmem : ':' ∈ (outer ++ "::" ++ inner).toList := by
    simp [String.toList_append]
  have hpath : outer ++ "::" ++ inner = name := heq
  exact absurd (h ':' (hpath ▸ hmem)) (by decide)

/-- The constants of a module are found in it and nowhere else. -/
theorem entriesIn_map_entry (base : List String) (cs : List Constant) (name : String) :
    entriesIn name (cs.map (Constant.entry base))
      = if Reader.pathName base = name then cs.map (Constant.entry base) else [] := by
  split
  · -- all of the constants have the same path
    next heq =>
    apply List.filter_eq_self.2
    intro e he
    obtain ⟨c, _, hc⟩ := List.mem_map.1 he
    rw [← hc]
    exact beq_iff_eq.2 heq
  · next hne =>
    apply List.filter_eq_nil_iff.2
    intro e he
    obtain ⟨c, _, hc⟩ := List.mem_map.1 he
    rw [← hc, beq_iff_eq]
    exact hne

/-- The entries of an inner module are not those of an outer one. -/
theorem entriesIn_table {name : String} (h : AllWordChars name) (outer : String) (t : Table) :
    entriesIn name (t.entries [outer]) = [] := by
  rw [Table.entries, entriesIn_map_entry]
  exact if_neg (pathName_inner_ne h outer t.name)

/-- The constants of the module of a peripheral, without those of its inner modules. -/
def PeripheralModule.constants (m : PeripheralModule) : List Constant :=
  contents [m.base] ++ contents (m.registers.map RegisterEntry.address)

/-- The contents of some verdicts are those of each of them. -/
theorem contents_map {α β : Type} (as : List α) (f : α → Verdict β) :
    contents (as.map f) = as.flatMap fun a => contents [f a] := by
  induction as with
  | nil => rfl
  | cons a as ih =>
    rw [List.map_cons, List.flatMap_cons, ← ih]
    cases f a with
    | written b => rfl
    | omitted n => rfl

/-- Of a register, a peripheral holds its address at most. -/
theorem entriesIn_registerEntry {name : String} (h : AllWordChars name) (outer : String)
    (e : RegisterEntry) :
    entriesIn name (e.entries [outer])
      = if outer = name then (contents [e.address]).map (Constant.entry [outer]) else [] := by
  rw [RegisterEntry.entries, entriesIn_append, entriesIn_map_entry, entriesIn_flatMap]
  -- the fields stand one module deeper
  have hfields : (contents [e.fields]).flatMap (fun fields =>
      entriesIn name (fields.toList.flatMap (Table.entries [outer]))) = [] := by
    apply List.flatMap_eq_nil_iff.2
    intro fields _
    rw [entriesIn_flatMap]
    exact List.flatMap_eq_nil_iff.2 fun t _ => entriesIn_table h outer t
  rw [hfields, List.append_nil]
  rfl

/-- The constants that are read in the module of a peripheral. -/
theorem entriesIn_peripheralModule {name : String} (h : AllWordChars name) (m : PeripheralModule) :
    entriesIn name m.entries
      = if m.name = name then m.constants.map (Constant.entry [m.name]) else [] := by
  rw [PeripheralModule.entries, entriesIn_append, entriesIn_map_entry, entriesIn_flatMap]
  simp only [entriesIn_registerEntry h]
  have hpath : Reader.pathName [m.name] = m.name := rfl
  rw [hpath]
  -- in the module itself, its constants are the addresses
  split
  · rw [PeripheralModule.constants, List.map_append, contents_map, List.map_flatMap]
  · rw [List.nil_append]
    exact List.flatMap_eq_nil_iff.2 fun _ _ => rfl

/-- A vector is found in the module of the interrupts only. -/
theorem entriesIn_vector {name : String} (h : name ≠ "interrupts") (v : Vector) :
    entriesIn name v.entries = [] := by
  cases v with
  | constant c =>
    have hpath : Reader.pathName ["interrupts"] ≠ name := Ne.symm h
    have hentry := entriesIn_map_entry ["interrupts"] [c] name
    rwa [if_neg hpath] at hentry
  | placeholder n number description => rfl

/-! ## The modules of peripherals -/

/-- What is written for the selected peripherals: a module for the first one of every name
    that is not reserved. -/
theorem contents_peripherals (d : Device) (o : Options) :
    contents (d.listing o).peripherals
      = (firsts PeripheralModule.name
          ((d.peripherals.filter fun p => o.selection.admits p.name).map fun p =>
            PeripheralModule.ofPeripheral d.width p (d.registersOf p.group))).filter
          fun m => !(reservedModules d o).contains m.name := by
  have hcontents : ∀ ps : List Peripheral, (contents (ps.map (peripheralItem d))).map Item.content
      = ps.map fun p => PeripheralModule.ofPeripheral d.width p (d.registersOf p.group) := by
    intro ps
    induction ps with
    | nil => rfl
    | cons p ps ih => exact congrArg _ ih
  -- every peripheral that is selected makes an item, and the first of a name claims it
  rw [← hcontents, ← contents_claim]
  · rfl
  · intro item hitem
    obtain ⟨p, _, hp⟩ := List.mem_map.1 (mem_contents.1 hitem)
    rw [← Verdict.written.inj hp]
    rfl

/-- The modules of the peripherals have different names. -/
theorem nodup_peripherals (d : Device) (o : Options) :
    ((contents (d.listing o).peripherals).map PeripheralModule.name).Nodup := by
  rw [contents_peripherals]
  exact (nodup_firsts _).sublist (List.filter_sublist.map _)

/-- None of them has a reserved name. -/
theorem not_mem_reservedModules {d : Device} {o : Options} {m : PeripheralModule}
    (hm : m ∈ contents (d.listing o).peripherals) : m.name ∉ reservedModules d o := by
  rw [contents_peripherals, List.mem_filter] at hm
  simpa using hm.2

/-- No peripheral has the module of the groups while it is shown. -/
theorem name_ne_groups {d : Device} {o : Options} (ho : o.groups = true) (hgroups : d.groups ≠ [])
    {m : PeripheralModule} (hm : m ∈ contents (d.listing o).peripherals) : m.name ≠ "groups" := by
  intro heq
  refine not_mem_reservedModules hm (heq ▸ List.mem_append_left _ ?_)
  rw [if_pos (by simp [ho, hgroups])]
  exact List.mem_singleton_self _

/-- No peripheral has the module of the interrupts while there are some. -/
theorem name_ne_interrupts {d : Device} {o : Options} (hinterrupts : d.interrupts ≠ [])
    {m : PeripheralModule} (hm : m ∈ contents (d.listing o).peripherals) :
    m.name ≠ "interrupts" := by
  intro heq
  refine not_mem_reservedModules hm (heq ▸ List.mem_append_right _ ?_)
  rw [if_neg (by simp [hinterrupts])]
  exact List.mem_singleton_self _

/-- The module of a peripheral holds the constants of that peripheral. -/
theorem entriesIn_listing {d : Device} {o : Options} {m : PeripheralModule}
    (hm : m ∈ contents (d.listing o).peripherals) (hname : AllWordChars m.name) :
    entriesIn m.name (d.listing o).entries = m.constants.map (Constant.entry [m.name]) := by
  have hgroups : ∀ gs : List (Verdict Table),
      (contents gs).flatMap (fun t => entriesIn m.name (t.entries ["groups"])) = [] :=
    fun gs => List.flatMap_eq_nil_iff.2 fun t _ => entriesIn_table hname "groups" t
  have hinterrupts : (d.listing o).interrupts.toList.flatMap (fun vectors =>
      (contents vectors).flatMap fun v => entriesIn m.name v.entries) = [] := by
    apply List.flatMap_eq_nil_iff.2
    intro vectors hvectors
    have hsome := Option.mem_toList.1 hvectors
    simp only [Device.listing, Option.ite_none_left_eq_some] at hsome
    -- the name of the module of the interrupts is reserved as soon as there is that module
    have hne : m.name ≠ "interrupts" := name_ne_interrupts (by simpa using hsome.1) hm
    exact List.flatMap_eq_nil_iff.2 fun v _ => entriesIn_vector hne v
  -- no other module has the name, so nothing else is read under it
  have hothers : (contents (d.listing o).peripherals).flatMap (fun q => entriesIn m.name q.entries)
      = entriesIn m.name m.entries := by
    apply flatMap_of_nodup (nodup_peripherals d o) hm
    intro q _ hq
    rw [entriesIn_peripheralModule hname, if_neg hq]
  simp only [entries, entriesIn_append, entriesIn_flatMap, hgroups]
  rw [hinterrupts, hothers, entriesIn_peripheralModule hname, if_pos rfl, List.append_nil,
    List.flatMap_eq_nil_iff.2 fun _ _ => rfl, List.nil_append]

end RegisterMap.Listing
