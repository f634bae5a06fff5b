import RegisterMap.Proofs.Listing.Tables

/-!
# The layout that peripherals share

Under a name, the address of one register is read in the module of a peripheral,
and the offset of one in the module of its group: that of the first register of
the name that fits. A register that does not fit in a peripheral leaves its name
to the next one there (`Device.LeavesName`). Unless that happens, a name means
the same register wherever it is read:

- `Device.same_register_iff`: two peripherals of one group
- `Device.base_add_offset_eq`: a peripheral and its group
- `Device.address_of_fields`: the address of a register and its fields
-/

namespace RegisterMap

open FirstWins

namespace Listing

/-- An entry is found under the name of its constant. -/
theorem find?_map_entry (base : List String) (cs : List Constant) (n : String) :
    find? Entry.name (cs.map (Constant.entry base)) n
      = (find? Constant.name cs n).map (Constant.entry base) := by
  rw [find?, find?, List.find?_map]
  rfl

variable {ι : Type} {content : ι → Constant} {fits : ι → Prop} [DecidablePred fits]
  {item : ι → Verdict (Item Constant)}

/-- What is read under a name among the constants of a family. -/
theorem Family.find?_entries (h : Family Constant.name content fits item) (base : List String)
    (is : List ι) (n : String) :
    (find? Entry.name ((contents (claim [] (is.map item))).map (Constant.entry base)) n).map
        Entry.value
      = (is.find? fun i => (content i).name = n ∧ fits i).map fun i => (content i).literal.value := by
  rw [find?_map_entry, h.find?_contents_claim, Option.map_map, Option.map_map]
  rfl

end Listing

open Listing

/-- The register whose offset is read under a name in the module of a group. -/
def Group.listed? (w : Width) (g : Group) (n : String) : Option Register :=
  g.registers.find? fun r => Name.toConstant r.name = n ∧ r.offset ≤ w.maxValue

/-- The register that a group shows under a name has it, and its offset fits. -/
theorem Group.listed?_eq_some {w : Width} {g : Group} {n : String} {r : Register}
    (h : g.listed? w n = some r) :
    r ∈ g.registers ∧ Name.toConstant r.name = n ∧ r.offset ≤ w.maxValue := by
  rw [listed?] at h
  have hr := List.find?_some h
  exact ⟨List.mem_of_find?_eq_some h, of_decide_eq_true hr⟩

namespace Device

/-- The register whose address is read under a name in the module of a peripheral. -/
def listed? (d : Device) (p : Peripheral) (n : String) : Option Register :=
  (d.registersOf p.group).find? fun r => Name.toConstant r.name = n ∧ Fits d.width p r

/-- A register leaves the name of its constant to a later one: its own address in the peripheral
    does not fit, and that of the later one does. -/
def LeavesName (d : Device) (p : Peripheral) (r : Register) : Prop :=
  ¬ Fits d.width p r ∧ ∃ s ∈ d.registersOf p.group, [r, s].Sublist (d.registersOf p.group)
    ∧ Name.toConstant s.name = Name.toConstant r.name ∧ Fits d.width p s

instance (d : Device) (p : Peripheral) (r : Register) : Decidable (d.LeavesName p r) :=
  inferInstanceAs (Decidable (_ ∧ _))

variable {d : Device} {o : Options} {p q : Peripheral} {g : Group} {r s : Register} {n : String}

/-- A register that does not leave its name fits if a later one of the name does. -/
theorem fits_of_not_leavesName (h : ¬ d.LeavesName p r)
    (hsub : [r, s].Sublist (d.registersOf p.group))
    (hname : Name.toConstant s.name = Name.toConstant r.name) (hfits : Fits d.width p s) :
    Fits d.width p r := by
  by_contra hnot
  have hmem : s ∈ d.registersOf p.group := hsub.subset (List.mem_cons_of_mem r List.mem_cons_self)
  exact h ⟨hnot, s, hmem, hsub, hname, hfits⟩

/-! ## What is read under a name -/

/-- The base address is not read under the name of a register. -/
theorem find?_baseEntries (w : Width) (p : Peripheral) {rs : List Register}
    (hn : n = baseName → ∃ r ∈ rs, Name.toConstant r.name = n) :
    find? Entry.name (baseEntries w p rs) n = none := by
  unfold baseEntries
  split
  · next h =>
    refine List.find?_eq_none.2 fun e he heq => ?_
    rw [List.mem_singleton.1 he] at heq
    -- a register of the name would keep the base address from being written
    have heq : baseName = n := beq_iff_eq.1 heq
    obtain ⟨r, hr, hname⟩ := hn heq.symm
    exact h.1 r hr (hname.trans heq.symm)
  · rfl

/-- Under a name, a peripheral shows the address of the first register of it that fits. This is also
    so under the name of the base address, if a register has that. -/
theorem Shows.constantIn?_eq (hp : d.Shows o p) (hd : d.WellFormed)
    (hn : n = baseName → ∃ r ∈ d.registersOf p.group, Name.toConstant r.name = n) :
    constantIn? (d.listing o).entries (Name.toModule p.name) n
      = (d.listed? p n).map fun r => p.base + r.offset := by
  have hentries := hp.entriesIn_eq hd
  have hnodup := nodup_map_name_entries d.width p (d.registersOf p.group)
  have hbase := find?_baseEntries d.width p hn
  have haddresses := (family_addressItem d.width p).find?_entries [Name.toModule p.name]
    (d.registersOf p.group) n
  rw [(family_addressItem d.width p).contents_claim] at haddresses
  rw [Listing.constantIn?_eq (hentries ▸ hnodup), hentries, find?, List.find?_append]
  -- the base address is in front of the registers, but not under this name
  rw [find?] at hbase
  rw [hbase, Option.none_or]
  exact haddresses

/-- If no register has the name of the base address, that is what is shown under it. -/
theorem Shows.constantIn?_base (hp : d.Shows o p) (hd : d.WellFormed)
    (hfree : ∀ r ∈ d.registersOf p.group, Name.toConstant r.name ≠ baseName) {v : Nat}
    (hv : constantIn? (d.listing o).entries (Name.toModule p.name) baseName = some v) :
    v = p.base := by
  have hentries := hp.entriesIn_eq hd
  rw [Listing.constantIn?_eq (hentries ▸ nodup_map_name_entries _ _ _), hentries,
    Option.map_eq_some_iff] at hv
  obtain ⟨e, he, hvalue⟩ := hv
  have hname := name_of_find? he
  -- what is found is the base address, or the address of a register of its name
  obtain hbase | haddress := List.mem_append.1 (mem_of_find? he)
  · unfold baseEntries at hbase
    split at hbase
    · rw [← hvalue, List.mem_singleton.1 hbase]
    · exact absurd hbase List.not_mem_nil
  · obtain ⟨r, hr, hrname, _⟩ := mem_map_name_addressEntries.1 (List.mem_map_of_mem haddress)
    exact absurd (hrname.trans hname) (hfree r hr)

/-- Under a name, a group shows the offset of the first register of it that fits. -/
theorem ShowsGroup.constantIn?_eq (hg : d.ShowsGroup g) (hd : d.WellFormed)
    (ho : o.groups = true) (n : String) :
    constantIn? (d.listing o).entries (Reader.pathName ["groups", Name.toModule g.name]) n
      = (g.listed? d.width n).map Register.offset := by
  have hentries := hg.entriesIn_eq hd ho
  have hfamily := family_offsetItem d.width g.name
  -- a table never has two entries of one name, so a lookup finds the first register
  have hnodup : (((Table.ofGroup d.width g).entries ["groups"]).map Entry.name).Nodup := by
    rw [Table.entries, map_name_entry, Table.ofGroup, hfamily.contents_claim]
    exact nodup_firsts _
  rw [Listing.constantIn?_eq (hentries ▸ hnodup), hentries]
  exact hfamily.find?_entries _ g.registers n

/-! ## The register of a name -/

/-- The register that a peripheral shows under a name has it, and its address fits. -/
theorem listed?_eq_some (h : d.listed? p n = some r) :
    r ∈ d.registersOf p.group ∧ Name.toConstant r.name = n ∧ Fits d.width p r := by
  rw [listed?] at h
  exact ⟨List.mem_of_find?_eq_some h, fits_of_find? h⟩

/-- A register that fits is the one that is read under its name, or follows it. -/
theorem exists_listed? (hs : s ∈ d.registersOf p.group) (hname : Name.toConstant s.name = n)
    (hfits : Fits d.width p s) :
    ∃ r, d.listed? p n = some r ∧ (r = s ∨ [r, s].Sublist (d.registersOf p.group)) := by
  have hfirst := exists_find?_of_mem
    (P := fun r : Register => Name.toConstant r.name = n ∧ Fits d.width p r) hs ⟨hname, hfits⟩
  obtain ⟨r, hr, _, hrs⟩ := hfirst
  exact ⟨r, hr, hrs⟩

/-! ## Two peripherals of one group -/

/-- Of two peripherals, the one with the lower base address has room for what fits in the other. -/
theorem fits_or_fits {w : Width} (hr : Fits w p r) (hs : Fits w q s) :
    Fits w q r ∨ Fits w p s := by
  unfold Fits at *
  omega

/-- Two peripherals of a group show the same register under a name, if that of the one fits in the
    other, where it is not left behind by the one that is shown there. -/
theorem listed?_eq_of_fits (hgroup : p.group = q.group) (hr : d.listed? p n = some r)
    (hs : d.listed? q n = some s) (hfits : Fits d.width q r) (hleaves : ¬ d.LeavesName p s) :
    r = s := by
  obtain ⟨hrmem, hrname, hrfits⟩ := listed?_eq_some hr
  obtain ⟨_, hsname, hsfits⟩ := listed?_eq_some hs
  rw [hgroup] at hrmem
  obtain ⟨t, ht, hts⟩ := exists_listed? hrmem hrname hfits
  rw [hs] at ht
  obtain rfl := Option.some.inj ht
  obtain heq | hsub := hts
  · exact heq.symm
  · -- the peripheral does not leave the name of the register in front to the other one
    have hps : Fits d.width p s :=
      fits_of_not_leavesName hleaves (hgroup ▸ hsub) (hrname.trans hsname.symm) hrfits
    rw [listed?, hgroup] at hr
    exact find?_eq_of_find? hr hs ⟨hrname, hfits⟩ ⟨hsname, hps⟩

/-- They show the same register exactly if neither of them leaves the name of the register that the
    other one shows. -/
theorem listed?_eq_iff (hgroup : p.group = q.group) (hr : d.listed? p n = some r)
    (hs : d.listed? q n = some s) : r = s ↔ ¬ d.LeavesName q r ∧ ¬ d.LeavesName p s := by
  obtain ⟨_, _, hrfits⟩ := listed?_eq_some hr
  obtain ⟨_, _, hsfits⟩ := listed?_eq_some hs
  constructor
  · intro heq
    exact ⟨fun h => h.1 (heq ▸ hsfits), fun h => h.1 (heq ▸ hrfits)⟩
  · intro h
    -- one of the two registers fits in both peripherals, so it competes for the name in both
    obtain hqr | hps := fits_or_fits hrfits hsfits
    · exact listed?_eq_of_fits hgroup hr hs hqr h.2
    · exact (listed?_eq_of_fits hgroup.symm hs hr hps h.1).symm

/-- Under a name that is read in the modules of two peripherals of one group, each module shows the
    address of a register that has the name. It is the same register exactly if neither
    peripheral leaves the name of the register that the other one shows to a later one. -/
theorem same_register_iff {text : String} (h : (ofText text).Gives d) (hp : d.Shows o p)
    (hq : d.Shows o q) (hgroup : p.group = q.group) :
    ∃ es, d.ReadsAs o es ∧ ∀ n a b, n ≠ baseName →
      constantIn? es (Name.toModule p.name) n = some a →
      constantIn? es (Name.toModule q.name) n = some b →
      ∃ r s, d.listed? p n = some r ∧ d.listed? q n = some s
        ∧ a = p.base + r.offset ∧ b = q.base + s.offset
        ∧ (a - p.base = b - q.base ↔ r.offset = s.offset)
        ∧ (r = s ↔ ¬ d.LeavesName q r ∧ ¬ d.LeavesName p s) := by
  have hd := wellFormed_of_gives h
  refine ⟨_, hd.readsAs o, fun n a b hn ha hb => ?_⟩
  rw [hp.constantIn?_eq hd fun hbase => absurd hbase hn, Option.map_eq_some_iff] at ha
  rw [hq.constantIn?_eq hd fun hbase => absurd hbase hn, Option.map_eq_some_iff] at hb
  obtain ⟨r, hr, rfl⟩ := ha
  obtain ⟨s, hs, rfl⟩ := hb
  refine ⟨r, s, hr, hs, rfl, rfl, ?_, listed?_eq_iff hgroup hr hs⟩
  -- the bases cancel, which leaves the two offsets
  rw [Nat.add_sub_cancel_left, Nat.add_sub_cancel_left]

/-- Every port has a module of its own. -/
theorem shows_ports {p : Peripheral} (hp : p ∈ ports.peripherals) : ports.Shows {} p := by
  have hfree : ∀ p ∈ ports.peripherals, Name.toModule p.name ∉ reservedModules ports {} := by
    decide +kernel
  exact shows_of_nodup (by decide +kernel) hp rfl (hfree p hp)

/-- Two ports show the same register under a name, even if it is at the end of the addresses in one
    of them. -/
theorem same_register_ports :
    (ofText portsText).Gives ports
      ∧ ports.Shows {} ⟨"PA", "PORT", none, 0x40020000, none⟩
      ∧ ports.Shows {} ⟨"PB", "PORT", none, 0xFFFFFFF0, none⟩
      ∧ ∃ es r, ports.ReadsAs {} es
        ∧ constantIn? es "pa" "IN" = some 0x40020004 ∧ constantIn? es "pb" "IN" = some 0xFFFFFFF4
        ∧ ports.listed? ⟨"PA", "PORT", none, 0x40020000, none⟩ "IN" = some r
        ∧ ports.listed? ⟨"PB", "PORT", none, 0xFFFFFFF0, none⟩ "IN" = some r := by
  have hpa : ports.Shows {} ⟨"PA", "PORT", none, 0x40020000, none⟩ := shows_ports (by decide)
  have hpb : ports.Shows {} ⟨"PB", "PORT", none, 0xFFFFFFF0, none⟩ := shows_ports (by decide)
  have hmodule : Name.toModule "PA" = "pa" ∧ Name.toModule "PB" = "pb" := by decide +kernel
  obtain ⟨es, hread, hsame⟩ := same_register_iff gives_ports hpa hpb rfl
  rw [hmodule.1, hmodule.2] at hsame
  have hentries : es = (ports.listing {}).entries :=
    hread.unique ((wellFormed_of_gives gives_ports).readsAs {})
  have hvalues : constantIn? es "pa" "IN" = some 0x40020004
      ∧ constantIn? es "pb" "IN" = some 0xFFFFFFF4 := by
    rw [hentries]
    decide +kernel
  obtain ⟨r, s, hr, hs, _, _, _, heq⟩ := hsame "IN" _ _ (by decide) hvalues.1 hvalues.2
  -- only the register `OUT` lies beyond the width in the last port, and no other one has its name
  have hleaves : ∀ r ∈ ports.registersOf "PORT",
      ¬ ports.LeavesName ⟨"PB", "PORT", none, 0xFFFFFFF0, none⟩ r
        ∧ ¬ ports.LeavesName ⟨"PA", "PORT", none, 0x40020000, none⟩ r := by decide +kernel
  obtain rfl := heq.2 ⟨(hleaves r (listed?_eq_some hr).1).1, (hleaves s (listed?_eq_some hs).1).2⟩
  exact ⟨gives_ports, hpa, hpb, es, r, hread, hvalues.1, hvalues.2, hr, hs⟩

/-- A description of two ports with eight bits. The first one has a register close to the end of
    the addresses, which is beyond it in the second one. -/
def narrowPortsText : String :=
  "<device><width>8</width><peripherals>
    <peripheral><name>PA</name><groupName>PORT</groupName><baseAddress>0x0</baseAddress>
      <registers>
        <register><name>CR</name><addressOffset>0xF0</addressOffset></register>
        <register><name>Cr</name><addressOffset>0x4</addressOffset></register>
      </registers></peripheral>
    <peripheral derivedFrom='PA'><name>PB</name><baseAddress>0x20</baseAddress></peripheral>
  </peripherals></device>"

/-- The device with the narrow ports. -/
def narrowPorts : Device where
  name := none
  width := .w8
  peripherals := [⟨"PA", "PORT", none, 0, none⟩, ⟨"PB", "PORT", some "PA", 0x20, none⟩]
  groups := [⟨"PORT", [⟨"CR", 0xF0, none, none, []⟩, ⟨"Cr", 4, none, none, []⟩]⟩]
  interrupts := []

/-- The description gives the narrow ports. -/
theorem gives_narrowPorts : (ofText narrowPortsText).Gives narrowPorts := by
  unfold narrowPortsText ofText Xml.Document.parse?
  rw [String.toList_ofList]
  decide +kernel

example : narrowPorts.LeavesName ⟨"PB", "PORT", some "PA", 0x20, none⟩
    ⟨"CR", 0xF0, none, none, []⟩ := by decide +kernel

/-- The constants of one name show different registers in the two narrow ports. -/
theorem not_same_register_narrowPorts :
    (ofText narrowPortsText).Gives narrowPorts
      ∧ ∃ p q, narrowPorts.Shows {} p ∧ narrowPorts.Shows {} q ∧ p.group = q.group
        ∧ ∃ es n a b, narrowPorts.ReadsAs {} es ∧ n ≠ baseName
          ∧ constantIn? es (Name.toModule p.name) n = some a
          ∧ constantIn? es (Name.toModule q.name) n = some b ∧ a - p.base ≠ b - q.base := by
  -- both ports are shown, since their modules have different names
  have hnodup : (narrowPorts.peripherals.map fun q => Name.toModule q.name).Nodup := by
    decide +kernel
  refine ⟨gives_narrowPorts, ⟨"PA", "PORT", none, 0, none⟩, ⟨"PB", "PORT", some "PA", 0x20, none⟩,
    shows_of_nodup hnodup (by decide) rfl (by decide +kernel),
    shows_of_nodup hnodup (by decide) rfl (by decide +kernel), rfl, _, "CR", 0xF0, 0x24,
    (wellFormed_of_gives gives_narrowPorts).readsAs {}, ?_⟩
  decide +kernel

/-! ## A peripheral and its group -/

/-- A peripheral shows the register that its group shows, unless that leaves its name there. -/
theorem listed?_eq_of_group (hg : d.group? p.group = some g) (hr : g.listed? d.width n = some r)
    (hs : d.listed? p n = some s) (hleaves : ¬ d.LeavesName p r) : r = s := by
  have hregisters : d.registersOf p.group = g.registers := by
    rw [registersOf, hg]
  obtain ⟨_, hrname, hroffset⟩ := Group.listed?_eq_some hr
  obtain ⟨hsmem, hsname, hsfits⟩ := listed?_eq_some hs
  rw [hregisters] at hsmem
  -- what fits in the peripheral also fits in the group
  have hself : Name.toConstant s.name = n ∧ s.offset ≤ d.width.maxValue :=
    ⟨hsname, (Nat.le_add_left _ _).trans hsfits.2⟩
  obtain ⟨t, ht, _, hts⟩ := exists_find?_of_mem
    (P := fun r : Register => Name.toConstant r.name = n ∧ r.offset ≤ d.width.maxValue) hsmem hself
  rw [Group.listed?, ht] at hr
  obtain rfl := Option.some.inj hr
  obtain heq | hsub := hts
  · exact heq
  · -- the register in front keeps its name in the peripheral, so it is the first one there too
    have hfits : Fits d.width p t :=
      fits_of_not_leavesName hleaves (hregisters ▸ hsub) (hsname.trans hrname.symm) hsfits
    rw [listed?, hregisters] at hs
    exact find?_eq_of_find? ht hs ⟨hrname, hfits⟩ hself

/-- If a group has a module of its own, then a value that is read there under a name makes with the
    base address of a peripheral the value that is read in the peripheral, unless the
    register that has the name in the group leaves it to a later one in the peripheral. -/
theorem base_add_offset_eq {text : String} (h : (ofText text).Gives d) (ho : o.groups = true)
    (hp : d.Shows o p) (hfree : ∀ r ∈ d.registersOf p.group, Name.toConstant r.name ≠ baseName) :
    ∃ es g, d.ReadsAs o es ∧ d.group? p.group = some g ∧ (d.ShowsGroup g →
      ∀ n base offset address, n ≠ baseName →
        constantIn? es (Name.toModule p.name) baseName = some base →
        constantIn? es (Reader.pathName ["groups", Name.toModule p.group]) n = some offset →
        constantIn? es (Name.toModule p.name) n = some address →
        (∀ r, g.listed? d.width n = some r → ¬ d.LeavesName p r) →
        base + offset = address) := by
  have hd := wellFormed_of_gives h
  obtain ⟨g, hg⟩ := hd.group p hp.mem
  refine ⟨_, g, hd.readsAs o, hg, fun hshows n base offset address hn hbase hoffset haddress
    hleaves => ?_⟩
  have hname : g.name = p.group := name_of_find? hg
  -- all three values are those of registers or of the base address
  rw [← hname, hshows.constantIn?_eq hd ho, Option.map_eq_some_iff] at hoffset
  rw [hp.constantIn?_eq hd fun heq => absurd heq hn, Option.map_eq_some_iff] at haddress
  obtain ⟨r, hr, rfl⟩ := hoffset
  obtain ⟨s, hs, rfl⟩ := haddress
  rw [hp.constantIn?_base hd hfree hbase, listed?_eq_of_group hg hr hs (hleaves r hr)]

/-- The base address and the offset make the address in the third port. -/
theorem base_add_offset_eq_ports :
    (ofText portsText).Gives ports
      ∧ ports.Shows {} ⟨"PC", "PORT", some "PA", 0x40020800, none⟩
      ∧ (∀ r ∈ ports.registersOf "PORT", Name.toConstant r.name ≠ baseName)
      ∧ ∃ es base offset address, ports.ReadsAs {} es
        ∧ constantIn? es "pc" baseName = some base
        ∧ constantIn? es "groups::port" "OUT" = some offset
        ∧ constantIn? es "pc" "OUT" = some address ∧ base + offset = address := by
  have hpc : ports.Shows {} ⟨"PC", "PORT", some "PA", 0x40020800, none⟩ := shows_ports (by decide)
  have hfree : ∀ r ∈ ports.registersOf "PORT", Name.toConstant r.name ≠ baseName := by
    decide +kernel
  have hmodule : Name.toModule "PC" = "pc"
      ∧ Reader.pathName ["groups", Name.toModule "PORT"] = "groups::port" := by decide +kernel
  obtain ⟨es, g, hread, hg, hsum⟩ := base_add_offset_eq gives_ports rfl hpc hfree
  rw [hmodule.1, hmodule.2] at hsum
  obtain rfl := List.mem_singleton.1 (mem_of_find? hg)
  -- there is one group only, so that its module is its own
  have hshows : ports.ShowsGroup _ := ⟨[], [], rfl, fun _ h => absurd h List.not_mem_nil⟩
  have hentries : es = (ports.listing {}).entries :=
    hread.unique ((wellFormed_of_gives gives_ports).readsAs {})
  have hvalues : constantIn? es "pc" baseName = some 0x40020800
      ∧ constantIn? es "groups::port" "OUT" = some 0x14
      ∧ constantIn? es "pc" "OUT" = some 0x40020814 := by
    rw [hentries]
    decide +kernel
  have hleaves : ∀ r ∈ ports.registersOf "PORT",
      ¬ ports.LeavesName ⟨"PC", "PORT", some "PA", 0x40020800, none⟩ r := by decide +kernel
  refine ⟨gives_ports, hpc, hfree, es, _, _, _, hread, hvalues.1, hvalues.2.1, hvalues.2.2, ?_⟩
  exact hsum hshows "OUT" _ _ _ (by decide) hvalues.1 hvalues.2.1 hvalues.2.2 fun r hr =>
    hleaves r (Group.listed?_eq_some hr).1

/-- A description of two ports whose groups have different names, and modules of one name. -/
def similarPortsText : String :=
  "<device><width>32</width><peripherals>
    <peripheral><name>PA</name><groupName>PORT</groupName><baseAddress>0x10</baseAddress>
      <registers>
        <register><name>MODE</name><addressOffset>0x0</addressOffset></register>
      </registers></peripheral>
    <peripheral><name>PB</name><groupName>Port</groupName><baseAddress>0x20</baseAddress>
      <registers>
        <register><name>MODE</name><addressOffset>0x4</addressOffset></register>
      </registers></peripheral>
  </peripherals></device>"

/-- The device with the ports of similar groups. -/
def similarPorts : Device where
  name := none
  width := .w32
  peripherals := [⟨"PA", "PORT", none, 0x10, none⟩, ⟨"PB", "Port", none, 0x20, none⟩]
  groups := [⟨"PORT", [⟨"MODE", 0, none, none, []⟩]⟩, ⟨"Port", [⟨"MODE", 4, none, none, []⟩]⟩]
  interrupts := []

/-- The description gives the similar ports. -/
theorem gives_similarPorts : (ofText similarPortsText).Gives similarPorts := by
  unfold similarPortsText ofText Xml.Document.parse?
  rw [String.toList_ofList]
  decide +kernel

/-- The module that has the name of the second group shows the registers of the first one. -/
theorem not_base_add_offset_eq_similarPorts :
    (ofText similarPortsText).Gives similarPorts
      ∧ ∃ p, similarPorts.Shows {} p
        ∧ (∀ r ∈ similarPorts.registersOf p.group, Name.toConstant r.name ≠ baseName)
        ∧ ∃ es n base offset address, similarPorts.ReadsAs {} es ∧ n ≠ baseName
          ∧ constantIn? es (Name.toModule p.name) baseName = some base
          ∧ constantIn? es (Reader.pathName ["groups", Name.toModule p.group]) n = some offset
          ∧ constantIn? es (Name.toModule p.name) n = some address ∧ base + offset ≠ address := by
  refine ⟨gives_similarPorts, ⟨"PB", "Port", none, 0x20, none⟩,
    shows_of_nodup (by decide +kernel) (by decide) rfl (by decide +kernel), by decide +kernel,
    _, "MODE", 0x20, 0, 0x24, (wellFormed_of_gives gives_similarPorts).readsAs {}, ?_⟩
  decide +kernel

/-! ## A register and its fields -/

/-- The name of the constant of a register is lost to a later one: the address of the register does
    not fit, and the register that is read under the name stands behind it. A register in front of
    both that has the name keeps it from being lost. -/
def LosesName (d : Device) (p : Peripheral) (r : Register) : Prop :=
  ¬ Fits d.width p r ∧ ∃ t, d.listed? p (Name.toConstant r.name) = some t
    ∧ [r, t].Sublist (d.registersOf p.group)

/-- A register that does not lose its name to a later one has it, unless one in front of it
    does. -/
theorem listed?_of_not_losesName (hr : r ∈ d.registersOf p.group) (hloses : ¬ d.LosesName p r)
    (hq : d.listed? p (Name.toConstant r.name) = some s) :
    s = r ∨ [s, r].Sublist (d.registersOf p.group) := by
  obtain ⟨hsmem, hsname, hsfits⟩ := listed?_eq_some hq
  by_cases hfits : Fits d.width p r
  · obtain ⟨t, ht, htr⟩ := exists_listed? hr rfl hfits
    rw [hq] at ht
    exact Option.some.inj ht ▸ htr
  · have hne : s ≠ r := fun heq => hfits (heq ▸ hsfits)
    -- behind the register, the one that is read under the name would have taken it over
    exact .inr ((sublist_pair_or hsmem hr hne).resolve_right fun hsub =>
      hloses ⟨hfits, s, hq, hsub⟩)

/-- If the fields of a register are shown and it does not lose its name to a later one, then the
    constant of that name is its own address, or the address of a register in front of it
    that does not compete for the module of the fields. -/
theorem address_of_fields {text : String} (h : (ofText text).Gives d) (hp : d.Shows o p)
    (hr : d.ShowsFields p r) (hloses : ¬ d.LosesName p r) :
    ∃ es, d.ReadsAs o es
      ∧ entriesIn (Reader.pathName [Name.toModule p.name, Name.toModule r.name]) es
        = (Table.ofFields d.width r).entries [Name.toModule p.name]
      ∧ ∀ v, constantIn? es (Name.toModule p.name) (Name.toConstant r.name) = some v →
        v = p.base + r.offset
        ∨ ∃ q, [q, r].Sublist (d.registersOf p.group)
          ∧ Name.toConstant q.name = Name.toConstant r.name ∧ Fits d.width p q
          ∧ (q.fields = [] ∨ Name.toModule q.name ≠ Name.toModule r.name)
          ∧ v = p.base + q.offset := by
  have hd := wellFormed_of_gives h
  refine ⟨_, hd.readsAs o, hr.entriesIn_eq hp hd, fun v hv => ?_⟩
  rw [hp.constantIn?_eq hd fun _ => ⟨r, hr.mem, rfl⟩, Option.map_eq_some_iff] at hv
  obtain ⟨q, hq, rfl⟩ := hv
  obtain ⟨hmem, hname, hfits⟩ := listed?_eq_some hq
  obtain rfl | hsub := listed?_of_not_losesName hr.mem hloses hq
  · exact .inl rfl
  · refine .inr ⟨q, hsub, hname, hfits, ?_, rfl⟩
    by_cases hfields : q.fields = []
    · exact .inl hfields
    · -- a register in front that has fields would show them in a module of that name
      exact .inr (hr.first q hmem hsub hfields)

/-- The fields of a register of the first port stand beside its own address. -/
theorem address_of_fields_ports :
    (ofText portsText).Gives ports
      ∧ ports.Shows {} ⟨"PA", "PORT", none, 0x40020000, none⟩
      ∧ ports.ShowsFields ⟨"PA", "PORT", none, 0x40020000, none⟩
          ⟨"OUT", 0x14, none, some "Output data", [⟨"LOW", 0, 8, none⟩]⟩
      ∧ ¬ ports.LosesName ⟨"PA", "PORT", none, 0x40020000, none⟩
          ⟨"OUT", 0x14, none, some "Output data", [⟨"LOW", 0, 8, none⟩]⟩
      ∧ ∃ es v, ports.ReadsAs {} es
        ∧ entriesIn "pa::out" es = [⟨"pa::out", "LOW", 0⟩]
        ∧ constantIn? es "pa" "OUT" = some v ∧ v = 0x40020000 + 0x14 := by
  have hpa : ports.Shows {} ⟨"PA", "PORT", none, 0x40020000, none⟩ := shows_ports (by decide)
  have honly : ∀ q ∈ ports.registersOf "PORT", Name.toConstant q.name = "OUT" →
      q = ⟨"OUT", 0x14, none, some "Output data", [⟨"LOW", 0, 8, none⟩]⟩ := by decide +kernel
  have hout : ports.ShowsFields ⟨"PA", "PORT", none, 0x40020000, none⟩
      ⟨"OUT", 0x14, none, some "Output data", [⟨"LOW", 0, 8, none⟩]⟩ :=
    ⟨by decide +kernel, by decide, by decide +kernel⟩
  have hfits : Fits ports.width ⟨"PA", "PORT", none, 0x40020000, none⟩
      ⟨"OUT", 0x14, none, some "Output data", [⟨"LOW", 0, 8, none⟩]⟩ := by decide +kernel
  have hloses : ¬ ports.LosesName ⟨"PA", "PORT", none, 0x40020000, none⟩
      ⟨"OUT", 0x14, none, some "Output data", [⟨"LOW", 0, 8, none⟩]⟩ := fun h => h.1 hfits
  obtain ⟨es, hread, hfields, hvalues⟩ := address_of_fields gives_ports hpa hout hloses
  have hmodule : Name.toModule "PA" = "pa" ∧ Name.toModule "OUT" = "out"
      ∧ Name.toConstant "OUT" = "OUT" := by decide +kernel
  rw [hmodule.1, hmodule.2.1] at hfields
  rw [hmodule.1, hmodule.2.2] at hvalues
  have hentries : es = (ports.listing {}).entries :=
    hread.unique ((wellFormed_of_gives gives_ports).readsAs {})
  have hvalue : constantIn? es "pa" "OUT" = some 0x40020014 := by
    rw [hentries]
    decide +kernel
  refine ⟨gives_ports, hpa, hout, hloses, es, _, hread, hfields, hvalue, ?_⟩
  obtain hown | hother := hvalues _ hvalue
  · exact hown
  · -- no other register has the name
    obtain ⟨q, hsub, hname, _, _, hv⟩ := hother
    obtain rfl := honly q (hsub.subset List.mem_cons_self) hname
    exact hv

/-- A description of a clock control with two registers whose constants have one name. Only the
    second one has fields. -/
def clocksText : String :=
  "<device><width>32</width><peripherals>
    <peripheral><name>RCC</name><groupName>RCC</groupName><baseAddress>0x40023800</baseAddress>
      <registers>
        <register><name>CR</name><addressOffset>0x0</addressOffset></register>
        <register><name>Cr</name><addressOffset>0x4</addressOffset><fields>
            <field><name>HSEON</name><bitOffset>16</bitOffset><bitWidth>1</bitWidth></field>
          </fields></register>
      </registers></peripheral>
  </peripherals></device>"

/-- The device with the clock control. -/
def clocks : Device where
  name := none
  width := .w32
  peripherals := [⟨"RCC", "RCC", none, 0x40023800, none⟩]
  groups :=
    [⟨"RCC", [⟨"CR", 0, none, none, []⟩, ⟨"Cr", 4, none, none, [⟨"HSEON", 16, 1, none⟩]⟩]⟩]
  interrupts := []

/-- The description gives the clock control. -/
theorem gives_clocks : (ofText clocksText).Gives clocks := by
  unfold clocksText ofText Xml.Document.parse?
  rw [String.toList_ofList]
  decide +kernel

/-- The fields of the second register stand beside the address of the first one. -/
theorem not_address_of_fields_clocks :
    (ofText clocksText).Gives clocks
      ∧ ∃ p r, clocks.Shows {} p ∧ clocks.ShowsFields p r
        ∧ ∃ es v, clocks.ReadsAs {} es
          ∧ constantIn? es (Name.toModule p.name) (Name.toConstant r.name) = some v
          ∧ v ≠ p.base + r.offset := by
  refine ⟨gives_clocks, ⟨"RCC", "RCC", none, 0x40023800, none⟩,
    ⟨"Cr", 4, none, none, [⟨"HSEON", 16, 1, none⟩]⟩,
    shows_of_nodup (by decide +kernel) (by decide) rfl (by decide +kernel),
    ⟨by decide +kernel, by decide, by decide +kernel⟩, _, 0x40023800,
    (wellFormed_of_gives gives_clocks).readsAs {}, ?_⟩
  decide +kernel

end Device
end RegisterMap
