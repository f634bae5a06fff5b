import RegisterMap.Proofs.Listing.Entries

/-!
# Reading a listing back

The text of a listing below its banner is read back as the constants of the
listing. What is read in the module of a peripheral that is shown is its base
address and the addresses of its registers, which are those that are looked up
in the device.

- `Device.Shows`: a peripheral has a module of its own in the listing
- `Fits`: the address of a register can be written
- `Device.readsBack_of_gives`: the constants of that module
-/

namespace RegisterMap.Listing

open FirstWins

/-! ## The addresses of a peripheral -/

/-- The address of a register in a peripheral can be written: a word holds it, and it is
    within the width. -/
def Fits (w : Width) (p : Peripheral) (r : Register) : Prop :=
  p.base + r.offset < Word.limit ∧ p.base + r.offset ≤ w.maxValue

instance (w : Width) (p : Peripheral) (r : Register) : Decidable (Fits w p r) :=
  inferInstanceAs (Decidable (_ ∧ _))

/-- The constant that is written for the address of a register. -/
def addressConstant (p : Peripheral) (r : Register) : Constant :=
  ⟨Name.toConstant r.name, .address (p.base + r.offset), r.description⟩

/-- What is read for the base address of a peripheral: nothing if a register takes the name
    of that constant, or if the address is beyond the width. -/
def baseEntries (w : Width) (p : Peripheral) (rs : List Register) : List Entry :=
  if (∀ r ∈ rs, Name.toConstant r.name ≠ baseName) ∧ p.base ≤ w.maxValue then
    [⟨Name.toModule p.name, baseName, p.base⟩]
  else []

/-- The addresses of a peripheral are written or omitted as they fit in the width. -/
theorem family_addressItem (w : Width) (p : Peripheral) :
    Family Constant.name (addressConstant p) (Fits w p) (addressItem w p) where
  written r h := by
    unfold addressItem Word.add? Word.ofNat?
    rw [if_pos h.1]
    exact ⟨_, within_of_le h.2 _ _⟩
  omitted r h := by
    unfold addressItem Word.add? Word.ofNat?
    -- a sum beyond the word is omitted, and so is one beyond the width
    by_cases hword : p.base + r.offset < Word.limit
    · have hwidth : w.maxValue < p.base + r.offset := Nat.lt_of_not_le fun hle => h ⟨hword, hle⟩
      rw [if_pos hword]
      exact ⟨_, within_of_lt hwidth _ _⟩
    · rw [if_neg hword]
      exact ⟨_, rfl⟩

/-- The addresses that are written are those that fit, the first one of every name. -/
theorem contents_registerEntries (w : Width) (p : Peripheral) (rs : List Register) :
    contents ((registerEntries w p rs).map RegisterEntry.address)
      = firsts Constant.name ((rs.filter fun r => Fits w p r).map (addressConstant p)) := by
  rw [(map_registerEntries w p rs).1, (family_addressItem w p).contents_claim]

/-- The base address is listed as it is read back. -/
theorem contents_baseAddress (w : Width) (p : Peripheral) (rs : List Register) :
    (contents [baseAddress w p rs]).map (Constant.entry [Name.toModule p.name])
      = baseEntries w p rs := by
  unfold baseAddress baseEntries
  -- a register may have taken the name of the base address
  by_cases hany : (rs.any fun r => Name.toConstant r.name == baseName) = true
  · have htaken : ¬ ∀ r ∈ rs, Name.toConstant r.name ≠ baseName := by
      obtain ⟨r, hr, hname⟩ := List.any_eq_true.1 hany
      exact fun h => h r hr (by simpa using hname)
    rw [if_pos hany, if_neg fun h => htaken h.1]
    rfl
  · have hfree : ∀ r ∈ rs, Name.toConstant r.name ≠ baseName := by
      intro r hr hname
      exact hany (List.any_eq_true.2 ⟨r, hr, by simpa using hname⟩)
    rw [if_neg hany]
    by_cases hwidth : p.base ≤ w.maxValue
    · rw [if_pos ⟨hfree, hwidth⟩, within_of_le hwidth]
      rfl
    · rw [if_neg fun h => hwidth h.2, within_of_lt (Nat.lt_of_not_le hwidth)]
      rfl

/-! ## What is read in the module of a peripheral -/

/-- The constants that are read in the module of a peripheral, for the addresses that fit. -/
def addressEntries (w : Width) (p : Peripheral) (rs : List Register) : List Entry :=
  (firsts Constant.name ((rs.filter fun r => Fits w p r).map (addressConstant p))).map
    (Constant.entry [Name.toModule p.name])

/-- The path does not change the names. -/
theorem map_name_entry (base : List String) (cs : List Constant) :
    (cs.map (Constant.entry base)).map Entry.name = cs.map Constant.name := by
  rw [List.map_map]
  rfl

/-- The names that are read are those of the registers whose address fits. -/
theorem mem_map_name_addressEntries {w : Width} {p : Peripheral} {rs : List Register} {n : String} :
    n ∈ (addressEntries w p rs).map Entry.name
      ↔ ∃ r ∈ rs, Name.toConstant r.name = n ∧ Fits w p r := by
  rw [addressEntries, map_name_entry, mem_map_firsts, List.map_map, List.mem_map]
  constructor
  · intro h
    obtain ⟨r, hr, hname⟩ := h
    obtain ⟨hmem, hfits⟩ := List.mem_filter.1 hr
    exact ⟨r, hmem, hname, of_decide_eq_true hfits⟩
  · intro h
    obtain ⟨r, hr, hname, hfits⟩ := h
    exact ⟨r, List.mem_filter.2 ⟨hr, decide_eq_true hfits⟩, hname⟩

/-- The first register that fits under a name has that name, and fits. -/
theorem fits_of_find? {w : Width} {p : Peripheral} {rs : List Register} {n : String} {r : Register}
    (h : rs.find? (fun r => Name.toConstant r.name = n ∧ Fits w p r) = some r) :
    Name.toConstant r.name = n ∧ Fits w p r := by
  have hr := List.find?_some h
  exact of_decide_eq_true hr

/-- The first register of a name whose address fits is the one that is read. -/
theorem mem_addressEntries {w : Width} {p : Peripheral} {rs : List Register} {n : String}
    {r : Register} (h : rs.find? (fun r => Name.toConstant r.name = n ∧ Fits w p r) = some r) :
    ⟨Name.toModule p.name, n, p.base + r.offset⟩ ∈ addressEntries w p rs := by
  obtain ⟨hname, _⟩ := fits_of_find? h
  -- the first constant of the name is that of the first register with the name that fits
  have hfind := (family_addressItem w p).find?_contents_claim rs n
  have hpred : (fun r => decide (Constant.name (addressConstant p r) = n ∧ Fits w p r))
      = fun r => decide (Name.toConstant r.name = n ∧ Fits w p r) := rfl
  rw [hpred, h, (family_addressItem w p).contents_claim, Option.map_some] at hfind
  exact List.mem_map.2 ⟨_, mem_of_find? hfind, by rw [← hname]; rfl⟩

/-- No name is read twice from a peripheral. -/
theorem nodup_map_name_entries (w : Width) (p : Peripheral) (rs : List Register) :
    ((baseEntries w p rs ++ addressEntries w p rs).map Entry.name).Nodup := by
  have haddresses : ((addressEntries w p rs).map Entry.name).Nodup := by
    rw [addressEntries, map_name_entry]
    exact nodup_firsts _
  unfold baseEntries
  split
  · next h =>
    refine List.nodup_cons.2 ⟨?_, haddresses⟩
    intro hmem
    -- the base address is only written if no register has its name
    obtain ⟨r, hr, hname, _⟩ := mem_map_name_addressEntries.1 hmem
    exact h.1 r hr hname
  · exact haddresses

/-- If the constants of a module have different names, it does not matter that a later constant
    of a name would replace an earlier one. -/
theorem constantIn?_eq {path : String} {es : List Entry}
    (h : ((entriesIn path es).map Entry.name).Nodup) (n : String) :
    constantIn? es path n = (find? Entry.name (entriesIn path es) n).map Entry.value := by
  have hfind : es.reverse.find? (fun e => e.path == path && e.name == n)
      = find? Entry.name (entriesIn path es).reverse n := by
    rw [find?, entriesIn, ← List.filter_reverse, List.find?_filter]
    simp only [Bool.decide_and, Bool.decide_eq_true]
  rw [constantIn?, hfind, find?_reverse_of_nodup h]

/-- A constant that a module holds under a name of its own is what the name leads to. -/
theorem constantIn?_of_mem {path n : String} {v : Nat} {es : List Entry}
    (h : ((entriesIn path es).map Entry.name).Nodup) (hmem : ⟨path, n, v⟩ ∈ entriesIn path es) :
    constantIn? es path n = some v := by
  rw [constantIn?_eq h, find?_of_nodup h hmem]
  rfl

/-! ## The text below the banner -/

/-- The two lines above the constants. -/
def bannerText (device : Option String) : String :=
  "// Register and interrupt constants for " ++ device.getD "device" ++ ".\n"
    ++ "// Generated file, do not edit.\n"

/-- The text below the banner. -/
def bodyText (l : Listing) : String :=
  String.ofList (Text.unlines (l.bodyLines.map fun line => line.text.toList))

/-- The banner as characters. -/
theorem unlines_banner (device : Option String) :
    Text.unlines ((banner device).map fun line => line.text.toList)
      = (bannerText device).toList := by
  have hremark : ∀ content : String,
      (Line.remark content).text.toList = "// ".toList ++ content.toList := by
    intro content
    rw [Line.text, String.toList_append]
  -- the literals are cut where the reader cuts the line
  have hfirst : "// Register and interrupt constants for ".toList
      = "// ".toList ++ "Register and interrupt constants for ".toList := by decide +kernel
  have hstop : ".\n".toList = ".".toList ++ ['\n'] := by decide +kernel
  have hsecond : "// Generated file, do not edit.\n".toList
      = "// ".toList ++ "Generated file, do not edit.".toList ++ ['\n'] := by decide +kernel
  unfold banner bannerText
  rw [List.map_cons, List.map_cons, List.map_nil, Text.unlines_cons, Text.unlines_cons, hremark,
    hremark]
  simp only [String.toList_append, hfirst, hstop, hsecond, List.append_assoc, List.cons_append,
    List.nil_append]
  rfl

/-- A listing starts with its banner. -/
theorem text_eq_banner_append (l : Listing) : l.text = bannerText l.device ++ l.bodyText := by
  have hlines : Text.unlines (l.lines.map fun line => line.text.toList)
      = Text.unlines ((banner l.device).map fun line => line.text.toList)
        ++ Text.unlines (l.bodyLines.map fun line => line.text.toList) := by
    rw [lines_eq_banner_append, List.map_append]
    exact List.flatMap_append ..
  apply String.toList_inj.1
  rw [toList_text, hlines, unlines_banner, String.toList_append, bodyText, String.toList_ofList]

/-- What stands below the banner is the text below the banner. -/
theorem eq_bodyText {l : Listing} {body : String} (h : l.text = bannerText l.device ++ body) :
    body = l.bodyText := by
  have htexts := congrArg String.toList (h.symm.trans (text_eq_banner_append l))
  rw [String.toList_append, String.toList_append] at htexts
  exact String.toList_inj.1 (List.append_cancel_left htexts)

/-- The text below the banner is read as the constants of the listing. -/
theorem entries?_bodyText {d : Device} (h : d.WellFormed) (o : Options) :
    Reader.entries? d.width (d.listing o).bodyText = some (d.listing o).entries := by
  obtain ⟨path, _, hread⟩ := reads_bodyLines (d.listing o) ⟨[], []⟩ rfl
  rw [Reader.entries?, bodyText, String.toList_ofList,
    Reader.foldlM_step?_text (wellFormed_bodyLines h o), hread]
  rfl

end RegisterMap.Listing

namespace RegisterMap.Device

open Listing

/-- The text of a listing is read, below its banner, as some constants. -/
def ReadsAs (d : Device) (o : Options) (es : List Entry) : Prop :=
  ∃ body, (d.listing o).text = bannerText d.name ++ body ∧ Reader.entries? d.width body = some es

/-- What is read from a listing are its entries. -/
theorem WellFormed.readsAs {d : Device} (h : d.WellFormed) (o : Options) :
    d.ReadsAs o (d.listing o).entries :=
  ⟨_, text_eq_banner_append _, entries?_bodyText h o⟩

/-- A text is read in one way only. -/
theorem ReadsAs.unique {d : Device} {o : Options} {es fs : List Entry} (hes : d.ReadsAs o es)
    (hfs : d.ReadsAs o fs) : es = fs := by
  obtain ⟨body, htext, hread⟩ := hes
  obtain ⟨body', htext', hread'⟩ := hfs
  rw [eq_bodyText htext] at hread
  rw [eq_bodyText htext'] at hread'
  exact Option.some.inj (hread.symm.trans hread')

/-! ## Peripherals that are shown -/

/-- A peripheral has a module in a listing: it is selected, the name of the module is not
    reserved, and no selected peripheral in front of it takes the name. -/
structure Shows (d : Device) (o : Options) (p : Peripheral) : Prop where
  selected : o.selection.admits p.name = true
  free : Name.toModule p.name ∉ reservedModules d o
  first : ∃ before after, d.peripherals = before ++ p :: after
    ∧ ∀ q ∈ before, o.selection.admits q.name = true → Name.toModule q.name ≠ Name.toModule p.name

variable {d : Device} {o : Options} {p : Peripheral}

/-- If the modules of all peripherals have different names, then only the selection and the reserved
    names decide which peripherals are shown. -/
theorem shows_of_nodup (hnodup : (d.peripherals.map fun q => Name.toModule q.name).Nodup)
    (hp : p ∈ d.peripherals) (hselected : o.selection.admits p.name = true)
    (hfree : Name.toModule p.name ∉ reservedModules d o) : d.Shows o p := by
  obtain ⟨before, after, hd⟩ := List.append_of_mem hp
  refine ⟨hselected, hfree, before, after, hd, ?_⟩
  intro q hq _ heq
  rw [hd, List.map_append, List.map_cons] at hnodup
  have hqp := (List.nodup_append.1 hnodup).2.2 _ (List.mem_map_of_mem hq) _ List.mem_cons_self
  exact hqp heq

namespace Shows

/-- A peripheral that is shown is one of the device. -/
theorem mem (h : d.Shows o p) : p ∈ d.peripherals := by
  obtain ⟨before, after, hd, _⟩ := h.first
  rw [hd]
  exact List.mem_append_right _ List.mem_cons_self

/-- A look-up by name gives a peripheral that is shown, not one that is left out because
    its name is taken. -/
theorem peripheral?_eq (h : d.Shows o p) : d.peripheral? p.name = some p := by
  obtain ⟨before, after, hd, hbefore⟩ := h.first
  -- no earlier peripheral has the name, since it would have the module
  have hnone : before.find? (fun q => q.name == p.name) = none := by
    apply List.find?_eq_none.2
    intro q hq hname
    have hname := beq_iff_eq.1 hname
    exact hbefore q hq (hname ▸ h.selected) (congrArg Name.toModule hname)
  rw [peripheral?, FirstWins.find?, hd, List.find?_append, hnone, Option.none_or]
  exact List.find?_cons_of_pos (by simp)

/-- A peripheral that is shown has its module in the listing. -/
theorem mem_contents (h : d.Shows o p) :
    PeripheralModule.ofPeripheral d.width p (d.registersOf p.group)
      ∈ contents (d.listing o).peripherals := by
  obtain ⟨before, after, hd, hbefore⟩ := h.first
  rw [contents_peripherals, List.mem_filter, FirstWins.mem_firsts_iff, hd]
  constructor
  · -- the selected peripherals in front of it have modules of other names
    have hnone : (before.filter fun q => o.selection.admits q.name).find? (fun q =>
        Name.toModule q.name == Name.toModule p.name) = none := by
      apply List.find?_eq_none.2
      intro q hq hname
      obtain ⟨hmem, hselected⟩ := List.mem_filter.1 hq
      exact hbefore q hmem hselected (beq_iff_eq.1 hname)
    simp only [FirstWins.find?, List.find?_map, List.filter_append, List.find?_append,
      Function.comp_def, PeripheralModule.name_ofPeripheral, hnone, Option.none_or]
    rw [List.filter_cons, if_pos h.selected, List.find?_cons_of_pos (by simp), Option.map_some]
  · rw [PeripheralModule.name_ofPeripheral]
    simpa using h.free

end Shows

/-! ## The round trip -/

/-- The constants that are read in the module of a peripheral with some registers. -/
theorem Shows.entriesIn_eq (h : d.Shows o p) (hd : d.WellFormed) :
    entriesIn (Name.toModule p.name) (d.listing o).entries
      = baseEntries d.width p (d.registersOf p.group)
        ++ addressEntries d.width p (d.registersOf p.group) := by
  have hname : Name.AllWordChars (PeripheralModule.ofPeripheral d.width p
      (d.registersOf p.group)).name := by
    rw [PeripheralModule.name_ofPeripheral]
    exact Name.allWordChars_toModule (Name.allWordChars_of_isWord (hd.peripherals p h.mem).name)
  -- what is read is what the module declares
  have hread := entriesIn_listing h.mem_contents hname
  rw [PeripheralModule.name_ofPeripheral, PeripheralModule.constants, List.map_append] at hread
  rw [addressEntries, ← contents_registerEntries, ← contents_baseAddress]
  exact hread

/-- Reading back what is written for a compiled device. In the module of a peripheral that is
    shown, the base address is read exactly if no register takes the name of that constant
    and the address is within the width. Beside it, a constant of a name is read exactly if
    a register of the group has that name and its address fits, and its value is the address
    that a look-up of the first such register gives. -/
theorem readsBack_of_gives {text : String} {d : Device} (h : (ofText text).Gives d) (o : Options)
    {p : Peripheral} (hp : d.Shows o p) :
    ∃ body es g addresses, (d.listing o).text = bannerText d.name ++ body
      ∧ Reader.entries? d.width body = some es
      ∧ d.group? p.group = some g
      ∧ entriesIn (Name.toModule p.name) es = baseEntries d.width p g.registers ++ addresses
      ∧ ((entriesIn (Name.toModule p.name) es).map Entry.name).Nodup
      ∧ (∀ n, n ∈ addresses.map Entry.name
          ↔ ∃ r ∈ g.registers, Name.toConstant r.name = n ∧ Fits d.width p r)
      ∧ ∀ n r, g.registers.find? (fun r => Name.toConstant r.name = n ∧ Fits d.width p r) = some r →
          ∃ address, d.registerAddress? p.name r.name = some address
            ∧ constantIn? es (Name.toModule p.name) n = some address := by
  have hd := wellFormed_of_gives h
  obtain ⟨g, hg⟩ := hd.group p hp.mem
  -- the group of a compiled device is there, so the listing shows its registers
  have hregisters : d.registersOf p.group = g.registers := by
    rw [registersOf, hg]
  have hentries := hp.entriesIn_eq hd
  rw [hregisters] at hentries
  have hnodup : ((entriesIn (Name.toModule p.name) (d.listing o).entries).map Entry.name).Nodup := by
    rw [hentries]
    exact nodup_map_name_entries d.width p g.registers
  refine ⟨_, _, g, _, text_eq_banner_append _, entries?_bodyText hd o, hg, hentries, hnodup,
    fun n => mem_map_name_addressEntries, fun n r hr => ⟨p.base + r.offset, ?_, ?_⟩⟩
  · obtain ⟨_, hword, _⟩ := fits_of_find? hr
    -- the register is found by name, since no other one of the group has it
    have hwf := hd.groups g (FirstWins.mem_of_find? hg)
    have hregister : g.register? r.name = some r :=
      (hwf.register?_iff r.name r).2 ⟨List.mem_of_find?_eq_some hr, rfl⟩
    rw [registerAddress?, hp.peripheral?_eq, Option.bind_some, hg, Option.bind_some, hregister,
      Option.bind_some]
    exact Word.ofNat?_eq_some_iff.2 ⟨hword, rfl⟩
  · apply constantIn?_of_mem hnodup
    rw [hentries]
    exact List.mem_append_right _ (mem_addressEntries hr)

/-- The third port has one register that lies beyond the width. -/
theorem readsBack_ports :
    (ofText portsText).Gives ports
      ∧ ports.Shows {} ⟨"PB", "PORT", none, 0xFFFFFFF0, none⟩
      ∧ ∃ body es addresses, (ports.listing {}).text = bannerText (some "Ports") ++ body
        ∧ Reader.entries? .w32 body = some es
        ∧ entriesIn "pb" es = ⟨"pb", "BASE_ADDRESS", 0xFFFFFFF0⟩ :: addresses
        ∧ "OUT" ∉ addresses.map Entry.name
        ∧ constantIn? es "pb" "IN" = some 0xFFFFFFF4 := by
  have hshows : ports.Shows {} ⟨"PB", "PORT", none, 0xFFFFFFF0, none⟩ :=
    ⟨by decide +kernel, by decide +kernel, ports.peripherals.take 2, [], rfl, by decide +kernel⟩
  have hmodule : Name.toModule "PB" = "pb" := by decide +kernel
  obtain ⟨body, es, g, addresses, htext, hread, hg, hentries, _, hnames, hvalues⟩ :=
    readsBack_of_gives gives_ports {} hshows
  rw [hmodule] at hentries
  -- the device has one group only
  have hg : g ∈ ports.groups := FirstWins.mem_of_find? hg
  have hg := List.mem_singleton.1 hg
  subst hg
  refine ⟨gives_ports, hshows, body, es, addresses, htext, hread, hentries, ?_, ?_⟩
  · rw [hnames]
    decide +kernel
  · obtain ⟨address, haddress, hvalue⟩ := hvalues "IN" ⟨"IN", 4, none, none, []⟩ (by decide +kernel)
    rw [hmodule] at hvalue
    rw [hvalue, ← haddress]
    decide +kernel

end RegisterMap.Device
