import RegisterMap.Job
import RegisterMap.Proofs.Listing.Tables

/-!
# The ledger of a listing

Nothing that a listing comes to is lost without a word. What it comes to is a
tree of subjects: a group with the offsets of its registers, a peripheral with
its base address, the addresses of its registers and the modules of their
fields, and an interrupt. A ledger goes through them in depth and has one entry
for each: the line that is written for the subject, and then its members, or the
notice that it is left out, and then no members (`Device.Records`).

The lines and the notices of a listing are those of a ledger, in its order.
`Accounts` says this of a part of a listing. It is shown for the items that
claim names in one module, by what becomes of the next item
(`exists_claim_cons`), and put together part by part.

- `Device.exists_ledger`: the ledger of a listing
-/

namespace RegisterMap

namespace Listing

/-! ## Subjects -/

/-- Something that a listing shows or leaves out. -/
inductive Subject where
  | group (g : Group)
  | offset (g : Group) (r : Register)
  | peripheral (p : Peripheral)
  | base (p : Peripheral)
  | address (p : Peripheral) (r : Register)
  | fields (r : Register)
  | field (r : Register) (f : Field)
  | interrupt (i : Interrupt)
  deriving Repr, DecidableEq

namespace Subject

/-- What notices call a subject. -/
def label : Subject → String
  | group g => g.name
  | offset g r => g.name ++ "." ++ r.name
  | peripheral p => p.name
  | base p => p.name
  | address p r => p.name ++ "." ++ r.name
  | fields r => r.name
  | field r f => r.name ++ "." ++ f.name
  | interrupt i => i.name

/-- The line that shows a subject: the start of its module, or its constant. -/
def line (w : Width) : Subject → Line
  | group g => .start 1 (Name.toModule g.name)
  | offset _ r => .constant 2 (Name.toConstant r.name) w (.address r.offset)
  | peripheral p => .start 0 (Name.toModule p.name)
  | base p => .constant 1 baseName w (.address p.base)
  | address p r => .constant 1 (Name.toConstant r.name) w (.address (p.base + r.offset))
  | fields r => .start 1 (Name.toModule r.name)
  | field _ f => .constant 2 (Name.toConstant f.name) w (.number f.bitOffset)
  | interrupt i =>
    if i.valid then .constant 1 (Name.toConstant i.name) w (.number i.number)
    else .placeholder 1 (Name.toConstant i.name) w i.number (i.description.getD "")

/-- The subjects of a register in a peripheral: its address, and the module of its fields if it has
    any. -/
def ofRegister (p : Peripheral) (r : Register) : List Subject :=
  address p r :: if r.fields.isEmpty then [] else [fields r]

/-- The subjects inside the module of a subject. -/
def members (d : Device) : Subject → List Subject
  | group g => g.registers.map (offset g)
  | peripheral p => base p :: (d.registersOf p.group).flatMap (ofRegister p)
  | fields r => r.fields.map (field r)
  | _ => []

/-- A notice warns of a subject, by what it is called. -/
def Warns (s : Subject) (n : Notice) : Prop :=
  n.level = .warn ∧ ∃ rest, n.message = s.label ++ ": " ++ rest

/-- A text that starts with the mark behind a label may be split behind the mark. -/
theorem append_mark (label rest : String) {s : String} (h : s.toList = ": ".toList ++ rest.toList) :
    label ++ s = label ++ ": " ++ rest := by
  have hs : s = ": " ++ rest := String.toList_inj.1 (h.trans String.toList_append.symm)
  rw [hs, String.append_assoc]

/-- A thing may be omitted since its name is taken. -/
theorem warns_collision (s : Subject) (name : String) : s.Warns (.collision s.label name) := by
  have hmessage : (Notice.collision s.label name).message
      = s.label ++ ": `" ++ name ++ "` collides with an earlier item, skipped" := rfl
  refine ⟨rfl, "`" ++ name ++ "` collides with an earlier item, skipped", ?_⟩
  rw [hmessage, append_mark s.label "`" rfl]
  simp only [String.append_assoc]

/-- It may be omitted since its value is too wide. -/
theorem warns_tooWide (s : Subject) (value : Nat) (w : Width) :
    s.Warns (.tooWide s.label value w) := by
  have hmessage : (Notice.tooWide s.label value w).message
      = s.label ++ ": " ++ Numeral.hex value ++ " does not fit in " ++ w.typeName ++ ", skipped" := rfl
  refine ⟨rfl, Numeral.hex value ++ " does not fit in " ++ w.typeName ++ ", skipped", ?_⟩
  rw [hmessage]
  simp only [String.append_assoc]

/-- An address may be omitted since no word holds it. -/
theorem warns_addressOverflow (s : Subject) : s.Warns (.addressOverflow s.label) := by
  have hmessage : (Notice.addressOverflow s.label).message
      = s.label ++ ": address overflows, skipped" := rfl
  exact ⟨rfl, "address overflows, skipped", hmessage.trans (append_mark _ _ rfl)⟩

/-- A base address may be omitted since a register has its name. -/
theorem warns_baseOmitted (p : Peripheral) : (base p).Warns (.baseOmitted p.name) := by
  have hmessage : (Notice.baseOmitted p.name).message
      = (base p).label ++ ": register named BASE_ADDRESS, base address constant omitted" := rfl
  exact ⟨rfl, "register named BASE_ADDRESS, base address constant omitted",
    hmessage.trans (append_mark _ _ rfl)⟩

end Subject

/-! ## Ledgers -/

/-- Whether a line shows a subject: the start of a module, a constant or a placeholder. -/
def Line.isItem : Line → Bool
  | start _ _ => true
  | constant _ _ _ _ => true
  | placeholder _ _ _ _ _ => true
  | _ => false

/-- Every thing has a line that counts. -/
theorem Subject.isItem_line (w : Width) (s : Subject) : (s.line w).isItem = true := by
  cases s with
  | interrupt i =>
    simp only [line]
    split <;> rfl
  | _ => rfl

/-- What became of each subject, in order. -/
abbrev Ledger := List (Subject × Verdict Line)

namespace Ledger

/-- The lines that are written. -/
def lines (l : Ledger) : List Line := contents (l.map Prod.snd)

/-- The notices on what is left out. -/
def notices (l : Ledger) : List Notice := l.flatMap fun e => e.2.notices fun _ => []

/-- The lines of two ledgers stand one behind the other. -/
@[simp] theorem lines_append (l m : Ledger) : lines (l ++ m) = lines l ++ lines m := by
  simp [lines, contents]

@[simp] theorem notices_append (l m : Ledger) : notices (l ++ m) = notices l ++ notices m :=
  List.flatMap_append ..

/-- Every entry is a line or a notice. -/
theorem length_notices_add_length_lines (l : Ledger) :
    (notices l).length + (lines l).length = l.length := by
  induction l with
  | nil => rfl
  | cons e l ih =>
    obtain ⟨s, v⟩ := e
    cases v with
    | written line =>
      have hlines : lines ((s, .written line) :: l) = line :: lines l := rfl
      have hnotices : notices ((s, .written line) :: l) = notices l := rfl
      rw [hlines, hnotices, List.length_cons, List.length_cons, ← ih, Nat.add_assoc]
    -- an entry is either a line or a notice
    | omitted n =>
      have hlines : lines ((s, .omitted n) :: l) = lines l := rfl
      have hnotices : notices ((s, .omitted n) :: l) = n :: notices l := rfl
      rw [hlines, hnotices, List.length_cons, List.length_cons, ← ih, Nat.add_right_comm]

end Ledger

end Listing

open Listing

namespace Device

/-- A ledger of some subjects: for each of them its line and a ledger of its members, or a notice
    that warns of it. -/
inductive Records (d : Device) : List Subject → Ledger → Prop
  | nil : Records d [] []
  | written {s : Subject} {ss : List Subject} {inside rest : Ledger}
      (hinside : Records d (s.members d) inside) (hrest : Records d ss rest) :
      Records d (s :: ss) ((s, .written (s.line d.width)) :: (inside ++ rest))
  | omitted {s : Subject} {ss : List Subject} {n : Notice} {rest : Ledger} (hn : s.Warns n)
      (hrest : Records d ss rest) : Records d (s :: ss) ((s, .omitted n) :: rest)

variable {d : Device} {ss ts : List Subject} {l m : Ledger}

/-- What is recorded in two parts is recorded in both together. -/
theorem Records.append (hl : d.Records ss l) (hm : d.Records ts m) : d.Records (ss ++ ts) (l ++ m) := by
  induction hl with
  | nil => exact hm
  | written hinside _ _ ih =>
    rw [List.cons_append, List.cons_append, List.append_assoc]
    exact .written hinside ih
  | omitted hn _ ih => exact .omitted hn ih

/-- All notices of a ledger are warnings. -/
theorem Records.level_eq_warn (h : d.Records ss l) : ∀ n ∈ Ledger.notices l, n.level = .warn := by
  induction h with
  | nil => exact fun n hn => absurd hn List.not_mem_nil
  | @written s _ inside rest _ _ ihinside ihrest =>
    -- the notices of a written thing are those of its members
    have hnotices : Ledger.notices ((s, .written (s.line d.width)) :: (inside ++ rest))
        = Ledger.notices inside ++ Ledger.notices rest := Ledger.notices_append inside rest
    rw [hnotices]
    exact List.forall_mem_append.2 ⟨ihinside, ihrest⟩
  | omitted hn _ ih => exact List.forall_mem_cons.2 ⟨hn.1, ih⟩

/-! ## Parts of a listing -/

/-- Some lines and notices are those of a ledger of some subjects. Lines that show no subject do not
    count. -/
def Accounts (d : Device) (ss : List Subject) (ls : List Line) (ns : List Notice) : Prop :=
  ∃ l, d.Records ss l ∧ ls.filter Line.isItem = Ledger.lines l ∧ ns = Ledger.notices l

namespace Accounts

variable {s : Subject} {ls ms : List Line} {ns os : List Notice}

/-- Nothing accounts for nothing. -/
theorem nil : d.Accounts [] [] [] := ⟨[], .nil, rfl, rfl⟩

/-- Two accounts make one. -/
theorem append (h : d.Accounts ss ls ns) (h' : d.Accounts ts ms os) :
    d.Accounts (ss ++ ts) (ls ++ ms) (ns ++ os) := by
  obtain ⟨l, hl, hls, rfl⟩ := h
  obtain ⟨m, hm, hms, rfl⟩ := h'
  refine ⟨l ++ m, hl.append hm, ?_, (Ledger.notices_append l m).symm⟩
  rw [List.filter_append, hls, hms, Ledger.lines_append]

/-- Lines that show no subject may be added. -/
theorem of_filter_eq (h : d.Accounts ss ls ns)
    (heq : ms.filter Line.isItem = ls.filter Line.isItem) : d.Accounts ss ms ns := by
  obtain ⟨l, hl, hls, hns⟩ := h
  exact ⟨l, hl, heq.trans hls, hns⟩

/-- A thing that is written accounts for its line, with those of its members. -/
theorem written (h : d.Accounts (s.members d) ls ns) : d.Accounts [s] (s.line d.width :: ls) ns := by
  obtain ⟨l, hl, hls, rfl⟩ := h
  refine ⟨_, .written hl .nil, ?_, ?_⟩
  · rw [List.filter_cons_of_pos (s.isItem_line d.width), hls, List.append_nil]
    rfl
  · rw [List.append_nil]
    rfl

/-- A thing that is omitted accounts for one warning. -/
theorem omitted {n : Notice} (hn : s.Warns n) : d.Accounts [s] [] [n] :=
  ⟨_, .omitted hn .nil, rfl, rfl⟩

end Accounts

/-- The lines of a description do not count. -/
theorem filter_docLines (depth : Nat) (description : Option String) :
    (docLines depth description).filter Line.isItem = [] := by
  cases description <;> rfl

/-- Of a module, its head counts and what counts in its body. -/
theorem filter_enclose (depth : Nat) (name : String) (body : List Line) :
    (Listing.enclose depth name body).filter Line.isItem
      = .start depth name :: body.filter Line.isItem := by
  rw [Listing.enclose, List.filter_append, List.filter_cons_of_pos rfl]
  exact List.append_nil _

/-- A module shows a subject, and its members inside. -/
theorem Accounts.enclose {s : Subject} {ls : List Line} {ns : List Notice} {depth : Nat}
    {name : String} (h : d.Accounts (s.members d) ls ns)
    (hline : s.line d.width = .start depth name) :
    d.Accounts [s] (Listing.enclose depth name ls) ns := by
  refine h.written.of_filter_eq ?_
  rw [filter_enclose, hline, List.filter_cons_of_pos rfl]

/-! ## Claims -/

/-- What may become of an item that claims a name: it is left out for the reason it has, it is
    written, or its name is taken. -/
inductive Decides {α : Type} : Verdict (Item α) → Verdict α → Prop
  | omitted (n : Notice) : Decides (.omitted n) (.omitted n)
  | written (item : Item α) : Decides (.written item) (.written item.content)
  | collision {item : Item α} {name : String} (h : item.name = some name) :
      Decides (.written item) (.omitted (.collision item.label name))

/-- Claiming goes on with the other items once one has been decided. -/
theorem exists_claim_cons {α : Type} (taken : List String) (v : Verdict (Item α))
    (items : List (Verdict (Item α))) :
    ∃ verdict taken', claim taken (v :: items) = verdict :: claim taken' items
      ∧ Decides v verdict := by
  cases v with
  | omitted n => exact ⟨_, taken, claim_cons_omitted taken n items, .omitted n⟩
  | written item =>
    obtain ⟨label, name, content⟩ := item
    cases name with
    | none => exact ⟨_, taken, claim_cons_unnamed taken label content items, .written _⟩
    | some name =>
      -- the names that are taken decide between writing and a collision
      by_cases h : name ∈ taken
      · exact ⟨_, taken, claim_cons_taken h label content items, .collision rfl⟩
      · exact ⟨_, name :: taken, claim_cons_free h label content items, .written _⟩

/-- Items that claim names account for their subjects if each of them does, whatever becomes of
    it. -/
theorem accounts_claim {α ι : Type} {subject : ι → Subject} {item : ι → Verdict (Item α)}
    {inner : α → List Line} {innerNotices : α → List Notice} (taken : List String) (is : List ι)
    (h : ∀ i ∈ is, ∀ v, Decides (item i) v →
      d.Accounts [subject i] (v.lines inner) (v.notices innerNotices)) :
    d.Accounts (is.map subject) ((claim taken (is.map item)).flatMap (Verdict.lines inner))
      ((claim taken (is.map item)).flatMap (Verdict.notices innerNotices)) := by
  induction is generalizing taken with
  | nil => exact .nil
  | cons i is ih =>
    obtain ⟨hi, his⟩ := List.forall_mem_cons.1 h
    -- the first item is decided, and passes on the names that are taken
    obtain ⟨v, taken', hclaim, hv⟩ := exists_claim_cons taken (item i) (is.map item)
    rw [List.map_cons, List.map_cons, hclaim, List.flatMap_cons, List.flatMap_cons]
    exact (hi v hv).append (ih taken' his)

/-- A value is omitted since it is too wide. -/
theorem omitted_of_within {α : Type} {w : Width} {label : String} {value : Nat} {a : α} {n : Notice}
    (h : within w label value a = .omitted n) : n = .tooWide label value w := by
  unfold within at h
  split at h
  · cases h
  · exact (Verdict.omitted.inj h).symm

/-- A constant accounts for its line, or for the warning that it is omitted with. -/
theorem accounts_constant {s : Subject} {c : Constant} {depth : Nat} {v : Verdict Constant}
    (hv : Decides (Constant.item d.width s.label c) v) (hmembers : s.members d = [])
    (hline : s.line d.width = .constant depth c.name d.width c.literal) :
    d.Accounts [s] (v.lines (Constant.lines d.width depth)) (v.notices fun _ => []) := by
  generalize hitem : Constant.item d.width s.label c = item at hv
  cases hv with
  | omitted n =>
    -- too wide, written, or taken
    obtain rfl := omitted_of_within hitem
    exact .omitted (s.warns_tooWide _ _)
  | written x =>
    obtain ⟨_, rfl⟩ := written_of_item hitem
    have hmembers : d.Accounts (s.members d) [] [] := hmembers ▸ .nil
    refine hmembers.written.of_filter_eq ?_
    rw [Verdict.lines, Constant.lines, List.filter_append, filter_docLines, hline]
    rfl
  | @collision x name hname =>
    obtain ⟨_, rfl⟩ := written_of_item hitem
    exact .omitted (s.warns_collision name)

/-! ## Groups, peripherals and interrupts -/

/-- A group accounts for its line and those of its offsets, or for one warning. -/
theorem accounts_group {g : Group} {v : Verdict Table} (hv : Decides (groupItem d.width g) v) :
    d.Accounts [.group g] (v.lines (Table.lines d.width 1)) (v.notices Table.notices) := by
  generalize hitem : groupItem d.width g = item at hv
  cases hv with
  -- a group is never too wide
  | omitted n => cases hitem
  | written x =>
    obtain rfl := Verdict.written.inj hitem
    refine .enclose ?_ rfl
    exact accounts_claim [] g.registers fun r _ v hv => accounts_constant (s := .offset g r) hv rfl rfl
  | @collision x name hname =>
    obtain rfl := Verdict.written.inj hitem
    exact .omitted (Subject.warns_collision (.group g) name)

/-- An address accounts for its line, or for one warning. -/
theorem accounts_address {p : Peripheral} {r : Register} {v : Verdict Constant}
    (hv : Decides (addressItem d.width p r) v) :
    d.Accounts [.address p r] (v.lines (Constant.lines d.width 1)) (v.notices fun _ => []) := by
  unfold addressItem Word.add? Word.ofNat? at hv
  -- the sum overflows the word, or is left to the width
  by_cases hword : p.base + r.offset < Word.limit
  · rw [if_pos hword] at hv
    exact accounts_constant (s := .address p r) hv rfl rfl
  · rw [if_neg hword] at hv
    cases hv with
    | omitted n => exact .omitted (Subject.warns_addressOverflow (.address p r))

/-- A register without fields says nothing of them. -/
theorem accounts_fields {r : Register} {v : Verdict (Option Table)}
    (hv : Decides (fieldsItem d.width r) v) :
    d.Accounts (if r.fields.isEmpty then [] else [.fields r])
      (v.lines fun fields => fields.toList.flatMap (Table.lines d.width 1))
      (v.notices fun fields => fields.toList.flatMap Table.notices) := by
  by_cases hfields : r.fields = []
  · -- a register without fields has no module that could be omitted
    rw [fieldsItem_eq_unnamed d.width hfields] at hv
    rw [if_pos (by simp [hfields])]
    cases hv with
    | written x => exact .nil
    | collision hname => cases hname
  · rw [fieldsItem_eq_named d.width hfields] at hv
    rw [if_neg (by simp [hfields])]
    cases hv with
    | written x =>
      rw [Verdict.lines, Verdict.notices, Option.toList_some, List.flatMap_singleton,
        List.flatMap_singleton]
      refine .enclose ?_ rfl
      exact accounts_claim [] r.fields fun f _ v hv => accounts_constant (s := .field r f) hv rfl rfl
    | @collision x name hname => exact .omitted (Subject.warns_collision (.fields r) name)

/-- The registers of a peripheral. Addresses and fields are claimed apart from each other, so that
    each list has taken names of its own by then. -/
theorem accounts_registers (p : Peripheral) (rs : List Register) (taken taken' : List String) :
    d.Accounts (rs.flatMap (Subject.ofRegister p))
      ((List.zipWith RegisterEntry.mk (claim taken (rs.map (addressItem d.width p)))
        (claim taken' (rs.map (fieldsItem d.width)))).flatMap (RegisterEntry.lines d.width))
      ((List.zipWith RegisterEntry.mk (claim taken (rs.map (addressItem d.width p)))
        (claim taken' (rs.map (fieldsItem d.width)))).flatMap RegisterEntry.notices) := by
  induction rs generalizing taken taken' with
  | nil => exact .nil
  | cons r rs ih =>
    obtain ⟨v, next, hclaim, hv⟩ := exists_claim_cons taken (addressItem d.width p r)
      (rs.map (addressItem d.width p))
    obtain ⟨v', next', hclaim', hv'⟩ := exists_claim_cons taken' (fieldsItem d.width r)
      (rs.map (fieldsItem d.width))
    rw [List.map_cons, List.map_cons, hclaim, hclaim', List.zipWith_cons_cons, List.flatMap_cons,
      List.flatMap_cons, List.flatMap_cons]
    -- the address and the fields are claimed apart, each from the names of its own
    exact ((accounts_address hv).append (accounts_fields hv')).append (ih next next')

/-- The base address does too. -/
theorem accounts_base (p : Peripheral) (rs : List Register) :
    d.Accounts [.base p] ((baseAddress d.width p rs).lines (Constant.lines d.width 1))
      ((baseAddress d.width p rs).notices fun _ => []) := by
  unfold baseAddress
  -- a register that has the name keeps the base address out
  split
  · exact .omitted (Subject.warns_baseOmitted p)
  · by_cases hwidth : p.base ≤ d.width.maxValue
    · rw [within_of_le hwidth]
      exact Accounts.written .nil
    · rw [within_of_lt (Nat.lt_of_not_le hwidth)]
      exact .omitted (Subject.warns_tooWide (.base p) _ _)

/-- A peripheral accounts for its line and all in it, or for one warning. -/
theorem accounts_peripheral {p : Peripheral} {v : Verdict PeripheralModule}
    (hv : Decides (peripheralItem d p) v) :
    d.Accounts [.peripheral p] (v.lines fun m => .blank :: m.lines d.width)
      (v.notices PeripheralModule.notices) := by
  generalize hitem : peripheralItem d p = item at hv
  cases hv with
  | omitted n => cases hitem
  | written x =>
    obtain rfl := Verdict.written.inj hitem
    -- the base address first, then the registers
    have hinside := (accounts_base (d := d) p (d.registersOf p.group)).append
      (accounts_registers p (d.registersOf p.group) [] [])
    have hmodule : d.Accounts [.peripheral p] _ _ := Accounts.enclose hinside rfl
    refine hmodule.of_filter_eq ?_
    rw [Verdict.lines, PeripheralModule.lines, ← List.cons_append, List.filter_append]
    rw [List.filter_cons_of_neg (by simp [Line.isItem]), filter_docLines]
    rfl
  | @collision x name hname =>
    obtain rfl := Verdict.written.inj hitem
    exact .omitted (Subject.warns_collision (.peripheral p) name)

/-- An interrupt accounts for its line, or for one warning. -/
theorem accounts_interrupt {i : Interrupt} {v : Verdict Vector}
    (hv : Decides (interruptItem d.width i) v) :
    d.Accounts [.interrupt i] (v.lines (Vector.lines d.width)) (v.notices fun _ => []) := by
  generalize hitem : interruptItem d.width i = item at hv
  cases hv with
  | omitted n =>
    obtain rfl := omitted_of_within hitem
    exact .omitted (Subject.warns_tooWide (.interrupt i) _ _)
  | written x =>
    obtain ⟨_, rfl⟩ := written_of_within hitem
    have hline : d.Accounts [.interrupt i] [(Subject.interrupt i).line d.width] [] :=
      Accounts.written .nil
    refine hline.of_filter_eq ?_
    simp only [Subject.line]
    -- a placeholder is a comment, any other vector a constant
    split
    · rw [Verdict.lines, Vector.lines, Constant.lines, List.filter_append, filter_docLines]
      rfl
    · rfl
  | @collision x name hname =>
    obtain ⟨_, rfl⟩ := written_of_within hitem
    have hlabel : ∀ x : Item Vector, x.label = i.name → Subject.Warns (.interrupt i)
        (.collision x.label name) := by
      intro x hx
      rw [hx]
      exact Subject.warns_collision (.interrupt i) name
    refine .omitted (hlabel _ ?_)
    split <;> rfl

/-! ## Listings -/

/-- The groups that a listing comes to. -/
def reachedGroups (d : Device) (o : Options) : List Subject :=
  if o.groups then d.groups.map .group else []

/-- The peripherals that a listing comes to. -/
def reachedPeripherals (d : Device) (o : Options) : List Subject :=
  (d.peripherals.filter fun p => o.selection.admits p.name).map .peripheral

/-- The interrupts that a listing comes to, placeholders included. -/
def reachedInterrupts (d : Device) : List Subject := d.interrupts.map .interrupt

/-- The start of a module that stands beside the peripherals, if it is shown. -/
def header (name : String) (shown : Bool) : List Line := if shown then [.start 0 name] else []

/-- There is a ledger of the groups, if they are listed. -/
theorem exists_groups_ledger (d : Device) (o : Options) :
    ∃ l, d.Records (d.reachedGroups o) l
      ∧ ((d.listing o).groups.toList.flatMap fun groups =>
          .blank :: groupLines d.width groups).filter Line.isItem
        = header "groups" (o.groups && !d.groups.isEmpty) ++ Ledger.lines l
      ∧ (d.listing o).groups.toList.flatMap (·.flatMap (Verdict.notices Table.notices))
        = Ledger.notices l := by
  by_cases hshown : (o.groups && !d.groups.isEmpty) = true
  · have hgroups : (d.listing o).groups = some (claim [] (d.groups.map (groupItem d.width))) :=
      if_pos hshown
    have ho : o.groups = true := (Bool.and_eq_true_iff.1 hshown).1
    have haccounts : d.Accounts (d.groups.map .group)
        ((claim [] (d.groups.map (groupItem d.width))).flatMap (Verdict.lines (Table.lines d.width 1)))
        ((claim [] (d.groups.map (groupItem d.width))).flatMap (Verdict.notices Table.notices)) :=
      accounts_claim [] d.groups fun g _ v hv => accounts_group hv
    obtain ⟨l, hl, hls, hns⟩ := haccounts
    rw [reachedGroups, if_pos ho, hgroups, header, if_pos hshown, Option.toList_some,
      List.flatMap_singleton, List.flatMap_singleton]
    refine ⟨l, hl, ?_, hns⟩
    rw [← hls, List.filter_cons_of_neg (by decide), groupLines, filter_enclose,
      List.filter_cons_of_neg (by decide)]
    rfl
  · have hgroups : (d.listing o).groups = none := if_neg hshown
    -- there are no groups to show, or they are not wanted
    have hreached : d.reachedGroups o = [] := by
      unfold reachedGroups
      split
      · next ho => simpa [ho] using hshown
      · rfl
    rw [hreached, hgroups, header, if_neg hshown]
    exact ⟨[], .nil, rfl, rfl⟩

/-- There is a ledger of the interrupts. -/
theorem exists_interrupts_ledger (d : Device) (o : Options) :
    ∃ l, d.Records d.reachedInterrupts l
      ∧ ((d.listing o).interrupts.toList.flatMap fun vectors =>
          .blank :: interruptLines d.width vectors).filter Line.isItem
        = header "interrupts" (!d.interrupts.isEmpty) ++ Ledger.lines l
      ∧ (d.listing o).interrupts.toList.flatMap (·.flatMap (Verdict.notices fun _ => []))
        = Ledger.notices l := by
  by_cases hnone : d.interrupts.isEmpty = true
  · have hinterrupts : (d.listing o).interrupts = none := if_pos hnone
    rw [reachedInterrupts, List.isEmpty_iff.1 hnone, hinterrupts]
    exact ⟨[], .nil, rfl, rfl⟩
  · have hinterrupts : (d.listing o).interrupts
        = some (claim [] (d.interrupts.map (interruptItem d.width))) := if_neg hnone
    -- what is listed is what the names leave of the interrupts
    have haccounts : d.Accounts d.reachedInterrupts
        ((claim [] (d.interrupts.map (interruptItem d.width))).flatMap
          (Verdict.lines (Vector.lines d.width)))
        ((claim [] (d.interrupts.map (interruptItem d.width))).flatMap
          (Verdict.notices fun _ => [])) :=
      accounts_claim [] d.interrupts fun i _ v hv => accounts_interrupt hv
    obtain ⟨l, hl, hls, hns⟩ := haccounts
    rw [hinterrupts, header, if_pos (by simpa using hnone), Option.toList_some,
      List.flatMap_singleton, List.flatMap_singleton]
    refine ⟨l, hl, ?_, hns⟩
    rw [← hls, List.filter_cons_of_neg (by decide), interruptLines, filter_enclose]
    rfl

/-- Leaving out the descriptions leaves all lines that show something. -/
theorem filter_lines (l : Listing) :
    l.lines.filter Line.isItem = l.describedLines.filter Line.isItem := by
  rw [lines, List.filter_filter]
  refine List.filter_congr fun line _ => ?_
  cases line <;> simp [Line.isItem, Line.isDoc]

/-- A listing accounts for everything it comes to. There is a ledger of the groups, if they are
    wanted, of the selected peripherals and of the interrupts. The lines that are written are the
    lines of the ledger in its order, under the headers of the groups and of the interrupts, and
    the notices that are made are its notices in its order, all of them warnings. So there are as
    many notices as there are subjects without a line. -/
theorem exists_ledger (d : Device) (o : Options) :
    ∃ groups peripherals interrupts : Ledger,
      d.Records (d.reachedGroups o) groups ∧ d.Records (d.reachedPeripherals o) peripherals
      ∧ d.Records d.reachedInterrupts interrupts
      ∧ (d.listingText o).Gives (String.join ((d.listing o).lines.map fun line => line.text ++ "\n"))
      ∧ (d.listing o).lines.filter Line.isItem
        = header "groups" (o.groups && !d.groups.isEmpty) ++ Ledger.lines groups
          ++ Ledger.lines peripherals
          ++ (header "interrupts" (!d.interrupts.isEmpty) ++ Ledger.lines interrupts)
      ∧ (d.listingText o).notices
        = Ledger.notices groups ++ Ledger.notices peripherals ++ Ledger.notices interrupts
      ∧ (∀ n ∈ (d.listingText o).notices, n.level = .warn)
      ∧ (d.listingText o).notices.length
          + (Ledger.lines (groups ++ peripherals ++ interrupts)).length
        = (groups ++ peripherals ++ interrupts).length := by
  obtain ⟨gs, hgs, hglines, hgnotices⟩ := exists_groups_ledger d o
  obtain ⟨is, his, hilines, hinotices⟩ := exists_interrupts_ledger d o
  have haccounts : d.Accounts (d.reachedPeripherals o)
      ((d.listing o).peripherals.flatMap (Verdict.lines fun m => .blank :: m.lines d.width))
      ((d.listing o).peripherals.flatMap (Verdict.notices PeripheralModule.notices)) :=
    accounts_claim (reservedModules d o) _ fun p _ v hv => accounts_peripheral hv
  obtain ⟨ps, hps, hplines, hpnotices⟩ := haccounts
  have hnotices : (d.listingText o).notices
      = Ledger.notices gs ++ Ledger.notices ps ++ Ledger.notices is := by
    rw [← hgnotices, ← hpnotices, ← hinotices]
    exact List.append_nil _
  refine ⟨gs, ps, is, hgs, hps, his, ?_, ?_, hnotices, ?_, ?_⟩
  · simp [listingText, Listing.text]
  · -- the banner does not count
    have hbanner : (banner (d.listing o).device).filter Line.isItem = [] := rfl
    rw [filter_lines, describedLines, List.filter_append, List.filter_append, List.filter_append,
      hbanner, List.nil_append, ← hplines]
    exact congrArg₂ _ (congrArg₂ _ hglines rfl) hilines
  · rw [hnotices]
    exact List.forall_mem_append.2
      ⟨List.forall_mem_append.2 ⟨hgs.level_eq_warn, hps.level_eq_warn⟩, his.level_eq_warn⟩
  · rw [hnotices, ← Ledger.notices_append, ← Ledger.notices_append]
    exact Ledger.length_notices_add_length_lines _

/-- In the third port one address is beyond the width. -/
example : (ports.listingText {}).notices = [.tooWide "PB.OUT" 0x100000004 .w32] := by
  decide +kernel

end Device
end RegisterMap
