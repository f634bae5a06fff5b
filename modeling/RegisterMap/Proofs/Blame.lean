import RegisterMap.Compile
import RegisterMap.Proofs.Dimension
import RegisterMap.Proofs.Element
import RegisterMap.Proofs.Walk

/-!
# What a fault blames

Every fault of reading a peripheral blames a declaration, and the location that
it names leads from the root of the description to that declaration (`Leads`).
The faults of a description as a whole, of its width and of links between
peripherals, blame none, and neither does a program that breaks off.

A reading is given a location and blames it, or a place below it. `Blames` says
so of the paths that may be blamed, and there is one lemma for every kind of
reading, in the order in which they are built on each other. A reading that
goes through nested declarations asks for more paths, one for each of them.

- `Draft.blames_addPeripheral`: what one peripheral can blame
- `Device.fails_at_culprit`: the blamed declaration alone matters; nothing
  behind its peripheral does, and nothing in front of it is to blame
-/

namespace RegisterMap

open Xml (Element)

/-! ## Paths -/

namespace Location

/-- The way to a location: the kind and the index of every declaration, without the names. -/
def path (loc : Location) : List (String × Nat) := loc.steps.map fun step => (step.kind, step.index)

/-- A nested declaration is one step further. -/
@[simp] theorem path_child (loc : Location) (kind : String) (index : Nat) (name : Option String) :
    (loc.child kind index name).path = loc.path ++ [(kind, index)] := by
  simp [path, child]

/-- A name does not count as a step. -/
@[simp] theorem path_named (loc : Location) (name : String) : (loc.named name).path = loc.path := by
  unfold named
  split
  · rfl
  · -- the last step keeps its kind and index
    next step outer hreverse =>
    have hsteps : loc.steps = outer.reverse ++ [step] := by
      rw [← loc.steps.reverse_reverse, hreverse, List.reverse_cons]
    simp [path, hsteps]

end Location

/-- A path leads from the root of a description to a declaration. -/
inductive Leads (e : Element) : List (String × Nat) → Element → Prop
  | peripheral {i : Nat} {p : Element} (h : (e.nested "peripherals" "peripheral")[i]? = some p) :
      Leads e [("peripheral", i)] p
  | interrupt {i j : Nat} {p x : Element} (hp : Leads e [("peripheral", i)] p)
      (h : (p.childrenNamed "interrupt")[j]? = some x) :
      Leads e [("peripheral", i), ("interrupt", j)] x
  | register {i j : Nat} {p x : Element} (hp : Leads e [("peripheral", i)] p)
      (h : (p.nested "registers" "register")[j]? = some x) :
      Leads e [("peripheral", i), ("register", j)] x
  | field {i j k : Nat} {r x : Element} (hr : Leads e [("peripheral", i), ("register", j)] r)
      (h : (r.nested "fields" "field")[k]? = some x) :
      Leads e [("peripheral", i), ("register", j), ("field", k)] x

/-! ## Blaming -/

namespace Checked

variable {α β σ : Type} {P : List (String × Nat) → Prop}

/-- Every fault of the reading blames a declaration, on one of the given paths, unless the program
    has broken off. -/
def Blames (P : List (String × Nat) → Prop) (x : Checked α) : Prop :=
  ∀ f, x.Fails f → f = .capacityOverflow ∨ ∃ loc, f.location? = some loc ∧ P loc.path

/-- A value blames nothing. -/
@[simp] theorem blames_pure (a : α) : (pure a : Checked α).Blames P :=
  fun _ h => absurd h not_fails_pure

@[simp] theorem blames_note (n : Notice) : (note n).Blames P := fun _ h => absurd h not_fails_note

@[simp] theorem blames_noteAll (ns : List Notice) : (noteAll ns).Blames P :=
  fun _ h => absurd h not_fails_noteAll

/-- A fault blames the location that it has. -/
theorem blames_fail {f : Fault} {loc : Location} (hloc : f.location? = some loc) (h : P loc.path) :
    (fail f : Checked α).Blames P := by
  intro g hg
  obtain rfl := fails_fail.1 hg
  exact .inr ⟨loc, hloc, h⟩

/-- A program that breaks off blames nothing. -/
theorem blames_fail_capacityOverflow : (fail .capacityOverflow : Checked α).Blames P :=
  fun _ hg => .inl (fails_fail.1 hg).symm

/-- A value that is required blames the location of the fault in its place. -/
theorem blames_require {f : Fault} {loc : Location} (a? : Option α)
    (hloc : f.location? = some loc) (h : P loc.path) : (require a? f).Blames P := by
  cases a? with
  | none => exact blames_fail hloc h
  | some a => exact blames_pure a

/-- A result blames what each of its faults blames. -/
theorem blames_ofExcept {r : Except Fault α} {loc : Location}
    (hloc : ∀ f, r = .error f → f.location? = some loc) (h : P loc.path) :
    (ofExcept r).Blames P :=
  fun f hf => .inr ⟨loc, hloc f (fails_ofExcept.1 hf), h⟩

/-- A sequence blames what its parts may blame. -/
theorem Blames.bind {x : Checked α} {g : α → Checked β} (hx : x.Blames P)
    (hg : ∀ a, (g a).Blames P) : (x >>= g).Blames P := by
  intro f hf
  obtain hf | ⟨a, _, hf⟩ := fails_bind.1 hf
  · exact hx f hf
  · exact hg a f hf

/-- What is done with a value blames nothing more. -/
theorem Blames.map {x : Checked α} (g : α → β) (hx : x.Blames P) : (g <$> x).Blames P :=
  fun f hf => hx f (fails_map.1 hf)

/-- A notice in front of a reading blames nothing more. -/
theorem Blames.noteIf {p : Prop} [Decidable p] {n : Notice} {x : Checked α} (hx : x.Blames P) :
    (if p then (do note n; x) else x).Blames P :=
  fun f hf => hx f (fails_noteIf.1 hf)

/-- A list that is read one by one blames what the reading of a member may blame. -/
theorem Blames.mapM {g : α → Checked β} {as : List α} (hg : ∀ a ∈ as, (g a).Blames P) :
    (as.mapM g).Blames P := by
  intro f hf
  obtain ⟨a, ha, hf⟩ := exists_fails_of_mapM hf
  exact hg a ha f hf

/-- So does a list that is only checked. -/
theorem Blames.forM {g : α → Checked PUnit} {as : List α} (hg : ∀ a ∈ as, (g a).Blames P) :
    (as.forM g).Blames P := by
  intro f hf
  obtain ⟨a, ha, hf⟩ := exists_fails_of_forM hf
  exact hg a ha f hf

/-- A loop blames what one of its steps may blame. -/
theorem Blames.foldlM {g : σ → α → Checked σ} {as : List α} (hg : ∀ s, ∀ a ∈ as, (g s a).Blames P)
    (s : σ) : (as.foldlM g s).Blames P := by
  intro f hf
  obtain ⟨before, a, after, rfl, t, _, hf⟩ := fails_foldlM.1 hf
  exact hg t a (List.mem_append_right _ List.mem_cons_self) f hf

/-- A loop over declarations with their indices blames what the step for one of them may blame. -/
theorem Blames.foldlM_zipIdx {g : σ → α × Nat → Checked σ} {as : List α}
    (hg : ∀ s a i, as[i]? = some a → (g s (a, i)).Blames P) (s : σ) :
    (as.zipIdx.foldlM g s).Blames P :=
  Blames.foldlM (fun s x hx => hg s x.1 x.2 (List.mem_zipIdx_iff_getElem?.1 hx)) s

end Checked

open Checked (Blames)

/-! ## Values -/

section Readings

variable {P : List (String × Nat) → Prop} {loc : Location}

namespace Declared

section Values

variable (h : P loc.path)
include h

/-- A required text blames the declaration that lacks it. -/
theorem blames_text (e : Element) (tag : String) : (text e tag loc).Blames P :=
  Checked.blames_require _ rfl h

/-- A text that is no number is blamed on its declaration. -/
theorem blames_toNumber (content tag : String) : (toNumber content tag loc).Blames P :=
  Checked.blames_require _ rfl h

/-- So is a required number, whether it is absent or cannot be read. -/
theorem blames_number (e : Element) (tag : String) : (number e tag loc).Blames P :=
  (blames_text h e tag).bind fun content => blames_toNumber h content tag

/-- An optional number can only be one that cannot be read. -/
theorem blames_number? (e : Element) (tag : String) : (number? e tag loc).Blames P := by
  unfold number?
  split
  · exact Checked.blames_pure _
  · exact (blames_toNumber h _ tag).map _

/-- An address can fail as a required number does. Its decimal form is noted only. -/
theorem blames_address (e : Element) (tag : String) : (address e tag loc).Blames P := by
  refine (blames_text h e tag).bind fun content => ?_
  refine (blames_toNumber h content tag).bind fun value => ?_
  exact Blames.noteIf (Checked.blames_pure _)

/-- A name that is no word is blamed on its declaration. -/
theorem blames_checkName (name : String) : (checkName name loc).Blames P := by
  unfold checkName
  split
  · exact Checked.blames_pure _
  · exact Checked.blames_fail rfl h

/-- The name of the group is checked, the name of a parent is not. -/
theorem blames_layout (e : Element) (name : String) : (layout e name loc).Blames P := by
  unfold layout
  split
  · exact Checked.blames_pure _
  · exact (blames_checkName h _).bind fun _ => Checked.blames_pure _
  · exact Checked.blames_pure _

/-- The parts of a peripheral that are not nested blame the peripheral. -/
theorem blames_peripheral (e : Element) : (peripheral e loc).Blames P := by
  refine (blames_text h e "name").bind fun name => ?_
  have h : P (loc.named name).path := by rwa [Location.path_named]
  refine (blames_checkName h name).bind fun _ => ?_
  refine (blames_address h e "baseAddress").bind fun base => ?_
  exact (blames_layout h e name).bind fun l => Checked.blames_pure _

/-- An interrupt blames itself. -/
theorem blames_interrupt (e : Element) : (interrupt e loc).Blames P := by
  refine (Checked.blames_require _ rfl h).bind fun name => ?_
  have h : P (loc.named name).path := by rwa [Location.path_named]
  refine (blames_checkName h name).bind fun _ => ?_
  refine (Checked.blames_require _ rfl h).bind fun value => ?_
  exact (Checked.blames_require _ rfl h).bind fun number => Checked.blames_pure _

end Values

end Declared

/-! ## Rows -/

/-- A text of indices blames its declaration, unless it is too long a range. -/
theorem Dimension.blames_toIndex (h : P loc.path) (content : String) (count : Nat) :
    (toIndex content count loc).Blames P := by
  unfold toIndex
  split
  · next fault _ =>
    cases fault with
    | malformed flaw => exact Checked.blames_fail rfl h
    -- the one fault of a declaration that has no location
    | overflow => exact Checked.blames_fail_capacityOverflow
  · split
    · exact Checked.blames_pure _
    · exact Checked.blames_fail rfl h

/-- A dimension blames the declaration that it stands in. -/
theorem Dimension.blames_read? (h : P loc.path) (e : Element) : (read? e loc).Blames P := by
  have hindex : ∀ count increment : Nat, ∀ content : String,
      ((some <$> toIndex content count loc) >>= fun index =>
        pure (some (⟨count, increment, index⟩ : Dimension))).Blames P := by
    intro count increment content
    exact ((blames_toIndex h content count).map some).bind fun index => Checked.blames_pure _
  unfold read?
  cases e.childText? "dim" with
  | none => exact Checked.blames_pure _
  | some content =>
    refine (Checked.blames_require _ rfl h).bind fun count => ?_
    -- the increment and the index may be absent, each on its own
    cases e.childText? "dimIncrement" with
    | none =>
      cases e.childText? "dimIndex" with
      | none => exact Checked.blames_pure _
      | some index => exact (Checked.blames_pure 1).bind fun increment => hindex count increment index
    | some increment =>
      refine (Checked.blames_require _ rfl h).bind fun increment => ?_
      cases e.childText? "dimIndex" with
      | none => exact Checked.blames_pure _
      | some index => exact hindex count increment index

/-- A row that leads beyond the words is blamed on its declaration. -/
theorem Dimension.location?_of_instances {d : Dimension} {template : String} {base : Nat} {f : Fault}
    (hf : d.instances template base loc = .error f) : f.location? = some loc := by
  obtain ⟨k, _, _, _, rfl⟩ := Dimension.instances_eq_error_iff.1 hf
  rfl

/-- The expansion of a declaration blames that declaration. -/
theorem Expansion.blames_read (h : P loc.path) (e : Element) (name : String) (base : Nat) :
    (Expansion.read e name base loc).Blames P := by
  refine (Dimension.blames_read? h e).bind fun d? => ?_
  cases d? with
  | none => exact Checked.blames_pure _
  | some d =>
    -- the labels are there, only an offset may still run over
    have hrow : (Checked.ofExcept (d.instances name base loc)).Blames P :=
      Checked.blames_ofExcept (fun _ => Dimension.location?_of_instances) h
    exact hrow.bind fun elements => Checked.blames_pure _

/-! ## Fields and registers -/

namespace Declared

/-- Bits in reverse order are blamed on their field. -/
theorem blames_toSpan (h : P loc.path) (low high : Nat) (tag content : String) :
    (toSpan low high tag content loc).Blames P := by
  unfold toSpan
  split
  · exact Checked.blames_fail rfl h
  · exact Checked.blames_pure _

/-- Whichever form the bits of a field have, what is wrong with them is blamed on the field. -/
theorem blames_bitSpan (h : P loc.path) (e : Element) : (bitSpan e loc).Blames P := by
  refine (blames_number? h e "bitOffset").bind fun offset => ?_
  -- the first form that is begun decides which numbers are read
  cases offset with
  | some offset => exact (blames_number h e "bitWidth").bind fun width => Checked.blames_pure _
  | none =>
    refine (blames_number? h e "lsb").bind fun low => ?_
    cases low with
    | some low => exact (blames_number h e "msb").bind fun high => blames_toSpan h _ _ _ _
    | none =>
      cases e.childText? "bitRange" with
      | some content =>
        exact (Checked.blames_require _ rfl h).bind fun bits => blames_toSpan h _ _ _ _
      | none => exact Checked.blames_fail rfl h

/-- A row of fields blames the declaration of the row. -/
theorem blames_fieldRow (h : P loc.path) (e : Element) : (fieldRow e loc).Blames P := by
  refine (blames_text h e "name").bind fun name => ?_
  have h : P (loc.named name).path := by rwa [Location.path_named]
  refine (blames_bitSpan h e).bind fun span => ?_
  refine (Expansion.blames_read h e name span.offset).bind fun expansion => ?_
  exact Blames.mapM fun i _ => (blames_checkName h i.name).bind fun _ => Checked.blames_pure _

/-- A field that clashes with another one is blamed on the later of the two. -/
theorem blames_addField (h : P loc.path) (fields : List Field) (f : Field) :
    (addField loc fields f).Blames P := by
  unfold addField
  split
  · exact Checked.blames_pure _
  · exact (Checked.blames_note _).bind fun _ => Checked.blames_pure _
  · exact Checked.blames_fail rfl (by rwa [Location.path_named])

/-- A fault of the fields of a register blames one of them. -/
theorem blames_fields (e : Element)
    (h : ∀ k x, (e.nested "fields" "field")[k]? = some x → P (loc.path ++ [("field", k)])) :
    (fields e loc).Blames P := by
  refine Blames.foldlM_zipIdx (fun fs x k hx => ?_) _
  have h : P (loc.child "field" k none).path := by
    rw [Location.path_child]
    exact h k x hx
  exact (blames_fieldRow h x).bind fun row => Blames.foldlM (fun fs f _ => blames_addField h fs f) fs

/-- An access is never refused. -/
theorem blames_access (e : Element) : (access e loc).Blames P := by
  unfold access
  split
  · exact Checked.blames_pure _
  · split
    · exact Checked.blames_pure _
    · exact (Checked.blames_note _).bind fun _ => Checked.blames_pure _

/-- A row of registers blames its declaration, or one of the fields in it. -/
theorem blames_registerRow (h : P loc.path) (e : Element)
    (hfield : ∀ k x, (e.nested "fields" "field")[k]? = some x → P (loc.path ++ [("field", k)])) :
    (registerRow e loc).Blames P := by
  refine (blames_text h e "name").bind fun name => ?_
  -- from here on the faults name the register
  have h : P (loc.named name).path := by rwa [Location.path_named]
  refine (blames_address h e "addressOffset").bind fun offset => ?_
  refine (blames_access e).bind fun access => ?_
  refine (Expansion.blames_read h e name offset).bind fun expansion => ?_
  refine Blames.noteIf ?_
  refine (Blames.forM fun i _ => blames_checkName h i.name).bind fun _ => ?_
  refine (blames_fields e ?_).bind fun fs => Checked.blames_pure _
  rwa [Location.path_named]

end Declared

/-- A register that is refused by its group is blamed on its location. -/
theorem Group.location?_of_insert {g : Group} {r : Register} {f : Fault}
    (h : g.insert r loc = .error f) : f.location? = some loc := by
  unfold insert at h
  split at h
  · cases h
  · cases h
  · obtain rfl := Except.error.inj h
    rfl

/-- A conflict in a group is blamed on the register that is added. -/
theorem Group.blames_merge (h : P loc.path) (g : Group) (r : Register) :
    (Group.merge loc g r).Blames P := by
  have h : P (loc.named r.name).path := by rwa [Location.path_named]
  refine (Checked.blames_ofExcept (fun _ => location?_of_insert) h).bind fun x => ?_
  exact Blames.noteIf (Checked.blames_pure _)

/-- So is an interrupt that the table refuses. -/
theorem Interrupt.location?_of_insert {table : List Interrupt} {i : Interrupt} {f : Fault}
    (h : Interrupt.insert table i loc = .error f) : f.location? = some loc := by
  unfold insert at h
  split at h
  · cases h
  · cases h
  · obtain rfl := Except.error.inj h
    rfl

/-- A conflict between interrupts is blamed on the one that is added. -/
theorem Interrupt.blames_merge (h : P loc.path) (table : List Interrupt) (i : Interrupt) :
    (Interrupt.merge loc table i).Blames P := by
  have h : P (loc.named i.name).path := by rwa [Location.path_named]
  refine (Checked.blames_ofExcept (fun _ => location?_of_insert) h).bind fun x => ?_
  exact Blames.noteIf (Checked.blames_pure _)

/-- Filling a group can fail in the step that fills it only. -/
theorem Group.blames_fill {name : String} {step : Group → Checked Group}
    (hstep : ∀ g, (step g).Blames P) (gs : List Group) : (Group.fill name step gs).Blames P := by
  induction gs with
  | nil => exact (hstep _).bind fun g => Checked.blames_pure _
  | cons g gs ih =>
    unfold Group.fill
    -- the group is this one or a later one
    split
    · exact (hstep g).bind fun g' => Checked.blames_pure _
    · exact ih.bind fun gs' => Checked.blames_pure _

namespace Declared

/-- A fault of the registers of a peripheral blames one of them, or a field of one. -/
theorem blames_addLayout (registers : List Element)
    (h : ∀ j x, registers[j]? = some x → P (loc.path ++ [("register", j)]))
    (hfield : ∀ j r k x, registers[j]? = some r → (r.nested "fields" "field")[k]? = some x →
      P (loc.path ++ [("register", j), ("field", k)])) (g : Group) :
    (addLayout loc registers g).Blames P := by
  refine Blames.foldlM_zipIdx (fun g r j hr => ?_) _
  have hregister : P (loc.child "register" j none).path := by
    rw [Location.path_child]
    exact h j r hr
  -- the fields are one step below the register
  have hfields : ∀ k x, (r.nested "fields" "field")[k]? = some x →
      P ((loc.child "register" j none).path ++ [("field", k)]) := by
    intro k x hx
    rw [Location.path_child, List.append_assoc]
    exact hfield j r k x hr hx
  refine (blames_registerRow hregister r hfields).bind fun row => ?_
  exact Blames.foldlM (fun g r _ => Group.blames_merge hregister g r) g

/-- A fault of the interrupts of a peripheral blames one of them. -/
theorem blames_addInterrupts (table : List Interrupt) (e : Element)
    (h : ∀ j x, (e.childrenNamed "interrupt")[j]? = some x → P (loc.path ++ [("interrupt", j)])) :
    (addInterrupts loc table e).Blames P := by
  refine Blames.foldlM_zipIdx (fun table x j hx => ?_) _
  have h : P (loc.child "interrupt" j none).path := by
    rw [Location.path_child]
    exact h j x hx
  exact (blames_interrupt h x).bind fun i => Interrupt.blames_merge h table i

end Declared

end Readings

/-! ## Peripherals -/

/-- A fault of a peripheral of a description blames the peripheral or a declaration inside it. -/
theorem Draft.blames_addPeripheral {e p : Element} {i : Nat}
    (hp : (e.nested "peripherals" "peripheral")[i]? = some p) (draft : Draft) :
    (draft.addPeripheral p i).Blames fun path =>
      ∃ rest x, path = ("peripheral", i) :: rest ∧ Leads e path x := by
  have hp : Leads e [("peripheral", i)] p := .peripheral hp
  refine (Declared.blames_peripheral ⟨[], p, rfl, hp⟩ p).bind fun d => ?_
  refine (Checked.blames_note _).bind fun _ => ?_
  refine (Declared.blames_addInterrupts draft.interrupts p ?_).bind fun interrupts => ?_
  · intro j x hx
    rw [Location.path_named]
    exact ⟨_, x, rfl, .interrupt hp hx⟩
  refine Blames.bind ?_ fun groups => (Checked.blames_noteAll _).bind fun _ => Checked.blames_pure _
  -- only a peripheral with a layout of its own has its registers read
  unfold fillGroups
  split
  · refine Group.blames_fill (fun g => Declared.blames_addLayout _ ?_ ?_ g) _
    · intro j x hx
      rw [Location.path_named]
      exact ⟨_, x, rfl, .register hp hx⟩
    · intro j r k x hr hx
      rw [Location.path_named]
      exact ⟨_, x, rfl, .field (.register hp hr) hx⟩
  · exact Blames.noteIf (Checked.blames_pure _)

/-- The peripherals fail at the first of them that does, after all those in front were added. -/
theorem Draft.fails_addPeripherals {e : Element} {draft : Draft} {f : Fault} :
    (draft.addPeripherals e).Fails f
      ↔ ∃ before p after, e.nested "peripherals" "peripheral" = before ++ p :: after
          ∧ ∃ draft', (before.zipIdx.foldlM (fun draft (p, i) => addPeripheral draft p i) draft).Gives
              draft'
            ∧ (draft'.addPeripheral p before.length).Fails f :=
  Checked.fails_foldlM_zipIdx

/-! ## Descriptions -/

/-- The width of a device has no location. -/
theorem Declared.location?_of_width {e : Element} {f : Fault} (h : width e = .error f) :
    f.location? = none := by
  unfold width at h
  -- an absent width, one that cannot be read, or one that is
  split at h
  · obtain rfl := Except.error.inj h
    rfl
  · split at h
    · obtain rfl := Except.error.inj h
      rfl
    · cases h

/-- Once all peripherals have been read only a broken chain of parents is left to blame. -/
theorem Draft.location?_of_finish {draft : Draft} {name : Option String} {width : Width} {f : Fault}
    (h : (draft.finish name width).Fails f) : f.location? = none := by
  -- sorting and filling the vectors cannot fail
  have hlink : (Alias.linkAll draft.declarations).Fails f := by
    simpa [finish, Interrupt.reconcile] using h
  obtain ⟨d, _, hd⟩ := Checked.exists_fails_of_mapM hlink
  cases Alias.fails_link.1 hd with
  | unknown _ _ _ _ => rfl
  | circular _ _ _ => rfl

namespace Device

/-- A device fails at its width, at its peripherals, or once these have been read. -/
theorem fails_ofElement {e : Element} {f : Fault} :
    (ofElement e).Fails f
      ↔ Declared.width e = .error f
        ∨ ∃ w, Declared.width e = .ok w ∧ ((Draft.empty.addPeripherals e).Fails f
          ∨ ∃ draft, (Draft.empty.addPeripherals e).Gives draft
              ∧ (draft.finish (e.childText? "name") w).Fails f) := by
  simp only [ofElement, Checked.fails_bind, Checked.fails_ofExcept, Checked.gives_ofExcept]

/-- A text fails if it is no document, or if the device of its root does. -/
theorem fails_ofText {text : String} {f : Fault} :
    (ofText text).Fails f
      ↔ (Xml.Document.parse? text = none ∧ .malformedDocument = f)
        ∨ ∃ e, Xml.Document.parse? text = some e ∧ (ofElement e).Fails f := by
  simp only [ofText, Checked.fails_bind, Checked.fails_require, Checked.gives_require]

/-- A fault that has a location is that of the peripherals, so that the width has been read. -/
theorem fails_addPeripherals_of_location {e : Element} {f : Fault} {loc : Location}
    (hf : (ofElement e).Fails f) (hloc : f.location? = some loc) :
    ∃ w, Declared.width e = .ok w ∧ (Draft.empty.addPeripherals e).Fails f := by
  obtain hwidth | ⟨w, hw, hperipherals | ⟨_, _, hfinish⟩⟩ := fails_ofElement.1 hf
  · cases hloc.symm.trans (Declared.location?_of_width hwidth)
  · exact ⟨w, hw, hperipherals⟩
  · cases hloc.symm.trans (Draft.location?_of_finish hfinish)

/-- A fault that has a location blames a declaration that the location leads to. The peripheral that
    this declaration is, or is part of, makes the fault with what is in front of it: the description
    that ends with this peripheral has the same fault, and the one that ends in front of it has no
    fault with a location. -/
theorem fails_at_culprit {e : Element} {f : Fault} {loc : Location} (hf : (ofElement e).Fails f)
    (hloc : f.location? = some loc) :
    ∃ i rest x, loc.path = ("peripheral", i) :: rest ∧ Leads e loc.path x
      ∧ (ofElement (e.cut "peripherals" "peripheral" (i + 1))).Fails f
      ∧ ∀ g, (ofElement (e.cut "peripherals" "peripheral" i)).Fails g → g.location? = none := by
  obtain ⟨w, hw, hfails⟩ := fails_addPeripherals_of_location hf hloc
  obtain ⟨before, p, after, hsplit, draft, hdraft, hp⟩ := Draft.fails_addPeripherals.1 hfails
  have hwidth : ∀ n, Declared.width (e.cut "peripherals" "peripheral" n) = .ok w := by
    intro n
    rw [← hw]
    unfold Declared.width
    rw [Element.childText?_cut (by decide)]
  obtain rfl | ⟨loc', hloc', rest, x, hpath, hleads⟩ :=
    Draft.blames_addPeripheral (e := e) (by simp [hsplit]) draft f hp
  · cases hloc
  obtain rfl := Option.some.inj (hloc'.symm.trans hloc)
  refine ⟨before.length, rest, x, hpath, hleads, ?_, fun g hg => ?_⟩
  · refine fails_ofElement.2 (.inr ⟨w, hwidth _, .inl ?_⟩)
    refine Draft.fails_addPeripherals.2 ⟨before, p, [], ?_, draft, hdraft, hp⟩
    rw [Element.nested_cut, hsplit, List.take_length_add_append]
    rfl
  · cases hg' : g.location? with
    | none => rfl
    | some loc =>
      -- the peripherals in front of `p` give the draft that `p` is added to, so none of them fails
      obtain ⟨_, _, hbefore⟩ := fails_addPeripherals_of_location hg hg'
      unfold Draft.addPeripherals at hbefore
      rw [Element.nested_cut, hsplit, List.take_left] at hbefore
      exact absurd hbefore (hdraft.not_fails g)

/-- A description whose second peripheral declares a field twice. The third one is no better. -/
def clashText : String :=
  "<device><width>32</width><peripherals>
    <peripheral><name>PA</name><groupName>PORT</groupName><baseAddress>0x0</baseAddress>
      <registers><register><name>IN</name><addressOffset>0x0</addressOffset></register></registers>
    </peripheral>
    <peripheral><name>PB</name><groupName>PORT</groupName><baseAddress>0x100</baseAddress><registers>
      <register><name>IN</name><addressOffset>0x0</addressOffset></register>
      <register><name>OUT</name><addressOffset>0x4</addressOffset><fields>
        <field><name>LOW</name><bitOffset>0</bitOffset><bitWidth>8</bitWidth></field>
        <field><name>LOW</name><bitOffset>8</bitOffset><bitWidth>8</bitWidth></field>
      </fields></register></registers></peripheral>
    <peripheral><name>PC</name></peripheral>
  </peripherals></device>"

/-- The fault of that description. -/
def clash : Fault :=
  .fieldConflict ⟨[⟨"peripheral", 1, some "PB"⟩, ⟨"register", 1, some "OUT"⟩,
    ⟨"field", 1, some "LOW"⟩]⟩ "LOW" ⟨0, 8⟩ ⟨8, 8⟩

/-- The description does have that fault. -/
theorem fails_clashText : (ofText clashText).Fails clash := by
  unfold clashText ofText Xml.Document.parse?
  rw [String.toList_ofList]
  decide +kernel

/-- The fault leads to the second field of the second register of the second peripheral. -/
theorem fails_at_culprit_clash :
    ∃ e x, Xml.Document.parse? clashText = some e ∧ (ofElement e).Fails clash
      ∧ Leads e [("peripheral", 1), ("register", 1), ("field", 1)] x
      ∧ (ofElement (e.cut "peripherals" "peripheral" 2)).Fails clash
      ∧ ∀ g, (ofElement (e.cut "peripherals" "peripheral" 1)).Fails g → g.location? = none := by
  obtain ⟨_, hmalformed⟩ | ⟨e, he, hf⟩ := fails_ofText.1 fails_clashText
  · cases hmalformed
  · obtain ⟨i, rest, x, hpath, hleads, hcut, hbefore⟩ := fails_at_culprit hf rfl
    obtain ⟨hi, rfl⟩ := List.cons.inj hpath
    obtain rfl := (Prod.mk.inj hi).2
    exact ⟨e, x, he, hf, hleads, hcut, hbefore⟩

end Device

end RegisterMap
