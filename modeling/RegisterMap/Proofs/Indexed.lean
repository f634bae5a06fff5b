import RegisterMap.Proofs.Offers

/-!
# Tables with an index

A table in which the first entry of a name wins is searched from its front. One
that is filled in steps can do without the search: beside the entries it keeps
an index, which leads from a name to the place of its entry, and reads the
entry there. `Indexed` is such a table. Both answer alike as long as the index
is in step with the entries, and every offer keeps it so, those included that
are not added. So groups and interrupts may be collected either way.

- `InStep.offer_eq`: one offer to a table with an index
- `exists_offerAll_eq`, `exists_offerAll_empty`: a run of offers to it
- `Group.keeps_firsts`: what a group is after any run of calls
-/

namespace RegisterMap

namespace FirstWins

/-- Entries in the order in which they were added, and the place of the entry of a name. -/
structure Indexed (α : Type) where
  entries : List α
  index : Std.HashMap String Nat

namespace Indexed

variable {α β : Type} {name : α → String} {place : α → β} {t : Indexed α}

/-- A table without entries. -/
def empty : Indexed α := ⟨[], ∅⟩

/-- The entry at the place of a name. -/
def get? (t : Indexed α) (n : String) : Option α := t.index[n]?.bind (t.entries[·]?)

/-- Offers an entry: the answer, and the table that it leaves. There is no answer if the index leads
    to a place that no entry has. -/
def offer [DecidableEq β] (name : α → String) (place : α → β) (t : Indexed α) (a : α) :
    Option (Except α Merge × Indexed α) :=
  match t.index[name a]? with
  | some i =>
    t.entries[i]?.map fun first =>
      if place first = place a then (.ok .repeated, t) else (.error first, t)
  | none =>
    some (.ok .inserted, ⟨t.entries ++ [a], t.index.insert (name a) t.entries.length⟩)

/-- The table after a run of offers, if all of them are answered. -/
def offerAll [DecidableEq β] (name : α → String) (place : α → β) (t : Indexed α) (as : List α) :
    Option (Indexed α) :=
  as.foldlM (fun t a => (t.offer name place a).map Prod.snd) t

/-- The index leads from every name to the place of its first entry. -/
def InStep (name : α → String) (t : Indexed α) : Prop :=
  ∀ n, t.index[n]? = t.entries.findIdx? (name · == n)

/-- The empty table is in step with itself. -/
theorem inStep_empty : (empty : Indexed α).InStep name := by
  intro n
  simp [empty]

/-- A look-up by the index is a search. -/
theorem InStep.get?_eq (h : t.InStep name) (n : String) : t.get? n = find? name t.entries n := by
  rw [get?, h n, find?, List.find?_eq_bind_findIdx?_getElem?]

/-- A new name gets the place behind all entries, and all others keep theirs. -/
theorem InStep.concat (h : t.InStep name) {a : α} (hnew : t.index[name a]? = none) :
    InStep name ⟨t.entries ++ [a], t.index.insert (name a) t.entries.length⟩ := by
  intro n
  rw [Std.HashMap.getElem?_insert, List.findIdx?_append, ← h n]
  by_cases hn : name a = n
  · rw [hn] at hnew
    simp [hn, hnew]
  · simp [hn]

variable [DecidableEq β]

/-- An offer is answered as it is by a search, and leaves what it does there. If it is not added,
    the table is left as it is, its index included. -/
theorem InStep.offer_eq (h : t.InStep name) (place : α → β) (a : α) :
    ∃ t', t.offer name place a = some ((FirstWins.offer name place t.entries a).answer, t')
      ∧ t'.InStep name ∧ t'.entries = (FirstWins.offer name place t.entries a).after t.entries
      ∧ ((FirstWins.offer name place t.entries a).answer ≠ .ok .inserted → t' = t) := by
  have hfind := h.get?_eq (name a)
  unfold offer FirstWins.offer
  rw [← hfind, get?]
  cases hindex : t.index[name a]? with
  | none =>
    exact ⟨_, rfl, h.concat hindex, rfl, fun hadded => absurd rfl hadded⟩
  | some i =>
    -- the place of a name is that of an entry
    have hi : i < t.entries.length := by
      rw [h, List.findIdx?_eq_some_iff_getElem] at hindex
      exact hindex.1
    simp only [Option.bind_some, List.getElem?_eq_getElem hi, Option.map_some]
    refine ⟨t, ?_, h, ?_, fun _ => rfl⟩
    · split <;> rfl
    · split <;> rfl

/-- A run of offers is answered to its end, and leaves the entries that it leaves without an
    index. -/
theorem exists_offerAll_eq (h : t.InStep name) (place : α → β) (as : List α) :
    ∃ t', t.offerAll name place as = some t' ∧ t'.InStep name
      ∧ t'.entries = FirstWins.offerAll name place t.entries as := by
  induction as generalizing t with
  | nil => exact ⟨t, rfl, h, rfl⟩
  | cons a as ih =>
    -- one call keeps the index in step with the entries, so the next one finds it so
    obtain ⟨u, hoffer, hu, hentries, _⟩ := h.offer_eq place a
    obtain ⟨t', hrest, ht', hleft⟩ := ih hu
    refine ⟨t', ?_, ht', ?_⟩
    · rw [offerAll, List.foldlM_cons, hoffer]
      exact hrest
    · rw [hleft, hentries, FirstWins.offerAll, FirstWins.offerAll, List.foldl_cons]

/-- A run of offers to a table without entries leaves the first entry of every name. -/
theorem exists_offerAll_empty (place : α → β) (as : List α) :
    ∃ t, offerAll name place empty as = some t ∧ t.InStep name ∧ t.entries = firsts name as := by
  obtain ⟨t, hrun, hstep, hentries⟩ := exists_offerAll_eq inStep_empty place as
  exact ⟨t, hrun, hstep, hentries.trans (offerAll_firsts [] as)⟩

end Indexed
end FirstWins

namespace Group

open FirstWins

/-! ## Groups -/

/-- The fault of a register that clashes with the first one of its name. -/
def conflict (group : String) (loc : Location) (r first : Register) : Fault :=
  .registerConflict loc group r.name first.offset r.offset

/-- A group offers a register to its table. -/
theorem offers_insert (group : String) :
    Offers insert Register.name Register.offset (conflict group) (Group.mk group) := by
  intro t r loc
  unfold insert
  cases offer Register.name Register.offset t r <;> rfl

/-- The group holds the first register of every name among some, in their order, and finds it by
    the name. -/
structure Keeps (g : Group) (group : String) (rs : List Register) : Prop where
  name : g.name = group
  registers : g.registers = firsts Register.name rs
  register? : ∀ n, g.register? n = rs.find? fun r => r.name == n
  length : g.registers.length = (rs.map Register.name).toFinset.card

/-- A table with an index stands for the group: it has the registers and finds the same ones, and it
    answers every call as the group does. A call that adds nothing leaves its index as it is. -/
structure IsIndexed (t : Indexed Register) (g : Group) : Prop where
  entries : t.entries = g.registers
  get? : ∀ n, t.get? n = g.register? n
  offer : ∀ r loc, ∃ a t', t.offer Register.name Register.offset r = some (a, t')
    ∧ answer insert g r loc = a.mapError (conflict g.name loc r)
    ∧ t'.entries = (after insert g r loc).registers ∧ (a ≠ .ok .inserted → t' = t)

/-- A table that is in step is the index of the group of its registers. -/
theorem isIndexed_of_inStep {t : Indexed Register} (h : t.InStep Register.name) (group : String) :
    IsIndexed t ⟨group, t.entries⟩ where
  entries := rfl
  get? := h.get?_eq
  offer r loc := by
    obtain ⟨t', hoffer, _, hentries, hsame⟩ := h.offer_eq Register.offset r
    refine ⟨_, t', hoffer, answer_wrap (offers_insert group) t.entries r loc, ?_, hsame⟩
    rw [hentries, after_wrap (offers_insert group)]

/-- The group that a run of calls leaves of a new one. -/
def filled (group : String) (calls : List (Register × Location)) : Group :=
  afterAll insert (empty group) calls

/-- A group that has been filled holds the first registers of their names. -/
theorem filled_eq (group : String) (calls : List (Register × Location)) :
    filled group calls = ⟨group, firsts Register.name (calls.map Prod.fst)⟩ := by
  have hall : FirstWins.offerAll Register.name Register.offset [] (calls.map Prod.fst)
      = firsts Register.name (calls.map Prod.fst) := offerAll_firsts [] _
  rw [filled, empty, afterAll_wrap (offers_insert group), hall]

/-- After any run of calls a group keeps the first register of every name. The next call inserts its
    register if the name is new, and compares it with the first one of the name otherwise; if it
    inserts nothing, it leaves the group as it is. A table with an index that is offered the same
    registers never looks outside its entries, and stands for the group all the time. -/
theorem keeps_firsts (group : String) (calls : List (Register × Location)) :
    (filled group calls).Keeps group (calls.map Prod.fst)
      ∧ (∀ r loc, Answers Register.name Register.offset (conflict group loc r)
          (calls.map Prod.fst) r (answer insert (filled group calls) r loc))
      ∧ (∀ r loc, answer insert (filled group calls) r loc ≠ .ok .inserted →
          after insert (filled group calls) r loc = filled group calls)
      ∧ ∃ t, Indexed.offerAll Register.name Register.offset .empty (calls.map Prod.fst) = some t
        ∧ IsIndexed t (filled group calls) := by
  obtain ⟨t, hrun, hstep, hentries⟩ : ∃ t, Indexed.offerAll Register.name Register.offset .empty
      (calls.map Prod.fst) = some t ∧ t.InStep Register.name
      ∧ t.entries = firsts Register.name (calls.map Prod.fst) :=
    Indexed.exists_offerAll_empty Register.offset _
  -- the group is known in full, so that its answers are too
  rw [filled_eq]
  refine ⟨⟨rfl, rfl, fun n => find?_firsts _ n, length_firsts _⟩, ?_, ?_, t, hrun, ?_⟩
  · intro r loc
    rw [answer_wrap (offers_insert group)]
    exact answers_offer _ _ r
  · exact fun r loc => after_of_answer_ne (offers_insert group)
  · exact hentries ▸ isIndexed_of_inStep hstep group

end Group
end RegisterMap
