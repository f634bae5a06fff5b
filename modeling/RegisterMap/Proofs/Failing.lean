import RegisterMap.Proofs.Checked

/-!
# What stops a checked result

`x.Fails f` says that the reading `x` stops with the fault `f`, so that it gives
no value. There is one lemma for every way to build a checked result. A reading
of several things stops at the first one that cannot be read: those before it
have given their values (`fails_mapM`, `fails_foldlM`).
-/

namespace RegisterMap.Checked

variable {α β σ : Type}

/-- The reading stops with a fault. -/
def Fails (x : Checked α) (f : Fault) : Prop := x.result = .error f

instance (x : Checked α) (f : Fault) : Decidable (x.Fails f) :=
  match h : x.result with
  | .ok _ => isFalse (by simp [Fails, h])
  | .error g => decidable_of_iff (g = f) (by simp [Fails, h])

/-- A reading that gives a value does not fail. -/
theorem Gives.not_fails {x : Checked α} {a : α} (h : x.Gives a) (f : Fault) : ¬ x.Fails f := by
  unfold Gives at h
  simp [Fails, h]

/-! ## Single steps -/

/-- A value does not fail. -/
@[simp] theorem not_fails_pure {a : α} {f : Fault} : ¬ (pure a : Checked α).Fails f := by
  simp [Fails]

/-- A fault fails with itself. -/
@[simp] theorem fails_fail {f g : Fault} : (fail f : Checked α).Fails g ↔ f = g := by
  simp [Fails]

/-- A notice does not fail. -/
@[simp] theorem not_fails_note {n : Notice} {f : Fault} : ¬ (note n).Fails f := by
  simp [Fails]

@[simp] theorem not_fails_noteAll {ns : List Notice} {f : Fault} : ¬ (noteAll ns).Fails f := by
  simp [Fails]

/-- A result fails with its fault. -/
@[simp] theorem fails_ofExcept {r : Except Fault α} {f : Fault} :
    (ofExcept r).Fails f ↔ r = .error f :=
  Iff.rfl

/-- A value that is required fails with the fault in its place if it is absent. -/
@[simp] theorem fails_require {a? : Option α} {f g : Fault} :
    (require a? f).Fails g ↔ a? = none ∧ f = g := by
  cases a? <;> simp [require]

/-- One reading after another stops in the first one, or in the second one with the value of the
    first. -/
@[simp] theorem fails_bind {x : Checked α} {g : α → Checked β} {f : Fault} :
    (x >>= g).Fails f ↔ x.Fails f ∨ ∃ a, x.Gives a ∧ (g a).Fails f := by
  unfold Fails Gives
  rw [result_bind]
  cases x.result with
  | error fault => simp [bind, Except.bind]
  | ok a => simp [bind, Except.bind]

/-- What is done with a value does not fail. -/
@[simp] theorem fails_map {x : Checked α} {g : α → β} {f : Fault} :
    (g <$> x).Fails f ↔ x.Fails f := by
  rw [map_eq_pure_bind, fails_bind]
  simp

/-- A notice that is made under a condition does not change what follows it. -/
@[simp] theorem fails_noteIf {p : Prop} [Decidable p] {n : Notice} {x : Checked α} {f : Fault} :
    (if p then (do note n; x) else x).Fails f ↔ x.Fails f := by
  split
  · simp
  · rfl

/-! ## Lists of steps -/

/-- Things that are read one by one: those before the one that cannot be read have their values. -/
theorem fails_mapM {g : α → Checked β} {as : List α} {f : Fault} :
    (as.mapM g).Fails f
      ↔ ∃ before a after, as = before ++ a :: after ∧ (∀ x ∈ before, ∃ b, (g x).Gives b)
          ∧ (g a).Fails f := by
  induction as with
  | nil => simp
  | cons a as ih =>
    simp only [List.mapM_cons, fails_bind, not_fails_pure, and_false, exists_false, or_false, ih]
    -- the first member fails, or it is read and a later one fails
    rw [exists_split_cons]
    simp only [List.not_mem_nil, false_implies, implies_true, true_and, List.forall_mem_cons]
    refine or_congr_right ?_
    constructor
    · intro h
      obtain ⟨b, hb, before, c, after, has, hbefore, hc⟩ := h
      exact ⟨before, c, after, has, ⟨⟨b, hb⟩, hbefore⟩, hc⟩
    · intro h
      obtain ⟨before, c, after, has, ⟨⟨b, hb⟩, hbefore⟩, hc⟩ := h
      exact ⟨b, hb, before, c, after, has, hbefore, hc⟩

/-- If the reading of a list fails, that of a member does. -/
theorem exists_fails_of_mapM {g : α → Checked β} {as : List α} {f : Fault}
    (h : (as.mapM g).Fails f) : ∃ a ∈ as, (g a).Fails f := by
  obtain ⟨before, a, after, rfl, _, ha⟩ := fails_mapM.1 h
  exact ⟨a, List.mem_append_right _ List.mem_cons_self, ha⟩

/-- If the check of a list fails, that of a member does. -/
theorem exists_fails_of_forM {g : α → Checked PUnit} {as : List α} {f : Fault}
    (h : (as.forM g).Fails f) : ∃ a ∈ as, (g a).Fails f := by
  induction as with
  | nil => cases h
  | cons a as ih =>
    -- `forM` binds by its own definition, which the lemma on binds does not see
    have h : (g a >>= fun _ => as.forM g).Fails f := h
    obtain ha | ⟨_, _, has⟩ := fails_bind.1 h
    · exact ⟨a, List.mem_cons_self, ha⟩
    · obtain ⟨b, hb, hfails⟩ := ih has
      exact ⟨b, List.mem_cons_of_mem _ hb, hfails⟩

/-- A loop stops at the first step that fails, in the state that the steps before it leave. -/
theorem fails_foldlM {g : σ → α → Checked σ} {as : List α} {s : σ} {f : Fault} :
    (as.foldlM g s).Fails f
      ↔ ∃ before a after, as = before ++ a :: after
          ∧ ∃ t, (before.foldlM g s).Gives t ∧ (g t a).Fails f := by
  induction as generalizing s with
  | nil => simp
  | cons a as ih =>
    simp only [List.foldlM_cons, fails_bind, ih]
    -- the first step fails, or the loop goes on with what it gives
    rw [exists_split_cons]
    simp only [gives_foldlM_nil, gives_foldlM_cons, exists_eq_left']
    refine or_congr_right ?_
    constructor
    · intro h
      obtain ⟨u, hu, before, c, after, has, t, ht, hc⟩ := h
      exact ⟨before, c, after, has, t, ⟨u, hu, ht⟩, hc⟩
    · intro h
      obtain ⟨before, c, after, has, t, ⟨u, hu, ht⟩, hc⟩ := h
      exact ⟨u, hu, before, c, after, has, t, ht, hc⟩

/-- The ways to split a list with indices in front of one of its members. -/
theorem exists_split_zipIdx {as : List α} {Q : List (α × Nat) → α × Nat → Prop} :
    (∃ before x after, as.zipIdx = before ++ x :: after ∧ Q before x)
      ↔ ∃ before a after, as = before ++ a :: after ∧ Q before.zipIdx (a, before.length) := by
  constructor
  · intro h
    obtain ⟨front, x, back, hsplit, hQ⟩ := h
    -- the indices in front count the members in front
    obtain ⟨before, rest, rfl, rfl, hrest⟩ := List.zipIdx_eq_append_iff.1 hsplit
    obtain ⟨a, after, rfl, rfl, _⟩ := List.zipIdx_eq_cons_iff.1 hrest.symm
    rw [Nat.zero_add] at hQ
    exact ⟨before, a, after, rfl, hQ⟩
  · intro h
    obtain ⟨before, a, after, rfl, hQ⟩ := h
    rw [List.zipIdx_append, List.zipIdx_cons, Nat.zero_add]
    exact ⟨_, _, _, rfl, hQ⟩

/-- A loop over things with their indices stops at one of them, and those in front of it make the
    loop that ends there. -/
theorem fails_foldlM_zipIdx {g : σ → α × Nat → Checked σ} {as : List α} {s : σ} {f : Fault} :
    (as.zipIdx.foldlM g s).Fails f
      ↔ ∃ before a after, as = before ++ a :: after
          ∧ ∃ t, (before.zipIdx.foldlM g s).Gives t ∧ (g t (a, before.length)).Fails f := by
  rw [fails_foldlM]
  exact exists_split_zipIdx

end RegisterMap.Checked
