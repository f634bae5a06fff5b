import Mathlib.Data.List.Perm.Basic
import RegisterMap.Checked

/-!
# What a checked result gives

`x.Gives a` says that the reading `x` ends with the value `a`. The lemmas take a
reading apart: one for every way to build a checked result, so that a statement
about a value follows the steps that read it. Readings of whole lists give their
values one by one (`gives_mapM`, `gives_forM`).

Readings that give the same values, whatever faults and notices they make, are
`Alike`. Every way to build a checked result keeps that. In a list of things
that stand for rows of entries, one of them may be replaced by others that
stand for the same row (`alike_rows_replace`).
-/

namespace RegisterMap.Checked

variable {α β σ : Type}

/-- The reading ends with a value. -/
def Gives (x : Checked α) (a : α) : Prop := x.result = .ok a

instance [DecidableEq α] (x : Checked α) (a : α) : Decidable (x.Gives a) :=
  match h : x.result with
  | .ok b => decidable_of_iff (b = a) (by simp [Gives, h])
  | .error _ => isFalse (by simp [Gives, h])

/-- A reading gives one value at most. -/
theorem Gives.unique {x : Checked α} {a b : α} (ha : x.Gives a) (hb : x.Gives b) : a = b :=
  Except.ok.inj (ha.symm.trans hb)

/-! ## Single steps -/

/-- A value gives itself. -/
@[simp] theorem gives_pure {a b : α} : (pure a : Checked α).Gives b ↔ a = b := by
  simp [Gives]

/-- A fault gives nothing. -/
@[simp] theorem gives_fail {f : Fault} {a : α} : ¬ (fail f : Checked α).Gives a := by
  simp [Gives]

/-- A notice gives the trivial value. -/
@[simp] theorem gives_note {n : Notice} {u : Unit} : (note n).Gives u := rfl

@[simp] theorem gives_noteAll {ns : List Notice} {u : Unit} : (noteAll ns).Gives u := rfl

/-- A result gives its value. -/
@[simp] theorem gives_ofExcept {r : Except Fault α} {a : α} : (ofExcept r).Gives a ↔ r = .ok a :=
  Iff.rfl

/-- What is required is given if it is there. -/
@[simp] theorem gives_require {a? : Option α} {f : Fault} {a : α} :
    (require a? f).Gives a ↔ a? = some a := by
  cases a? <;> simp [require]

/-- A sequence gives what its second part makes of what the first one gives. -/
@[simp] theorem gives_bind {x : Checked α} {f : α → Checked β} {b : β} :
    (x >>= f).Gives b ↔ ∃ a, x.Gives a ∧ (f a).Gives b := by
  unfold Gives
  rw [result_bind]
  cases x.result with
  | error fault => simp [bind, Except.bind]
  | ok a => simp [bind, Except.bind]

/-- What is done with a value is given if the value is. -/
@[simp] theorem gives_map {x : Checked α} {f : α → β} {b : β} :
    (f <$> x).Gives b ↔ ∃ a, x.Gives a ∧ f a = b := by
  rw [map_eq_pure_bind, gives_bind]
  simp only [gives_pure]

/-- A notice that is made under a condition does not change what follows it. -/
@[simp] theorem gives_noteIf {p : Prop} [Decidable p] {n : Notice} {x : Checked α} {a : α} :
    (if p then (do note n; x) else x).Gives a ↔ x.Gives a := by
  split
  · rw [gives_bind]
    exact ⟨fun ⟨_, _, h⟩ => h, fun h => ⟨(), rfl, h⟩⟩
  · rfl

/-! ## Lists of steps -/

/-- A list is read if each of its members is, in order. -/
theorem gives_mapM {f : α → Checked β} {as : List α} {bs : List β} :
    (as.mapM f).Gives bs ↔ List.Forall₂ (fun a b => (f a).Gives b) as bs := by
  -- both sides go through the list from the front
  induction as generalizing bs with
  | nil =>
    rw [List.mapM_nil, gives_pure, List.forall₂_nil_left_iff]
    exact eq_comm
  | cons a as ih =>
    simp only [List.mapM_cons, gives_bind, gives_pure, ih, List.forall₂_cons_left_iff]
    constructor
    · intro h
      obtain ⟨b, hb, bs', hbs, rfl⟩ := h
      exact ⟨b, bs', hb, hbs, rfl⟩
    · intro h
      obtain ⟨b, bs', hb, hbs, rfl⟩ := h
      exact ⟨b, hb, bs', hbs, rfl⟩

/-- A list of readings gives values if each of them gives one. -/
theorem exists_gives_mapM {f : α → Checked β} {as : List α} :
    (∃ bs, (as.mapM f).Gives bs) ↔ ∀ a ∈ as, ∃ b, (f a).Gives b := by
  induction as with
  | nil => simp
  | cons a as ih =>
    simp only [List.mapM_cons, gives_bind, gives_pure, List.forall_mem_cons, ← ih]
    constructor
    · intro h
      obtain ⟨_, b, hb, bs, hbs, rfl⟩ := h
      exact ⟨⟨b, hb⟩, bs, hbs⟩
    · intro h
      -- the first member is read, and the others are by the induction
      obtain ⟨⟨b, hb⟩, bs, hbs⟩ := h
      exact ⟨b :: bs, b, hb, bs, hbs, rfl⟩

/-- Every value of a list of readings is that of one of them. -/
theorem exists_of_mem_mapM {f : α → Checked β} {as : List α} {bs : List β}
    (h : (as.mapM f).Gives bs) {b : β} (hb : b ∈ bs) : ∃ a ∈ as, (f a).Gives b := by
  -- the two lists are gone through side by side
  have hall := gives_mapM.1 h
  clear h
  induction hall with
  | nil => exact absurd hb List.not_mem_nil
  | cons ha _ ih =>
    cases hb with
    | head => exact ⟨_, List.mem_cons_self, ha⟩
    | tail _ hb =>
      obtain ⟨a, ha, hab⟩ := ih hb
      exact ⟨a, List.mem_cons_of_mem _ ha, hab⟩

/-- What one thing in a list of things gives. -/
theorem gives_mapM_middle {f : α → Checked β} {before after : List α} {a : α} {bs : List β} :
    ((before ++ a :: after).mapM f).Gives bs
      ↔ ∃ front b back, (before.mapM f).Gives front ∧ (f a).Gives b ∧ (after.mapM f).Gives back
          ∧ bs = front ++ b :: back := by
  -- in front, in the middle and behind
  rw [List.mapM_append, List.mapM_cons]
  simp only [gives_bind, gives_pure]
  constructor
  · intro h
    obtain ⟨front, hfront, _, ⟨b, hb, back, hback, rfl⟩, rfl⟩ := h
    exact ⟨front, b, back, hfront, hb, hback, rfl⟩
  · intro h
    obtain ⟨front, b, back, hfront, hb, hback, rfl⟩ := h
    exact ⟨front, hfront, _, ⟨b, hb, back, hback, rfl⟩, rfl⟩

/-- As many values are given as there are members. -/
theorem length_of_gives_mapM {f : α → Checked β} {as : List α} {bs : List β}
    (h : (as.mapM f).Gives bs) : bs.length = as.length :=
  (gives_mapM.1 h).length_eq.symm

/-- What is done with each value may be done with all of them in the end. -/
theorem gives_mapM_map {γ : Type} {f : α → Checked β} {g : β → γ} {as : List α} {cs : List γ} :
    (as.mapM fun a => g <$> f a).Gives cs ↔ ∃ bs, (as.mapM f).Gives bs ∧ bs.map g = cs := by
  induction as generalizing cs with
  | nil => simp
  | cons a as ih =>
    simp only [List.mapM_cons, gives_bind, gives_pure, gives_map, ih]
    constructor
    · intro h
      -- the values before they were changed
      obtain ⟨_, ⟨b, hb, rfl⟩, _, ⟨bs, hbs, rfl⟩, rfl⟩ := h
      exact ⟨b :: bs, ⟨b, hb, bs, hbs, rfl⟩, rfl⟩
    · intro h
      obtain ⟨_, ⟨b, hb, bs, hbs, rfl⟩, rfl⟩ := h
      exact ⟨g b, ⟨b, hb, rfl⟩, bs.map g, ⟨bs, hbs, rfl⟩, rfl⟩

/-- Things that are checked one by one, and then counted as they are. -/
theorem gives_mapM_check {check : α → Checked Unit} {g : α → β} {as : List α} {bs : List β} :
    (as.mapM fun a => check a >>= fun _ => pure (g a)).Gives bs
      ↔ (∀ a ∈ as, (check a).Gives ()) ∧ bs = as.map g := by
  induction as generalizing bs with
  | nil => simp [eq_comm]
  | cons a as ih =>
    simp only [List.mapM_cons, gives_bind, gives_pure, ih, List.forall_mem_cons, List.map_cons]
    constructor
    · intro h
      -- a check gives no value, only that it went well
      obtain ⟨_, ⟨⟨⟩, ha, rfl⟩, _, ⟨has, rfl⟩, rfl⟩ := h
      exact ⟨⟨ha, has⟩, rfl⟩
    · intro h
      obtain ⟨⟨ha, has⟩, rfl⟩ := h
      exact ⟨_, ⟨(), ha, rfl⟩, _, ⟨has, rfl⟩, rfl⟩

/-- A list is checked if each of its members is. -/
theorem gives_forM {f : α → Checked PUnit} {as : List α} :
    (as.forM f).Gives PUnit.unit ↔ ∀ a ∈ as, (f a).Gives PUnit.unit := by
  induction as with
  | nil => simp
  | cons a as ih =>
    -- `forM` binds by its own definition, which the lemma on binds does not see
    show (f a >>= fun _ => as.forM f).Gives PUnit.unit ↔ _
    rw [gives_bind, List.forall_mem_cons, ← ih]
    constructor
    · intro h
      obtain ⟨⟨⟩, ha, has⟩ := h
      exact ⟨ha, has⟩
    · intro h
      obtain ⟨ha, has⟩ := h
      exact ⟨_, ha, has⟩

/-- A loop over nothing gives what it began with. -/
theorem gives_foldlM_nil {f : σ → α → Checked σ} {s t : σ} :
    (([] : List α).foldlM f s).Gives t ↔ s = t := gives_pure

/-- A loop takes its first step, and goes on from there. -/
theorem gives_foldlM_cons {f : σ → α → Checked σ} {s t : σ} {a : α} {as : List α} :
    ((a :: as).foldlM f s).Gives t ↔ ∃ u, (f s a).Gives u ∧ (as.foldlM f u).Gives t := gives_bind

/-- The ways to split a list in front of one of its members. -/
theorem exists_split_cons {a : α} {as : List α} {Q : List α → α → Prop} :
    (∃ before b after, a :: as = before ++ b :: after ∧ Q before b)
      ↔ Q [] a ∨ ∃ before b after, as = before ++ b :: after ∧ Q (a :: before) b := by
  constructor
  · intro h
    obtain ⟨before, b, after, hsplit, hQ⟩ := h
    -- the list is split in front of its first member, or behind it
    cases before with
    | nil =>
      obtain ⟨rfl, rfl⟩ := List.cons.inj hsplit
      exact .inl hQ
    | cons c before =>
      obtain ⟨rfl, rfl⟩ := List.cons.inj hsplit
      exact .inr ⟨before, b, after, rfl, hQ⟩
  · intro h
    obtain hQ | ⟨before, b, after, rfl, hQ⟩ := h
    · exact ⟨[], a, as, rfl, hQ⟩
    · exact ⟨a :: before, b, after, rfl, hQ⟩

/-- Readings of the same things in another order give the same values in that order. -/
theorem Gives.mapM_perm {f : α → Checked β} {as as' : List α} {bs : List β}
    (h : (as.mapM f).Gives bs) (hperm : as'.Perm as) :
    ∃ bs', (as'.mapM f).Gives bs' ∧ bs'.Perm bs := by
  obtain ⟨bs', hbs', hp⟩ := List.perm_comp_forall₂ hperm (gives_mapM.1 h)
  exact ⟨bs', gives_mapM.2 hbs', hp⟩

/-! ## Readings that give the same values -/

/-- Two readings give the same values. They may differ in their faults and notices. -/
def Alike (x y : Checked α) : Prop := ∀ a, x.Gives a ↔ y.Gives a

/-- A reading is like itself. -/
theorem Alike.refl (x : Checked α) : x.Alike x := fun _ => Iff.rfl

/-- Two readings are like each other. -/
theorem Alike.symm {x y : Checked α} (h : x.Alike y) : y.Alike x := fun a => (h a).symm

/-- Of three readings the outer ones are alike if both are like the one between. -/
theorem Alike.trans {x y z : Checked α} (h : x.Alike y) (h' : y.Alike z) : x.Alike z :=
  fun a => (h a).trans (h' a)

/-- No two faults give anything. -/
theorem alike_fail (f g : Fault) : (fail f : Checked α).Alike (fail g) := by
  intro a
  simp

/-- Two notices give the same. -/
theorem alike_note (n m : Notice) : (note n).Alike (note m) := by
  intro u
  simp

/-- Which fault stands for an absent value does not matter. -/
theorem alike_require (a? : Option α) (f g : Fault) : (require a? f).Alike (require a? g) := by
  intro a
  rw [gives_require, gives_require]

/-- Sequences are alike if their parts are. -/
theorem Alike.bind {x y : Checked α} {f g : α → Checked β} (h : x.Alike y)
    (hf : ∀ a, (f a).Alike (g a)) : (x >>= f).Alike (y >>= g) := by
  intro b
  rw [gives_bind, gives_bind]
  refine exists_congr fun a => ?_
  rw [h a, hf a b]

/-- What is done with the value keeps two readings alike. -/
theorem Alike.map {x y : Checked α} (f : α → β) (h : x.Alike y) : (f <$> x).Alike (f <$> y) := by
  intro b
  rw [gives_map, gives_map]
  refine exists_congr fun a => ?_
  rw [h a]

/-- Notices in front do so too, even different ones. -/
theorem Alike.noteIf {p : Prop} [Decidable p] {n m : Notice} {x y : Checked α} (h : x.Alike y) :
    (if p then (do note n; x) else x).Alike (if p then (do note m; y) else y) := by
  intro a
  rw [gives_noteIf, gives_noteIf]
  exact h a

/-- Lists are read alike if all members are. -/
theorem Alike.mapM {f g : α → Checked β} (h : ∀ a, (f a).Alike (g a)) (as : List α) :
    (as.mapM f).Alike (as.mapM g) := by
  intro bs
  have hfg : (fun a b => (f a).Gives b) = fun a b => (g a).Gives b := by
    funext a b
    exact propext (h a b)
  rw [gives_mapM, gives_mapM, hfg]

/-- A list can be read without regard to the places of its members, if they give the same values at
    every place. -/
theorem Alike.mapM_zipIdx {f : α → Nat → Checked β} {g : α → Checked β}
    (h : ∀ a i, (f a i).Alike (g a)) (as : List α) :
    (as.zipIdx.mapM fun x => f x.1 x.2).Alike (as.mapM g) := by
  have hzip : as.mapM g = as.zipIdx.mapM fun x => g x.1 := by
    conv_lhs => rw [← List.zipIdx_map_fst 0 as]
    rw [List.mapM_map]
    rfl
  rw [hzip]
  exact Alike.mapM (fun x : α × Nat => h x.1 x.2) _

/-- They are also checked alike. -/
theorem Alike.forM {f g : α → Checked PUnit} (h : ∀ a, (f a).Alike (g a)) (as : List α) :
    (as.forM f).Alike (as.forM g) := by
  intro u
  rw [gives_forM, gives_forM]
  exact forall₂_congr fun a _ => h a _

/-- Loops are alike if all their steps are. -/
theorem Alike.foldlM {f g : σ → α → Checked σ} (h : ∀ s a, (f s a).Alike (g s a)) (as : List α)
    (s : σ) : (as.foldlM f s).Alike (as.foldlM g s) := by
  induction as generalizing s with
  | nil => exact .refl _
  | cons a as ih => exact (h s a).bind ih

/-! ## Rows -/

/-- The rows that some things stand for, one behind the other. -/
def rows (f : α → Checked (List β)) (as : List α) : Checked (List β) := List.flatten <$> as.mapM f

/-- No declarations give no row. -/
@[simp] theorem gives_rows_nil {f : α → Checked (List β)} {bs : List β} :
    (rows f []).Gives bs ↔ bs = [] := by
  simp [rows, eq_comm]

/-- The row of the first declaration stands in front of those of the others. -/
@[simp] theorem gives_rows_cons {f : α → Checked (List β)} {a : α} {as : List α} {bs : List β} :
    (rows f (a :: as)).Gives bs
      ↔ ∃ row rest, (f a).Gives row ∧ (rows f as).Gives rest ∧ bs = row ++ rest := by
  simp only [rows, List.mapM_cons, gives_map, gives_bind, gives_pure]
  constructor
  · intro h
    obtain ⟨_, ⟨row, hrow, others, hothers, rfl⟩, rfl⟩ := h
    exact ⟨row, others.flatten, hrow, ⟨others, hothers, rfl⟩, rfl⟩
  · intro h
    obtain ⟨row, _, hrow, ⟨others, hothers, rfl⟩, rfl⟩ := h
    exact ⟨row :: others, ⟨row, hrow, others, hothers, rfl⟩, rfl⟩

/-- The rows of two lists stand one behind the other. -/
theorem gives_rows_append {f : α → Checked (List β)} {as cs : List α} {bs : List β} :
    (rows f (as ++ cs)).Gives bs
      ↔ ∃ front back, (rows f as).Gives front ∧ (rows f cs).Gives back ∧ bs = front ++ back := by
  induction as generalizing bs with
  | nil => simp
  | cons a as ih =>
    simp only [List.cons_append, gives_rows_cons, ih]
    constructor
    · intro h
      obtain ⟨row, _, hrow, ⟨front, back, hfront, hback, rfl⟩, rfl⟩ := h
      -- the first row belongs to the front
      exact ⟨row ++ front, back, ⟨row, front, hrow, hfront, rfl⟩, hback,
        (List.append_assoc _ _ _).symm⟩
    · intro h
      obtain ⟨_, back, ⟨row, front, hrow, hfront, rfl⟩, hback, rfl⟩ := h
      exact ⟨row, front ++ back, hrow, ⟨front, back, hfront, hback, rfl⟩, List.append_assoc _ _ _⟩

/-- One declaration alone is read to its row. -/
theorem alike_rows_singleton (f : α → Checked (List β)) (a : α) : (f a).Alike (rows f [a]) := by
  intro bs
  simp

/-- Things that each stand for one entry, whatever else they may. -/
theorem alike_rows_mapM (f : α → Checked β) (as : List α) :
    (as.mapM f).Alike (rows (fun a => (fun b => [b]) <$> f a) as) := by
  intro bs
  induction as generalizing bs with
  | nil => simp [eq_comm]
  | cons a as ih =>
    simp only [List.mapM_cons, gives_bind, gives_pure, gives_rows_cons, gives_map, ih]
    constructor
    · intro h
      -- each value is a row of one
      obtain ⟨b, hb, rest, hrest, rfl⟩ := h
      exact ⟨[b], rest, ⟨b, hb, rfl⟩, hrest, rfl⟩
    · intro h
      obtain ⟨_, rest, ⟨b, hb, rfl⟩, hrest, rfl⟩ := h
      exact ⟨b, hb, rest, hrest, rfl⟩

/-- Something may be replaced by others that stand for the same row. -/
theorem alike_rows_replace {f : α → Checked (List β)} {a : α} {cs : List α}
    (h : (f a).Alike (rows f cs)) (before after : List α) :
    (rows f (before ++ a :: after)).Alike (rows f (before ++ cs ++ after)) := by
  intro bs
  simp only [List.append_assoc, gives_rows_append, gives_rows_cons]
  refine exists_congr fun front => ?_
  -- behind the row of `a`, or of those in its place, the two lists are one
  constructor
  · intro hgives
    obtain ⟨_, hfront, ⟨row, rest, hrow, hrest, rfl⟩, rfl⟩ := hgives
    exact ⟨row ++ rest, hfront, ⟨row, rest, (h row).1 hrow, hrest, rfl⟩, rfl⟩
  · intro hgives
    obtain ⟨_, hfront, ⟨row, rest, hrow, hrest, rfl⟩, rfl⟩ := hgives
    exact ⟨row ++ rest, hfront, ⟨row, rest, (h row).2 hrow, hrest, rfl⟩, rfl⟩

/-- Things that each stand for a single entry, as far as they may. -/
theorem gives_rows_singles {γ : Type} {f : α → Checked (List β)} {ok : γ → Prop} {entry : γ → β}
    {cs : List γ} {as : List α}
    (h : List.Forall₂ (fun c a => ∀ bs, (f a).Gives bs ↔ ok c ∧ bs = [entry c]) cs as)
    {bs : List β} : (rows f as).Gives bs ↔ (∀ c ∈ cs, ok c) ∧ bs = cs.map entry := by
  -- the entries and the readings are gone through side by side
  induction h generalizing bs with
  | nil => simp
  | cons ha _ ih =>
    simp only [gives_rows_cons, ha, ih, List.forall_mem_cons, List.map_cons]
    constructor
    · intro hgives
      obtain ⟨_, _, ⟨hok, rfl⟩, ⟨hall, rfl⟩, rfl⟩ := hgives
      exact ⟨⟨hok, hall⟩, rfl⟩
    · intro hgives
      obtain ⟨⟨hok, hall⟩, rfl⟩ := hgives
      exact ⟨_, _, ⟨hok, rfl⟩, ⟨hall, rfl⟩, rfl⟩

end RegisterMap.Checked
