import Mathlib.Data.List.Flatten
import Mathlib.Data.List.Nodup
import RegisterMap.FirstWins
import RegisterMap.Proofs.Failing

/-!
# Theory of the tables in which the first entry of a name wins

A table that was filled by offering entries one after another holds the first
entry of every name (`firsts`), and no offer clashes exactly if entries of one
name have one place (`Agree`). So what a loop of offers leaves behind can be
said without the loop:

- `offer_firsts`: one offer
- `gives_foldlM_merge`: a loop that offers a list of entries
- `gives_foldlM_rows`, `gives_foldlM_entries`: a loop that reads the entries
  and offers them at once
- `fails_foldlM_merge`, `fails_foldlM_rows`: what stops such a loop, which is
  the first entry that clashes or a row that cannot be read in front of it
-/

namespace RegisterMap.FirstWins

variable {α β : Type} {name : α → String} {place : α → β}

/-! ## The first entry of every name -/

/-- The first entry of every name, in order. -/
def firsts (name : α → String) : List α → List α
  | [] => []
  | a :: as => a :: (firsts name as).filter fun b => name b != name a

/-- Entries of one name have one place. -/
def Agree (name : α → String) (place : α → β) (as : List α) : Prop :=
  ∀ a ∈ as, ∀ b ∈ as, name a = name b → place a = place b

/-- The first things of their names are in order. -/
theorem firsts_sublist (as : List α) : (firsts name as).Sublist as := by
  induction as with
  | nil => exact .slnil
  | cons a as ih => exact (List.filter_sublist.trans ih).cons_cons a

/-- They are among all things. -/
theorem mem_of_mem_firsts {as : List α} {a : α} (h : a ∈ firsts name as) : a ∈ as :=
  (firsts_sublist as).subset h

/-- The names of the first entries are different. -/
theorem nodup_firsts (as : List α) : ((firsts name as).map name).Nodup := by
  induction as with
  | nil => exact List.nodup_nil
  | cons a as ih =>
    refine List.nodup_cons.2 ⟨?_, ih.sublist (List.filter_sublist.map name)⟩
    intro h
    -- a later one of the same name has been filtered out
    obtain ⟨b, hb, hba⟩ := List.mem_map.1 h
    have := (List.mem_filter.1 hb).2
    simp [hba] at this

/-- Things of different names are all the first of their names. -/
theorem firsts_of_nodup {as : List α} (h : (as.map name).Nodup) : firsts name as = as := by
  induction as with
  | nil => rfl
  | cons a as ih =>
    obtain ⟨ha, has⟩ := List.nodup_cons.1 h
    rw [firsts, ih has, List.filter_eq_self.2]
    intro b hb
    -- no later one has the name, so the filter keeps all
    have hne : name b ≠ name a := fun hba => ha (hba ▸ List.mem_map_of_mem hb)
    simpa using hne

/-- A name leads to the same entry in a list and in its first entries. -/
theorem find?_firsts (as : List α) (n : String) :
    find? name (firsts name as) n = find? name as n := by
  induction as with
  | nil => rfl
  | cons a as ih =>
    unfold find? at *
    rw [firsts]
    by_cases hn : name a = n
    · simp [hn]
    · rw [List.find?_cons_of_neg (by simpa using hn), List.find?_cons_of_neg (by simpa using hn),
        ← ih, List.find?_filter]
      -- an entry of the name looked for is not one of those that the filter drops
      congr 1
      funext b
      by_cases hb : name b = n
      · have : n ≠ name a := fun h => hn h.symm
        simp [hb, this]
      · simp [hb]

/-- Nothing is found under a name that nothing has. -/
theorem find?_eq_none_iff {as : List α} {n : String} :
    find? name as n = none ↔ n ∉ as.map name := by
  simp [find?, List.find?_eq_none]

/-- What is found under a name has it. -/
theorem name_of_find? {as : List α} {n : String} {a : α} (h : find? name as n = some a) :
    name a = n := by
  simpa using List.find?_some h

/-- What is found is one of the things. -/
theorem mem_of_find? {as : List α} {n : String} {a : α} (h : find? name as n = some a) : a ∈ as :=
  List.mem_of_find?_eq_some h

/-- A name leads to related entries in tables that are related entry by entry. -/
theorem exists_find?_of_forall₂ {γ : Type} {name' : γ → String} {R : α → γ → Prop} {as : List α}
    {cs : List γ} (h : List.Forall₂ R as cs) (hname : ∀ a c, R a c → name' c = name a) {n : String}
    {a : α} (ha : find? name as n = some a) : ∃ c, find? name' cs n = some c ∧ R a c := by
  unfold find? at *
  induction h with
  | nil => cases ha
  | @cons b c as cs hbc _ ih =>
    -- both lists begin with a thing of the name, or none of them does
    by_cases hb : name b = n
    · rw [List.find?_cons_of_pos (by simpa using hb)] at ha
      obtain rfl := Option.some.inj ha
      exact ⟨c, List.find?_cons_of_pos (by simpa [hname b c hbc] using hb), hbc⟩
    · rw [List.find?_cons_of_neg (by simpa using hb)] at ha
      rw [List.find?_cons_of_neg (by simpa [hname b c hbc] using hb)]
      exact ih ha

/-- The entries that are kept are those that their own name leads to. -/
theorem mem_firsts_iff {as : List α} {a : α} :
    a ∈ firsts name as ↔ find? name as (name a) = some a := by
  constructor
  · intro h
    rw [← find?_firsts]
    have hnodup : ((firsts name as).map name).Nodup := nodup_firsts as
    -- what counts is that no two entries have one name, so the induction is on any such list
    generalize firsts name as = l at h hnodup
    induction l with
    | nil => simp at h
    | cons b l ih =>
      rw [List.map_cons, List.nodup_cons] at hnodup
      rcases List.mem_cons.1 h with rfl | hl
      · simp [find?]
      · have hne : name b ≠ name a := fun hba => hnodup.1 (hba ▸ List.mem_map_of_mem hl)
        have := ih hl hnodup.2
        simpa [find?, hne] using this
  · intro h
    rw [← find?_firsts] at h
    exact mem_of_find? h

/-- In a table in which no two entries have one name, every entry is found. -/
theorem find?_of_nodup {as : List α} (h : (as.map name).Nodup) {a : α} (ha : a ∈ as) :
    find? name as (name a) = some a := by
  cases hf : find? name as (name a) with
  | none => exact absurd (List.mem_map_of_mem ha) (find?_eq_none_iff.1 hf)
  | some b =>
    rw [List.inj_on_of_nodup_map h (mem_of_find? hf) ha (name_of_find? hf)]

/-- Among different names it does not matter from which end a thing is looked for. -/
theorem find?_reverse_of_nodup {as : List α} (h : (as.map name).Nodup) (n : String) :
    find? name as.reverse n = find? name as n := by
  cases hf : find? name as n with
  | none =>
    rw [find?_eq_none_iff, List.map_reverse, List.mem_reverse]
    exact find?_eq_none_iff.1 hf
  | some a =>
    have hreverse : (as.reverse.map name).Nodup := by
      rw [List.map_reverse]
      exact List.nodup_reverse.2 h
    -- what is found from the front is in the reversed list, where no other thing has its name
    have ha := find?_of_nodup hreverse (List.mem_reverse.2 (mem_of_find? hf))
    rwa [name_of_find? hf] at ha

/-- In a table in which no two entries have one name, only one of them adds to a list that
    is made of what belongs to its name. -/
theorem flatMap_of_nodup {γ : Type} {as : List α} (h : (as.map name).Nodup) {a : α} (ha : a ∈ as)
    {f : α → List γ} (hf : ∀ b ∈ as, name b ≠ name a → f b = []) : as.flatMap f = f a := by
  obtain ⟨before, after, has⟩ := List.append_of_mem ha
  subst has
  rw [List.map_append, List.map_cons, List.nodup_middle, List.nodup_cons, List.mem_append] at h
  -- the things in front and behind have other names
  have hothers : ∀ b, b ∈ before ∨ b ∈ after → f b = [] := by
    intro b hb
    have hmem : b ∈ before ++ a :: after := by
      rw [List.mem_append, List.mem_cons]
      exact hb.imp id .inr
    refine hf b hmem fun hba => h.1 ?_
    exact hb.imp (fun hb => hba ▸ List.mem_map_of_mem hb) fun hb => hba ▸ List.mem_map_of_mem hb
  have hbefore : before.flatMap f = [] := List.flatMap_eq_nil_iff.2 fun b hb => hothers b (.inl hb)
  have hafter : after.flatMap f = [] := List.flatMap_eq_nil_iff.2 fun b hb => hothers b (.inr hb)
  rw [List.flatMap_append, List.flatMap_cons, hbefore, hafter, List.nil_append, List.append_nil]

/-- The first things have all names. -/
theorem mem_map_firsts {as : List α} {n : String} :
    n ∈ (firsts name as).map name ↔ n ∈ as.map name := by
  rw [← not_iff_not, ← find?_eq_none_iff, ← find?_eq_none_iff, find?_firsts]

/-- One more entry is kept if its name is new. -/
theorem firsts_concat (as : List α) (a : α) :
    firsts name (as ++ [a]) =
      if name a ∈ as.map name then firsts name as else firsts name as ++ [a] := by
  induction as with
  | nil => rfl
  | cons b as ih =>
    rw [List.cons_append, firsts, firsts, ih, List.map_cons]
    -- the new thing may have the name of the first one, of a later one, or of none
    by_cases hab : name a = name b
    · have hmem : name a ∈ name b :: as.map name := hab ▸ List.mem_cons_self
      rw [if_pos hmem]
      split
      · rfl
      · rw [List.filter_append]
        simp [hab]
    · by_cases ha : name a ∈ as.map name
      · rw [if_pos ha, if_pos (List.mem_cons_of_mem _ ha)]
      · have hmem : name a ∉ name b :: as.map name := by
          rw [List.mem_cons]
          exact fun h => h.elim hab ha
        rw [if_neg ha, if_neg hmem, List.filter_append]
        simp [hab]

/-! ## The first member with a property -/

section Property

variable {P Q : α → Prop} [DecidablePred P] [DecidablePred Q]

/-- The first member of a list with a property is a given one or stands in front of it. -/
theorem exists_find?_of_mem {as : List α} {a : α} (ha : a ∈ as) (hP : P a) :
    ∃ b, as.find? (P ·) = some b ∧ P b ∧ (b = a ∨ [b, a].Sublist as) := by
  induction as with
  | nil => exact absurd ha List.not_mem_nil
  | cons c as ih =>
    -- the first thing that fits is in front, or it is to be found among the others
    by_cases hc : P c
    · refine ⟨c, List.find?_cons_of_pos (by simpa using hc), hc, ?_⟩
      obtain hac | hmem := List.mem_cons.1 ha
      · exact .inl hac.symm
      · exact .inr ((List.singleton_sublist.2 hmem).cons_cons c)
    · have hmem : a ∈ as := (List.mem_cons.1 ha).resolve_left fun hac => hc (hac ▸ hP)
      obtain ⟨b, hb, hPb, hba⟩ := ih hmem
      refine ⟨b, ?_, hPb, hba.imp id fun hsub => hsub.cons c⟩
      rw [List.find?_cons_of_neg (by simpa using hc), hb]

/-- The first members with two properties are the same if each of them has both. -/
theorem find?_eq_of_find? {as : List α} {a b : α} (ha : as.find? (P ·) = some a)
    (hb : as.find? (Q ·) = some b) (hQ : Q a) (hP : P b) : a = b := by
  induction as with
  | nil => cases ha
  | cons c as ih =>
    -- the first thing that fits for the one fits for the other, and is first there as well
    by_cases hPc : P c
    · rw [List.find?_cons_of_pos (by simpa using hPc)] at ha
      obtain rfl := Option.some.inj ha
      rw [List.find?_cons_of_pos (by simpa using hQ)] at hb
      exact Option.some.inj hb
    · by_cases hQc : Q c
      · rw [List.find?_cons_of_pos (by simpa using hQc)] at hb
        exact absurd (Option.some.inj hb ▸ hP) hPc
      · rw [List.find?_cons_of_neg (by simpa using hPc)] at ha
        rw [List.find?_cons_of_neg (by simpa using hQc)] at hb
        exact ih ha hb

/-- Two members of a list stand in one order or in the other. -/
theorem sublist_pair_or {as : List α} {a b : α} (ha : a ∈ as) (hb : b ∈ as) (hne : a ≠ b) :
    [a, b].Sublist as ∨ [b, a].Sublist as := by
  induction as with
  | nil => cases ha
  | cons c as ih =>
    -- whichever of the two comes first has the other one behind it
    obtain hac | hmem := List.mem_cons.1 ha
    · have hb := (List.mem_cons.1 hb).resolve_left fun hbc => hne (hac.trans hbc.symm)
      exact .inl (hac ▸ (List.singleton_sublist.2 hb).cons_cons c)
    · obtain hbc | hb := List.mem_cons.1 hb
      · exact .inr (hbc ▸ (List.singleton_sublist.2 hmem).cons_cons c)
      · exact (ih hmem hb).imp (fun h => h.cons c) fun h => h.cons c

end Property

/-! ## Agreement -/

/-- Things that agree still do when some are left out. -/
theorem Agree.sublist {as bs : List α} (h : Agree name place bs) (hs : as.Sublist bs) :
    Agree name place as :=
  fun a ha b hb => h a (hs.subset ha) b (hs.subset hb)

/-- No things agree. -/
theorem agree_nil : Agree name place [] := fun _ h => absurd h List.not_mem_nil

/-- One more entry agrees with those before it if it does with the first of its name. -/
theorem agree_concat_iff {as : List α} {a : α} (h : Agree name place as) :
    Agree name place (as ++ [a]) ↔ ∀ b, find? name as (name a) = some b → place b = place a := by
  constructor
  · intro h' b hb
    exact h' b (List.mem_append_left _ (mem_of_find? hb)) a (by simp) (name_of_find? hb)
  · intro h'
    -- the first entry of the name stands for all of them
    have key : ∀ b ∈ as, name b = name a → place b = place a := by
      intro b hb hba
      cases hf : find? name as (name a) with
      | none => exact absurd (hba ▸ List.mem_map_of_mem hb) (find?_eq_none_iff.1 hf)
      | some c => rw [h b hb c (mem_of_find? hf) (hba.trans (name_of_find? hf).symm), h' c hf]
    intro b hb c hc hbc
    rcases List.mem_append.1 hb with hb | hb <;> rcases List.mem_append.1 hc with hc | hc
    · exact h b hb c hc hbc
    · rw [List.mem_singleton.1 hc] at hbc ⊢
      exact key b hb hbc
    · rw [List.mem_singleton.1 hb] at hbc ⊢
      exact (key c hc hbc.symm).symm
    · rw [List.mem_singleton.1 hb, List.mem_singleton.1 hc]

/-- If entries of one name have one place, the first ones take every place. -/
theorem Agree.exists_firsts_iff {as : List α} (h : Agree name place as) {P : β → Prop} :
    (∃ a ∈ firsts name as, P (place a)) ↔ ∃ a ∈ as, P (place a) := by
  constructor
  · intro h
    obtain ⟨a, ha, hP⟩ := h
    exact ⟨a, mem_of_mem_firsts ha, hP⟩
  · intro h
    obtain ⟨a, ha, hP⟩ := h
    -- the first of the name agrees with the one at hand
    obtain ⟨b, hb, hba⟩ := List.mem_map.1 (mem_map_firsts.2 (List.mem_map_of_mem ha))
    exact ⟨b, hb, h a ha b (mem_of_mem_firsts hb) hba.symm ▸ hP⟩

/-- If entries of one name have one place, a look-up leads to the place of any of them. -/
theorem Agree.map_find?_eq_some_iff {as : List α} (h : Agree name place as) {n : String} {p : β} :
    (find? name as n).map place = some p ↔ ∃ a ∈ as, name a = n ∧ place a = p := by
  rw [Option.map_eq_some_iff]
  constructor
  · intro hfind
    obtain ⟨a, ha, hp⟩ := hfind
    exact ⟨a, mem_of_find? ha, name_of_find? ha, hp⟩
  · intro hmem
    obtain ⟨a, ha, hn, hp⟩ := hmem
    cases hf : find? name as n with
    | none => exact absurd (hn ▸ List.mem_map_of_mem ha) (find?_eq_none_iff.1 hf)
    | some b =>
      -- the first thing of the name is at the place of all others of it
      have hba := h b (mem_of_find? hf) a ha ((name_of_find? hf).trans hn.symm)
      exact ⟨b, rfl, hba.trans hp⟩

/-- The order of things does not matter for whether they agree. -/
theorem Agree.perm {as bs : List α} (h : Agree name place as) (hperm : bs.Perm as) :
    Agree name place bs :=
  fun a ha b hb => h a (hperm.subset ha) b (hperm.subset hb)

/-- The place that a name leads to does not depend on the order of the entries. -/
theorem Agree.map_find?_perm {as bs : List α} (h : Agree name place as) (hperm : bs.Perm as)
    (n : String) : (find? name bs n).map place = (find? name as n).map place := by
  apply Option.ext
  intro p
  rw [(h.perm hperm).map_find?_eq_some_iff, h.map_find?_eq_some_iff]
  simp only [hperm.mem_iff]

/-- In a table in which no two entries have one name, look-ups do not depend on the order. -/
theorem find?_perm {as bs : List α} (h : (as.map name).Nodup) (hperm : bs.Perm as) (n : String) :
    find? name bs n = find? name as n := by
  have hagree : Agree name (fun a => a) as :=
    fun a ha b hb hab => List.inj_on_of_nodup_map h ha hb hab
  have hfind := hagree.map_find?_perm hperm n
  rwa [Option.map_id', Option.map_id'] at hfind

/-! ## Offers -/

variable [DecidableEq β]

/-- The table after an offer, unless it clashed. -/
def Outcome.table? (before : List α) : Outcome α → Option (List α)
  | added after => some after
  | repeated => some before
  | clash _ => none

/-- An offer to the first entries of a list is accepted if the list still agrees, and
    leaves the first entries of the longer list. -/
theorem offer_firsts {as : List α} (h : Agree name place as) (a : α) (t : List α) :
    (offer name place (firsts name as) a).table? (firsts name as) = some t
      ↔ Agree name place (as ++ [a]) ∧ t = firsts name (as ++ [a]) := by
  rw [agree_concat_iff h, firsts_concat]
  unfold offer
  rw [find?_firsts]
  cases hf : find? name as (name a) with
  | none =>
    rw [if_neg (find?_eq_none_iff.1 hf)]
    simp only [Outcome.table?, Option.some.injEq, reduceCtorEq, false_implies, implies_true,
      true_and]
    exact eq_comm
  | some b =>
    have hmem : name a ∈ as.map name := name_of_find? hf ▸ List.mem_map_of_mem (mem_of_find? hf)
    rw [if_pos hmem]
    -- of a known name, only things at the same place are taken
    by_cases hp : place b = place a
    · simp only [hp, if_true, Outcome.table?, Option.some.injEq, forall_eq', true_and]
      exact eq_comm
    · simp only [hp, if_false, Outcome.table?, Option.some.injEq, forall_eq', false_and,
        reduceCtorEq]

/-- An entry of `bs` has another place than the first one of its name, and all entries of `as` and
    `bs` in front of it agree. -/
def FirstClash (name : α → String) (place : α → β) (as bs : List α) (first b : α) : Prop :=
  ∃ front back, bs = front ++ b :: back ∧ Agree name place (as ++ front)
    ∧ find? name (as ++ front) (name b) = some first ∧ place first ≠ place b

/-- A thing clashes with the first one of its name if that is at another place. -/
theorem offer_firsts_eq_clash_iff {as : List α} {a first : α} :
    offer name place (firsts name as) a = .clash first
      ↔ find? name as (name a) = some first ∧ place first ≠ place a := by
  unfold offer
  rw [find?_firsts]
  cases hf : find? name as (name a) with
  | none => simp
  | some b =>
    -- a thing at the same place is no clash
    by_cases hp : place b = place a
    · simp only [hp, if_true, Option.some.injEq, reduceCtorEq, false_iff, not_and, not_not]
      exact fun hb => hb ▸ hp
    · simp only [hp, if_false, Outcome.clash.injEq, Option.some.injEq, iff_self_and]
      exact fun hb => hb ▸ hp

/-! ## Loops of offers -/

section Loop

variable {σ ι : Type} (wrap : List α → σ) (merge : ι → σ → α → Checked σ)
  (hmerge : ∀ i t a s, (merge i (wrap t) a).Gives s
    ↔ ∃ t', (offer name place t a).table? t = some t' ∧ s = wrap t')
include hmerge

/-- A loop that offers entries ends well if all of them agree, and then has kept the
    first of every name. -/
theorem gives_foldlM_merge (i : ι) {as : List α} (h : Agree name place as) (bs : List α) (s : σ) :
    (bs.foldlM (merge i) (wrap (firsts name as))).Gives s
      ↔ Agree name place (as ++ bs) ∧ s = wrap (firsts name (as ++ bs)) := by
  induction bs generalizing as with
  | nil =>
    rw [Checked.gives_foldlM_nil, List.append_nil]
    exact ⟨fun hs => ⟨h, hs.symm⟩, fun hs => hs.2.symm⟩
  | cons b bs ih =>
    rw [Checked.gives_foldlM_cons, List.append_cons]
    constructor
    · -- the step leaves the first entries of a list that is longer by one
      intro h
      obtain ⟨u, hu, hs⟩ := h
      obtain ⟨t, ht, rfl⟩ := (hmerge i _ b u).1 hu
      obtain ⟨hagree, rfl⟩ := (offer_firsts h b t).1 ht
      exact (ih hagree).1 hs
    · intro h
      obtain ⟨hagree, rfl⟩ := h
      have hb : Agree name place (as ++ [b]) := hagree.sublist (List.sublist_append_left _ bs)
      refine ⟨wrap (firsts name (as ++ [b])), ?_, (ih hb).2 ⟨hagree, rfl⟩⟩
      exact (hmerge i _ b _).2 ⟨_, (offer_firsts h b _).2 ⟨hb, rfl⟩, rfl⟩

/-- A loop that reads rows of entries and offers each row before it reads the next. -/
theorem gives_foldlM_rows (row : ι → Checked (List α)) {as : List α} (h : Agree name place as)
    (is : List ι) (s : σ) :
    (is.foldlM (fun s i => row i >>= fun bs => bs.foldlM (merge i) s)
        (wrap (firsts name as))).Gives s
      ↔ ∃ rows, (is.mapM row).Gives rows ∧ Agree name place (as ++ rows.flatten)
          ∧ s = wrap (firsts name (as ++ rows.flatten)) := by
  induction is generalizing as with
  | nil =>
    rw [Checked.gives_foldlM_nil, List.mapM_nil]
    simp only [Checked.gives_pure, exists_eq_left', List.flatten_nil, List.append_nil]
    exact ⟨fun hs => ⟨h, hs.symm⟩, fun hs => hs.2.symm⟩
  | cons i is ih =>
    simp only [Checked.gives_foldlM_cons, List.mapM_cons, Checked.gives_bind, Checked.gives_pure]
    constructor
    · intro h
      obtain ⟨u, ⟨bs, hbs, hu⟩, hs⟩ := h
      obtain ⟨hagree, rfl⟩ := (gives_foldlM_merge wrap merge hmerge i h bs u).1 hu
      obtain ⟨rows, hrows, hall, rfl⟩ := (ih hagree).1 hs
      rw [List.append_assoc] at hall ⊢
      exact ⟨bs :: rows, ⟨bs, hbs, rows, hrows, rfl⟩, hall, rfl⟩
    · -- all of the list agrees, so what has been offered so far does
      intro h
      obtain ⟨_, ⟨bs, hbs, rows, hrows, rfl⟩, hall, hs⟩ := h
      rw [List.flatten_cons, ← List.append_assoc] at hall hs
      have hagree : Agree name place (as ++ bs) := hall.sublist (List.sublist_append_left _ _)
      refine ⟨wrap (firsts name (as ++ bs)), ⟨bs, hbs, ?_⟩, (ih hagree).2 ⟨rows, hrows, hall, hs⟩⟩
      exact (gives_foldlM_merge wrap merge hmerge i h bs _).2 ⟨hagree, rfl⟩

/-- A loop that reads single entries and offers each before it reads the next. -/
theorem gives_foldlM_entries (entry : ι → Checked α) {as : List α} (h : Agree name place as)
    (is : List ι) (s : σ) :
    (is.foldlM (fun s i => entry i >>= merge i s) (wrap (firsts name as))).Gives s
      ↔ ∃ bs, (is.mapM entry).Gives bs ∧ Agree name place (as ++ bs)
          ∧ s = wrap (firsts name (as ++ bs)) := by
  -- a single entry is a row of one
  have hstep : ∀ s i, entry i >>= merge i s
      = ((fun b => [b]) <$> entry i) >>= fun bs => bs.foldlM (merge i) s := by
    intro s i
    simp
  have hflat : ∀ bs : List α, (bs.map fun b => [b]).flatten = bs := by
    intro bs
    rw [← List.flatMap_def, List.flatMap_singleton']
  simp only [hstep, gives_foldlM_rows wrap merge hmerge _ h, Checked.gives_mapM_map]
  constructor
  · intro h
    obtain ⟨_, ⟨bs, hbs, rfl⟩, hs⟩ := h
    exact ⟨bs, hbs, hflat bs ▸ hs⟩
  · intro h
    obtain ⟨bs, hbs, hs⟩ := h
    exact ⟨_, ⟨bs, hbs, rfl⟩, (hflat bs).symm ▸ hs⟩

/-! ### What stops a loop -/

variable (fault : ι → α → α → Fault)
  (hfault : ∀ i t a f, (merge i (wrap t) a).Fails f
    ↔ ∃ first, offer name place t a = .clash first ∧ f = fault i first a)
include hfault

/-- A loop that offers entries stops at the first one that clashes. -/
theorem fails_foldlM_merge (i : ι) {as : List α} (h : Agree name place as) (bs : List α)
    (f : Fault) :
    (bs.foldlM (merge i) (wrap (firsts name as))).Fails f
      ↔ ∃ first b, FirstClash name place as bs first b ∧ f = fault i first b := by
  simp only [Checked.fails_foldlM, gives_foldlM_merge wrap merge hmerge i h]
  constructor
  · intro hfails
    obtain ⟨front, b, back, hsplit, _, ⟨hagree, rfl⟩, hb⟩ := hfails
    -- the step fails for the first thing that clashes
    obtain ⟨first, hclash, rfl⟩ := (hfault i _ b f).1 hb
    obtain ⟨hfirst, hne⟩ := offer_firsts_eq_clash_iff.1 hclash
    exact ⟨first, b, ⟨front, back, hsplit, hagree, hfirst, hne⟩, rfl⟩
  · intro hclash
    obtain ⟨first, b, ⟨front, back, hsplit, hagree, hfirst, hne⟩, rfl⟩ := hclash
    refine ⟨front, b, back, hsplit, _, ⟨hagree, rfl⟩, (hfault i _ b _).2 ⟨first, ?_, rfl⟩⟩
    exact offer_firsts_eq_clash_iff.2 ⟨hfirst, hne⟩

/-- A loop that reads rows of entries stops at the first row that cannot be read or that holds an
    entry that clashes; the rows in front of it have been read, and their entries agree. -/
theorem fails_foldlM_rows (row : ι → Checked (List α)) {as : List α} (h : Agree name place as)
    (is : List ι) (f : Fault) :
    (is.foldlM (fun s i => row i >>= fun bs => bs.foldlM (merge i) s)
        (wrap (firsts name as))).Fails f
      ↔ ∃ before i after, is = before ++ i :: after
          ∧ ∃ rows, (before.mapM row).Gives rows ∧ Agree name place (as ++ rows.flatten)
            ∧ ((row i).Fails f ∨ ∃ bs first b, (row i).Gives bs
              ∧ FirstClash name place (as ++ rows.flatten) bs first b ∧ f = fault i first b) := by
  rw [Checked.fails_foldlM]
  simp only [gives_foldlM_rows wrap merge hmerge row h, Checked.fails_bind]
  constructor
  · intro hfails
    obtain ⟨before, i, after, hsplit, _, ⟨rows, hrows, hagree, rfl⟩, hstep⟩ := hfails
    -- the rows in front agree, so that the row either fails itself or clashes with them
    refine ⟨before, i, after, hsplit, rows, hrows, hagree, hstep.imp_right fun hclash => ?_⟩
    obtain ⟨bs, hbs, hfails⟩ := hclash
    obtain ⟨first, b, hclash, hf⟩ :=
      (fails_foldlM_merge wrap merge hmerge fault hfault i hagree bs f).1 hfails
    exact ⟨bs, first, b, hbs, hclash, hf⟩
  · intro hstop
    obtain ⟨before, i, after, hsplit, rows, hrows, hagree, hstep⟩ := hstop
    refine ⟨before, i, after, hsplit, _, ⟨rows, hrows, hagree, rfl⟩, ?_⟩
    refine hstep.imp_right fun hclash => ?_
    obtain ⟨bs, first, b, hbs, hclash, hf⟩ := hclash
    exact ⟨bs, hbs, (fails_foldlM_merge wrap merge hmerge fault hfault i hagree bs f).2
      ⟨first, b, hclash, hf⟩⟩

end Loop

end RegisterMap.FirstWins
