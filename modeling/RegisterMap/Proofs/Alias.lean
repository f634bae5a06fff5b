import RegisterMap.Alias
import RegisterMap.Proofs.FirstWins

/-!
# Theory of derived peripherals

A walk along the parents that ends well ends at a declaration that owns the
group it gives, and every parent it meets is declared. Linking keeps everything
else that a declaration says, so that the peripherals of a device are its
declarations one by one (`gives_linkAll`). If no two declarations have one name,
their order does not matter (`gives_linkAll_perm`). A link may be cut once the
group at its end is known: all other walks end as before (`linkAll_unlinked`).
-/

namespace RegisterMap

/-- The peripheral that a declaration is derived from, if it is. -/
def Declaration.parent? (d : Declaration) : Option String :=
  match d.layout with
  | .owned _ => none
  | .derived parent => some parent

/-- A declaration that names its group instead of a parent. -/
def Declaration.unlinked (d : Declaration) (group : String) : Declaration :=
  { d with layout := .owned group }

/-- A peripheral that is not derived. -/
def Peripheral.unlinked (p : Peripheral) : Peripheral := { p with parent := none }

namespace Alias

variable {ds : List Declaration} {d : Declaration} {group : String}

/-- A declaration is found under its own name. -/
theorem name_of_last? {name : String} (h : Declaration.last? ds name = some d) : d.name = name := by
  simpa using List.find?_some h

/-! ## Walks -/

/-- A walk ends at a declaration that owns the group. -/
theorem owner_of_resolveFrom {start : Declaration} {chain : List String} (hd : d ∈ ds)
    (h : resolveFrom ds start chain d = .ok group) : ∃ e ∈ ds, e.layout = .owned group := by
  fun_induction resolveFrom ds start chain d with
  -- the walk ends at a declaration with its own registers
  | case1 chain d own hown =>
    have hgroup : own = group := Except.ok.inj h
    exact ⟨d, hd, hgroup ▸ hown⟩
  | case2 chain d parent hparent hlast => cases h
  | case3 chain d parent hparent next hlast hseen => cases h
  -- one step on, the rest of the walk ends at one
  | case4 chain d parent hparent next hlast hnew ih => exact ih (last?_mem hlast) h

/-- The group that a declaration has is one that some declaration owns. -/
theorem owner_of_resolve (hd : d ∈ ds) (h : resolve ds d = .ok group) :
    ∃ e ∈ ds, e.layout = .owned group :=
  owner_of_resolveFrom hd h

/-- One step of a walk that ends well: it is at its end, or goes on to a declaration that it has
    not met. -/
theorem resolveFrom_eq_ok_iff {start : Declaration} {chain : List String} :
    resolveFrom ds start chain d = .ok group
      ↔ d.layout = .owned group
        ∨ ∃ parent next, d.layout = .derived parent ∧ Declaration.last? ds parent = some next
          ∧ next.name ∉ chain ∧ resolveFrom ds start (chain ++ [next.name]) next = .ok group := by
  rw [resolveFrom]
  cases hl : d.layout with
  | owned own => simp
  | derived parent =>
    simp only [reduceCtorEq, false_or, Layout.derived.injEq, exists_and_left, exists_eq_left']
    split
    · next hlast => simp [hlast]
    · next next hlast =>
      rw [hlast]
      -- the next declaration must not be on the way already
      by_cases hseen : chain.contains next.name
      · rw [dif_pos hseen]
        simp_all
      · rw [dif_neg hseen]
        simp_all

/-- Walks that come to one declaration and end well give one group, whatever they have met on
    their ways. -/
theorem resolveFrom_unique {start start' : Declaration} {chain chain' : List String}
    {group' : String} (h : resolveFrom ds start chain d = .ok group)
    (h' : resolveFrom ds start' chain' d = .ok group') : group = group' := by
  fun_induction resolveFrom ds start chain d generalizing chain' with
  | case1 chain d own hown =>
    obtain hown' | ⟨parent, next, hparent, _⟩ := resolveFrom_eq_ok_iff.1 h'
    · exact (Except.ok.inj h).symm.trans (Layout.owned.inj (hown.symm.trans hown'))
    · cases hown.symm.trans hparent
  | case2 chain d parent hparent hlast => cases h
  | case3 chain d parent hparent next hlast hseen => cases h
  | case4 chain d parent hparent next hlast hnew ih =>
    obtain hown' | ⟨parent', next', hparent', hlast', _, hrest⟩ := resolveFrom_eq_ok_iff.1 h'
    · cases hparent.symm.trans hown'
    · -- both walks go to the declaration that the name of the parent stands for
      obtain rfl := Layout.derived.inj (hparent.symm.trans hparent')
      obtain rfl := Option.some.inj (hlast.symm.trans hlast')
      exact ih h hrest

/-- A declaration with a group of its own needs no walk. -/
theorem resolve_owned (h : d.layout = .owned group) : resolve ds d = .ok group := by
  rw [resolve, resolveFrom, h]

/-- A derived declaration has the group of what the name of its parent stands for. -/
theorem exists_last?_of_resolve {parent : String} (hl : d.layout = .derived parent)
    (h : resolve ds d = .ok group) :
    ∃ e, Declaration.last? ds parent = some e
      ∧ ∀ group', resolve ds e = .ok group' → group' = group := by
  obtain hown | ⟨parent', e, hparent, hlast, _, hrest⟩ := resolveFrom_eq_ok_iff.1 h
  · cases hl.symm.trans hown
  · obtain rfl := Layout.derived.inj (hl.symm.trans hparent)
    exact ⟨e, hlast, fun group' h' => resolveFrom_unique h' hrest⟩

/-! ## Linking -/

/-- A linked declaration has the group at the end of its walk and is otherwise as it was
    declared. -/
theorem gives_link {p : Peripheral} :
    (link ds d).Gives p ↔ resolve ds d = .ok p.group
      ∧ p.name = d.name ∧ p.parent = d.parent? ∧ p.base = d.base
      ∧ p.description = d.description := by
  -- a peripheral is given by its five fields, which are compared one by one
  obtain ⟨name, group, parent, base, description⟩ := p
  unfold link Declaration.parent?
  cases hl : d.layout with
  | owned own =>
    rw [resolve_owned hl]
    simp [eq_comm, and_left_comm]
  | derived parent =>
    simp only [Checked.gives_bind, Checked.gives_ofExcept, Checked.gives_note, Checked.gives_pure,
      true_and, exists_const, Peripheral.mk.injEq]
    constructor
    · intro h
      obtain ⟨own, hown, hname, hgroup, hparent, hbase, hdescription⟩ := h
      exact ⟨hgroup ▸ hown, hname.symm, hparent.symm, hbase.symm, hdescription.symm⟩
    · intro h
      obtain ⟨hown, hname, hparent, hbase, hdescription⟩ := h
      exact ⟨group, hown, hname.symm, rfl, hparent.symm, hbase.symm, hdescription.symm⟩

/-- The peripherals of a device are its declarations, one by one. -/
theorem gives_linkAll {ps : List Peripheral} :
    (linkAll ds).Gives ps ↔ List.Forall₂ (fun d p => (link ds d).Gives p) ds ps :=
  Checked.gives_mapM

/-- Every peripheral comes from a declaration. -/
theorem exists_declaration {ps : List Peripheral} (h : (linkAll ds).Gives ps) {p : Peripheral}
    (hp : p ∈ ps) : ∃ d ∈ ds, (link ds d).Gives p :=
  Checked.exists_of_mem_mapM h hp

/-- Linking keeps the names. -/
theorem map_name_of_linkAll {ps : List Peripheral} (h : (linkAll ds).Gives ps) :
    ps.map Peripheral.name = ds.map Declaration.name := by
  have hnames : List.Forall₂ (fun d p => Declaration.name d = Peripheral.name p) ds ps :=
    (gives_linkAll.1 h).imp fun _ _ hlink => (gives_link.1 hlink).2.1.symm
  have hmapped : List.Forall₂ (· = ·) (ds.map Declaration.name) (ps.map Peripheral.name) :=
    List.forall₂_map_left_iff.2 (List.forall₂_map_right_iff.2 hnames)
  rw [List.forall₂_eq_eq_eq] at hmapped
  exact hmapped.symm

/-- A name stands for a declaration that is linked to the last peripheral of the name. -/
theorem exists_last_of_linkAll {ps : List Peripheral} (h : (linkAll ds).Gives ps) {name : String}
    (hlast : Declaration.last? ds name = some d) :
    ∃ p, FirstWins.find? Peripheral.name ps.reverse name = some p ∧ (link ds d).Gives p :=
  FirstWins.exists_find?_of_forall₂ (List.forall₂_reverse_iff.2 (gives_linkAll.1 h))
    (fun _ _ hlink => (gives_link.1 hlink).2.1) hlast

/-- A peripheral with a parent comes from a declaration that is derived from it. -/
theorem layout_of_parent {p : Peripheral} (h : (link ds d).Gives p) {parent : String}
    (hparent : p.parent = some parent) : d.layout = .derived parent := by
  obtain ⟨_, _, hpd, _⟩ := gives_link.1 h
  rw [hparent, Declaration.parent?] at hpd
  split at hpd
  · cases hpd
  · next q hl => rw [hl, Option.some.inj hpd]

/-! ## Order -/

variable {ds' : List Declaration}

/-- A walk depends on the declarations only through what their names stand for. -/
theorem resolveFrom_congr (h : ∀ n, Declaration.last? ds' n = Declaration.last? ds n)
    (start : Declaration) (chain : List String) (d : Declaration) :
    resolveFrom ds' start chain d = resolveFrom ds start chain d := by
  fun_induction resolveFrom ds start chain d with
  | case1 chain d group hd => rw [resolveFrom, hd]
  | case2 chain d parent hd hlast =>
    rw [resolveFrom, hd]
    simp only
    split
    · rfl
    · next next hnext =>
      rw [h, hlast] at hnext
      cases hnext
  -- both ways lead to the same declaration, and both have been there before
  | case3 chain d parent hd next hlast hseen =>
    rw [resolveFrom, hd]
    simp only
    split
    · next hnone =>
      rw [h, hlast] at hnone
      cases hnone
    · next other hother =>
      rw [h, hlast] at hother
      rw [← Option.some.inj hother, dif_pos hseen]
  -- or it is new to both, and they go on in the same way
  | case4 chain d parent hd next hlast hnew ih =>
    rw [resolveFrom, hd]
    simp only
    split
    · next hnone =>
      rw [h, hlast] at hnone
      cases hnone
    · next other hother =>
      rw [h, hlast] at hother
      rw [← Option.some.inj hother, dif_neg hnew, ih]

/-- A declaration is linked by what the names on its way lead to, and by nothing else. -/
theorem link_congr (h : ∀ n, Declaration.last? ds' n = Declaration.last? ds n) (d : Declaration) :
    link ds' d = link ds d := by
  unfold link resolve
  simp only [resolveFrom_congr h]

/-- Declarations of different names are linked to the same peripherals in any order. -/
theorem gives_linkAll_perm {ps : List Peripheral} (hnodup : (ds.map Declaration.name).Nodup)
    (hperm : ds'.Perm ds) (h : (linkAll ds).Gives ps) :
    ∃ ps', (linkAll ds').Gives ps' ∧ ps'.Perm ps := by
  have hnodup' : (ds'.map Declaration.name).Nodup := (hperm.map _).nodup_iff.2 hnodup
  -- a name has one declaration only, so it does not matter which one is the last
  have hlast : ∀ n, Declaration.last? ds' n = Declaration.last? ds n := by
    intro n
    have hfind := FirstWins.find?_perm hnodup hperm n
    rwa [← FirstWins.find?_reverse_of_nodup hnodup, ← FirstWins.find?_reverse_of_nodup hnodup'] at hfind
  obtain ⟨ps', hps', hp⟩ := h.mapM_perm hperm
  refine ⟨ps', ?_, hp⟩
  unfold linkAll
  simpa only [funext (link_congr hlast)] using hps'

/-! ## Links that are cut -/

section Unlink

variable {before after : List Declaration}

/-- A declaration that is replaced by one without a parent is replaced wherever its name stands
    for it, and nothing else changes. -/
theorem last?_unlinked (before after : List Declaration) (d : Declaration) (group name : String) :
    Declaration.last? (before ++ d.unlinked group :: after) name
        = Declaration.last? (before ++ d :: after) name
      ∨ Declaration.last? (before ++ d :: after) name = some d
        ∧ Declaration.last? (before ++ d.unlinked group :: after) name
          = some (d.unlinked group) := by
  unfold Declaration.last?
  simp only [List.reverse_append, List.reverse_cons, List.append_assoc, List.find?_append]
  -- a later declaration of the name hides the one that is changed
  cases after.reverse.find? fun x => x.name == name with
  | some x => exact .inl rfl
  | none =>
    by_cases hname : d.name = name
    · exact .inr (by simp [Declaration.unlinked, hname])
    · exact .inl (by simp [Declaration.unlinked, hname])

/-- If a declaration names the group at the end of its walk, all other walks end as before: those
    that came through it now end there. -/
theorem resolveFrom_unlinked (hd : resolve (before ++ d :: after) d = .ok group)
    {start x : Declaration} {chain : List String} {own : String}
    (h : resolveFrom (before ++ d :: after) start chain x = .ok own) :
    resolveFrom (before ++ d.unlinked group :: after) start chain x = .ok own := by
  generalize hds : before ++ d :: after = ds at h
  fun_induction resolveFrom ds start chain x with
  | case1 chain x own' hown =>
    obtain rfl := Except.ok.inj h
    exact resolveFrom_eq_ok_iff.2 (.inl hown)
  | case2 chain x parent hparent hlast => cases h
  | case3 chain x parent hparent next hlast hseen => cases h
  | case4 chain x parent hparent next hlast hnew ih =>
    have hnew : next.name ∉ chain := by simpa using hnew
    subst hds
    rw [resolveFrom_eq_ok_iff]
    obtain hsame | ⟨hold, hunlinked⟩ := last?_unlinked before after d group parent
    · exact .inr ⟨parent, next, hparent, hsame.trans hlast, hnew, ih h⟩
    · -- the walk has come to the declaration itself, whose group is known
      obtain rfl := Option.some.inj (hold.symm.trans hlast)
      have hgroup : group = own := resolveFrom_unique hd h
      refine .inr ⟨parent, d.unlinked group, hparent, hunlinked, hnew, ?_⟩
      exact resolveFrom_eq_ok_iff.2 (.inl (hgroup ▸ rfl))

variable {p : Peripheral}

/-- Whatever a declaration is linked to, it still is after one on its way has been written out. -/
theorem link_unlinked (hd : resolve (before ++ d :: after) d = .ok group) {x : Declaration}
    (h : (link (before ++ d :: after) x).Gives p) :
    (link (before ++ d.unlinked group :: after) x).Gives p := by
  rw [gives_link] at h ⊢
  exact ⟨resolveFrom_unlinked hd h.1, h.2⟩

/-- If one of some linked declarations names its group, they are linked as before, but for its
    parent. -/
theorem linkAll_unlinked {ps : List Peripheral} (h : (linkAll (before ++ d :: after)).Gives ps)
    (hp : ps[before.length]? = some p) :
    (link (before ++ d :: after) d).Gives p
      ∧ (linkAll (before ++ d.unlinked p.group :: after)).Gives (ps.set before.length p.unlinked) := by
  -- the declarations in front and behind are linked as before, the one in the middle is written out
  obtain ⟨front, q, back, hfront, hq, hback, rfl⟩ := Checked.gives_mapM_middle.1 h
  have hlength := Checked.length_of_gives_mapM hfront
  have hqp : q = p := by simpa [← hlength] using hp
  subst hqp
  have hd : resolve (before ++ d :: after) d = .ok q.group := (gives_link.1 hq).1
  refine ⟨hq, Checked.gives_mapM_middle.2 ⟨front, q.unlinked, back, ?_, ?_, ?_, ?_⟩⟩
  · exact Checked.gives_mapM.2 ((Checked.gives_mapM.1 hfront).imp fun _ _ => link_unlinked hd)
  · -- the declaration itself has the group now that it was led to
    obtain ⟨_, hname, _, hbase, hdescription⟩ := gives_link.1 hq
    exact gives_link.2 ⟨resolve_owned rfl, hname, rfl, hbase, hdescription⟩
  · exact Checked.gives_mapM.2 ((Checked.gives_mapM.1 hback).imp fun _ _ => link_unlinked hd)
  · simp [← hlength]

end Unlink

end Alias
end RegisterMap
