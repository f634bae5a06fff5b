import RegisterMap.Proofs.Alias
import RegisterMap.Proofs.Failing

/-!
# Walks along parents

A walk starts at a declaration and goes on from each derived declaration to the
one that the name of its parent stands for, for as long as one likes. Linking
follows walks up to the first name that they meet twice: a declaration is
linked if its walk has come to an owner of a group by then (`Ends`), and what
keeps it from one is the fault otherwise (`Breaks`).

- `resolve_eq_ok_iff`, `resolve_eq_error_iff`: a single declaration
- `not_owned_of_circular`: if no name is declared twice, then a walk that meets
  one twice never comes to an owner
- `linkAll_follows_walks`: all declarations
-/

namespace RegisterMap.Alias

variable {ds : List Declaration} {start d : Declaration} {chain : List String} {group : String}
  {f : Fault}

/-! ## Walks and how they end -/

/-- A walk along the parents: the names that it has met, that of its start included, and the
    declaration that it has come to. -/
inductive Walk (ds : List Declaration) (start : Declaration) : List String → Declaration → Prop
  | start : Walk ds start [start.name] start
  | next {chain : List String} {d e : Declaration} {parent : String} (h : Walk ds start chain d)
      (hparent : d.layout = .derived parent) (hlast : Declaration.last? ds parent = some e) :
      Walk ds start (chain ++ [e.name]) e

/-- The walk comes to a declaration that owns the group before it meets a name twice. -/
def Ends (ds : List Declaration) (start : Declaration) (group : String) : Prop :=
  ∃ chain d, Walk ds start chain d ∧ chain.Nodup ∧ d.layout = .owned group

/-- The walk comes to no such declaration, for the reason that the fault tells. -/
inductive Breaks (ds : List Declaration) (start : Declaration) : Fault → Prop
  /-- It comes to a declaration whose parent is not declared. -/
  | unknown {chain : List String} {d : Declaration} {parent : String} (h : Walk ds start chain d)
      (hnodup : chain.Nodup) (hparent : d.layout = .derived parent)
      (hlast : Declaration.last? ds parent = none) : Breaks ds start (.unknownParent d.name parent)
  /-- It comes to a declaration whose name it has met, after different names. -/
  | circular {chain : List String} {d : Declaration} (h : Walk ds start (chain ++ [d.name]) d)
      (hnodup : chain.Nodup) (hseen : d.name ∈ chain) :
      Breaks ds start (.circularDerivation start.name (chain ++ [d.name]))

/-- A walk has been at its start. -/
theorem Walk.start_mem (h : Walk ds start chain d) : start.name ∈ chain := by
  induction h with
  | start => exact List.mem_singleton_self _
  | next _ _ _ ih => exact List.mem_append_left _ ih

/-- The last step of a walk. -/
theorem Walk.exists_last (h : Walk ds start (chain ++ [d.name]) d) (hchain : chain ≠ []) :
    ∃ e parent, Walk ds start chain e ∧ e.layout = .derived parent
      ∧ Declaration.last? ds parent = some d := by
  generalize hnames : chain ++ [d.name] = names at h
  cases h with
  | start => exact absurd (by simpa using congrArg List.length hnames) hchain
  | @next before e _ parent hbefore hparent hlast =>
    obtain ⟨rfl, _⟩ := List.append_inj' hnames rfl
    exact ⟨e, parent, hbefore, hparent, hlast⟩

/-! ## Resolving a declaration -/

/-- A chain with one more name meets no name twice if it did not before and the name is new. -/
theorem nodup_append_name {name : String} : (chain ++ [name]).Nodup ↔ chain.Nodup ∧ name ∉ chain := by
  rw [← List.concat_eq_append, List.nodup_concat, and_comm]

/-- Resolving a declaration is resolving from any place on its walk, as long as no name has been
    met twice. -/
theorem resolve_eq_resolveFrom (h : Walk ds start chain d) (hnodup : chain.Nodup) :
    resolve ds start = resolveFrom ds start chain d := by
  induction h with
  | start => rfl
  | next h hparent hlast ih =>
    obtain ⟨hnodup, hnew⟩ := nodup_append_name.1 hnodup
    rw [ih hnodup, resolveFrom, hparent]
    simp only
    split
    · next hnone => cases hlast.symm.trans hnone
    · next next hnext =>
      obtain rfl := Option.some.inj (hlast.symm.trans hnext)
      -- a name that is new on the walk is no reason to stop
      rw [dif_neg (by simpa using hnew)]

/-- What is resolved from somewhere on a walk is where the walk ends. -/
theorem ends_of_resolveFrom (h : Walk ds start chain d) (hnodup : chain.Nodup)
    (hr : resolveFrom ds start chain d = .ok group) : Ends ds start group := by
  fun_induction resolveFrom ds start chain d with
  | case1 chain d own hown =>
    obtain rfl := Except.ok.inj hr
    exact ⟨chain, d, h, hnodup, hown⟩
  | case2 chain d parent hparent hlast => cases hr
  | case3 chain d parent hparent next hlast hseen => cases hr
  | case4 chain d parent hparent next hlast hnew ih =>
    -- the chain stays without repetition, or the walk would have failed
    exact ih (h.next hparent hlast) (nodup_append_name.2 ⟨hnodup, by simpa using hnew⟩) hr

/-- What fails there is where the walk breaks off. -/
theorem breaks_of_resolveFrom (h : Walk ds start chain d) (hnodup : chain.Nodup)
    (hr : resolveFrom ds start chain d = .error f) : Breaks ds start f := by
  fun_induction resolveFrom ds start chain d with
  | case1 chain d own hown => cases hr
  | case2 chain d parent hparent hlast =>
    obtain rfl := Except.error.inj hr
    -- no declaration has the name of the parent
    exact .unknown h hnodup hparent hlast
  | case3 chain d parent hparent next hlast hseen =>
    obtain rfl := Except.error.inj hr
    -- the parent has been on the walk before
    exact .circular (h.next hparent hlast) hnodup (by simpa using hseen)
  | case4 chain d parent hparent next hlast hnew ih =>
    exact ih (h.next hparent hlast) (nodup_append_name.2 ⟨hnodup, by simpa using hnew⟩) hr

/-- A declaration has the group at the end of its walk. -/
theorem resolve_eq_ok_iff : resolve ds d = .ok group ↔ Ends ds d group := by
  constructor
  · exact ends_of_resolveFrom .start (List.nodup_singleton _)
  · intro h
    obtain ⟨chain, e, hwalk, hnodup, howned⟩ := h
    rw [resolve_eq_resolveFrom hwalk hnodup, resolveFrom, howned]

/-- A declaration is refused for what breaks its walk. -/
theorem resolve_eq_error_iff : resolve ds d = .error f ↔ Breaks ds d f := by
  constructor
  · exact breaks_of_resolveFrom .start (List.nodup_singleton _)
  · intro h
    cases h with
    | unknown hwalk hnodup hparent hlast =>
      rw [resolve_eq_resolveFrom hwalk hnodup, resolveFrom, hparent]
      simp only
      split
      · rfl
      · next next hnext => cases hlast.symm.trans hnext
    | circular hwalk hnodup hseen =>
      -- the last step of the walk is the one that is refused
      obtain ⟨e, parent, hbefore, hparent, hlast⟩ := hwalk.exists_last (List.ne_nil_of_mem hseen)
      rw [resolve_eq_resolveFrom hbefore hnodup, resolveFrom, hparent]
      simp only
      split
      · next hnone => cases hlast.symm.trans hnone
      · next next hnext =>
        obtain rfl := Option.some.inj (hlast.symm.trans hnext)
        rw [dif_pos (by simpa using hseen)]

/-! ## Walks that go round -/

/-- If no name is declared twice, every declaration whose name a walk has met is derived from one
    whose name it has met, but for the one that it has come to. -/
theorem Walk.eq_or_exists_parent (h : Walk ds start chain d)
    (hdistinct : (ds.map Declaration.name).Nodup) (hstart : start ∈ ds) {x : Declaration}
    (hx : x ∈ ds) (hname : x.name ∈ chain) :
    x = d ∨ ∃ parent e, x.layout = .derived parent ∧ Declaration.last? ds parent = some e
      ∧ e.name ∈ chain := by
  -- different declarations have different names
  have hsame : ∀ y ∈ ds, x.name = y.name → x = y := fun y hy =>
    List.inj_on_of_nodup_map hdistinct hx hy
  induction h with
  | start => exact .inl (hsame start hstart (List.mem_singleton.1 hname))
  | @next chain d e parent h hparent hlast ih =>
    obtain hname | hname := List.mem_append.1 hname
    · -- all but the last one were left for their parent
      obtain rfl | ⟨parent', e', hparent', hlast', he'⟩ := ih hname
      · exact .inr ⟨parent, e, hparent, hlast, List.mem_append_right _ (List.mem_singleton_self _)⟩
      · exact .inr ⟨parent', e', hparent', hlast', List.mem_append_left _ he'⟩
    · exact .inl (hsame e (last?_mem hlast) (List.mem_singleton.1 hname))

/-- If no name is declared twice, then a walk that has come back to a name goes round for ever: it
    stays among the declarations that it has met, and all of them are derived. -/
theorem not_owned_of_circular (hdistinct : (ds.map Declaration.name).Nodup) (hstart : start ∈ ds)
    (h : Walk ds start (chain ++ [d.name]) d) (hseen : d.name ∈ chain) {names : List String}
    {e : Declaration} (he : Walk ds start names e) : e.layout ≠ .owned group := by
  obtain ⟨x, parent, hbefore, hparent, hlast⟩ := h.exists_last (List.ne_nil_of_mem hseen)
  -- the declarations on the circle lead to others on it
  have hclosed : ∀ y ∈ ds, y.name ∈ chain → ∃ parent z, y.layout = .derived parent
      ∧ Declaration.last? ds parent = some z ∧ z.name ∈ chain := by
    intro y hy hname
    obtain rfl | hderived := hbefore.eq_or_exists_parent hdistinct hstart hy hname
    · exact ⟨parent, d, hparent, hlast, hseen⟩
    · exact hderived
  -- so a walk from the start never leaves it
  have hmem : e ∈ ds ∧ e.name ∈ chain := by
    induction he with
    | start => exact ⟨hstart, hbefore.start_mem⟩
    | next _ hparent hlast ih =>
      obtain ⟨parent', z, hparent', hlast', hz⟩ := hclosed _ ih.1 ih.2
      obtain rfl := Layout.derived.inj (hparent.symm.trans hparent')
      obtain rfl := Option.some.inj (hlast.symm.trans hlast')
      exact ⟨last?_mem hlast, hz⟩
  obtain ⟨parent', _, hderived, _⟩ := hclosed e hmem.1 hmem.2
  rw [hderived]
  exact Layout.noConfusion

/-! ## Linking -/

/-- A declaration is linked if its walk ends. -/
theorem exists_gives_link : (∃ p, (link ds d).Gives p) ↔ ∃ group, Ends ds d group := by
  simp only [gives_link, resolve_eq_ok_iff]
  constructor
  · intro h
    obtain ⟨p, hends, _⟩ := h
    exact ⟨p.group, hends⟩
  · intro h
    obtain ⟨group, hends⟩ := h
    exact ⟨⟨d.name, group, d.parent?, d.base, d.description⟩, hends, rfl, rfl, rfl, rfl⟩

/-- A declaration with a group of its own needs no walk. -/
theorem ends_of_owned (h : d.layout = .owned group) : Ends ds d group :=
  resolve_eq_ok_iff.1 (resolve_owned h)

/-- A declaration cannot be linked for what breaks its walk. -/
theorem fails_link : (link ds d).Fails f ↔ Breaks ds d f := by
  rw [← resolve_eq_error_iff]
  unfold link
  cases hl : d.layout with
  | owned own => simp [resolve_owned hl]
  | derived parent => simp

/-- Linking follows the parents of every declaration. The declarations can be linked exactly if the
    walk of every derived one comes to an owner before it meets a name twice. Each of them is then
    as it was declared, under its immediate parent and with the group of the owner. Otherwise the
    first declaration whose walk breaks is to blame; if no name is declared twice and the walk goes
    round, then it never comes to an owner. -/
theorem linkAll_follows_walks (ds : List Declaration) :
    (∀ ps, (linkAll ds).Gives ps ↔ List.Forall₂ (fun d p => Ends ds d p.group
        ∧ p.name = d.name ∧ p.parent = d.parent? ∧ p.base = d.base
        ∧ p.description = d.description) ds ps)
      ∧ ((∃ ps, (linkAll ds).Gives ps)
          ↔ ∀ d ∈ ds, ∀ parent, d.layout = .derived parent → ∃ group, Ends ds d group)
      ∧ (∀ f, (linkAll ds).Fails f ↔ ∃ before d after, ds = before ++ d :: after
          ∧ (∀ x ∈ before, ∃ group, Ends ds x group) ∧ Breaks ds d f)
      ∧ ((ds.map Declaration.name).Nodup → ∀ name chain,
          (linkAll ds).Fails (.circularDerivation name chain) →
            ∃ before d after, ds = before ++ d :: after ∧ d.name = name
              ∧ (∀ x ∈ before, ∃ group, Ends ds x group)
              ∧ ∀ names e, Walk ds d names e → ∀ group, e.layout ≠ .owned group) := by
  -- the first declaration whose walk breaks off ends the linking
  have hfails : ∀ f, (linkAll ds).Fails f ↔ ∃ before d after, ds = before ++ d :: after
      ∧ (∀ x ∈ before, ∃ group, Ends ds x group) ∧ Breaks ds d f := by
    intro f
    rw [linkAll, Checked.fails_mapM]
    simp only [exists_gives_link, fails_link]
  refine ⟨fun ps => ?_, ?_, hfails, fun hdistinct name chain hcircular => ?_⟩
  · simp only [gives_linkAll, gives_link, resolve_eq_ok_iff]
  · rw [linkAll, Checked.exists_gives_mapM]
    simp only [exists_gives_link]
    refine forall₂_congr fun d _ => ⟨fun h parent _ => h, fun h => ?_⟩
    -- one that owns its group is at its end already
    cases hl : d.layout with
    | owned own => exact ⟨own, ends_of_owned hl⟩
    | derived parent => exact h parent hl
  · obtain ⟨before, d, after, hsplit, hbefore, hbreaks⟩ := (hfails _).1 hcircular
    have hd : d ∈ ds := hsplit ▸ List.mem_append_right _ List.mem_cons_self
    cases hbreaks with
    | circular hwalk _ hseen =>
      exact ⟨before, d, after, hsplit, rfl, hbefore, fun names e he group =>
        not_owned_of_circular hdistinct hd hwalk hseen he⟩

/-- A walk may go round although an owner of the name that it comes back to is declared last. -/
example : (linkAll [⟨"A", .derived "B", 0, none⟩, ⟨"B", .derived "A", 0, none⟩,
    ⟨"A", .owned "G", 0, none⟩]).Fails (.circularDerivation "A" ["A", "B", "A"]) := by
  decide +kernel

end RegisterMap.Alias
