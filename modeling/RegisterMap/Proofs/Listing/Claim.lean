import RegisterMap.Listing.Claim
import RegisterMap.Proofs.FirstWins

/-!
# Theory of claimed names

Claiming names is a table in which the first item of a name wins: what is
written is the first content of every name, less those whose name is reserved
(`contents_claim`). Items that declare nothing take no part in it
(`filterMap_contents_claim`). In a list of registers or fields an item that does
not fit leaves its name to the next one, so that a name leads to the first item
that fits (`Family.find?_contents_claim`).
-/

namespace RegisterMap.Listing

open FirstWins
open Checked (exists_split_cons)

variable {α : Type}

/-- What is written for some items. -/
def contents (vs : List (Verdict α)) : List α := vs.filterMap Verdict.content?

/-- Of no verdicts there are no contents. -/
@[simp] theorem contents_nil : contents ([] : List (Verdict α)) = [] := rfl

/-- What is written is among the contents. -/
@[simp] theorem contents_written (a : α) (vs : List (Verdict α)) :
    contents (.written a :: vs) = a :: contents vs := rfl

/-- What is omitted is not. -/
@[simp] theorem contents_omitted (n : Notice) (vs : List (Verdict α)) :
    contents (.omitted n :: vs) = contents vs := rfl

/-- The contents are what is written. -/
theorem mem_contents {a : α} {vs : List (Verdict α)} :
    a ∈ contents vs ↔ Verdict.written a ∈ vs := by
  rw [contents, List.mem_filterMap]
  constructor
  · intro h
    obtain ⟨v, hv, ha⟩ := h
    -- what is omitted has no content
    cases v with
    | written b => exact Option.some.inj ha ▸ hv
    | omitted n => cases ha
  · intro h
    exact ⟨_, h, rfl⟩

/-- Nothing is written that no item wants to be written. -/
theorem exists_item_of_mem_claim {taken : List String} {items : List (Verdict (Item α))} {a : α}
    (h : a ∈ contents (claim taken items)) : ∃ item ∈ contents items, item.content = a := by
  fun_induction claim taken items with
  | case1 => exact absurd h List.not_mem_nil
  | case2 taken n items ih => exact ih h
  | case3 taken item items hname ih =>
    obtain h | h := List.mem_cons.1 h
    · exact ⟨item, List.mem_cons_self, h.symm⟩
    · obtain ⟨i, hi, hia⟩ := ih h
      exact ⟨i, List.mem_cons_of_mem item hi, hia⟩
  -- an item whose name is taken is passed over
  | case4 taken item items name hname htaken ih =>
    obtain ⟨i, hi, hia⟩ := ih h
    exact ⟨i, List.mem_cons_of_mem item hi, hia⟩
  | case5 taken item items name hname hfree ih =>
    obtain h | h := List.mem_cons.1 h
    · exact ⟨item, List.mem_cons_self, h.symm⟩
    · obtain ⟨i, hi, hia⟩ := ih h
      exact ⟨i, List.mem_cons_of_mem item hi, hia⟩

/-- The name that an item takes, should it take one, is not taken, and no item of those in front of
    it wants it. -/
def Free (taken : List String) (before : List (Verdict (Item α))) (item : Item α) : Prop :=
  ∀ name, item.name = some name → name ∉ taken ∧ ∀ other ∈ contents before, other.name ≠ some name

/-- The first item is free if its name has not been taken before. -/
theorem free_nil {taken : List String} {item : Item α} :
    Free taken [] item ↔ ∀ name, item.name = some name → name ∉ taken := by
  simp [Free]

/-- It does not matter whether a name is taken from the start or wanted by the first item. -/
theorem free_cons_written {taken : List String} {before : List (Verdict (Item α))}
    {first item : Item α} :
    Free taken (.written first :: before) item ↔ Free (first.name.toList ++ taken) before item := by
  refine forall₂_congr fun name _ => ?_
  rw [contents_written, List.forall_mem_cons, List.mem_append, Option.mem_toList]
  tauto

/-- An item is written exactly if it is free to take its name. -/
theorem mem_contents_claim_iff {taken : List String} {items : List (Verdict (Item α))} {a : α} :
    a ∈ contents (claim taken items)
      ↔ ∃ before v after, items = before ++ v :: after
        ∧ ∃ item, v = .written item ∧ item.content = a ∧ Free taken before item := by
  fun_induction claim taken items with
  | case1 => simp
  | case2 taken n items ih =>
    rw [contents_omitted, ih, exists_split_cons]
    simp [Free]
  | case3 taken item items hname ih =>
    rw [contents_written, List.mem_cons, ih, exists_split_cons]
    simp [free_nil, free_cons_written, hname, eq_comm]
  | case4 taken item items name hname htaken ih =>
    -- the name of the first item is taken already, so that it takes no other one
    have hsame : ∀ before (other : Item α), Free (name :: taken) before other ↔ Free taken before other := by
      intro before other
      refine forall₂_congr fun n _ => ?_
      have hmem : n ∈ name :: taken ↔ n ∈ taken := by
        rw [List.mem_cons]
        exact or_iff_right_of_imp fun h => h ▸ List.contains_iff_mem.1 htaken
      rw [hmem]
    rw [contents_omitted, ih, exists_split_cons]
    simp_all [free_nil, free_cons_written]
  | case5 taken item items name hname hfree ih =>
    rw [contents_written, List.mem_cons, ih, exists_split_cons]
    simp_all [free_nil, free_cons_written, eq_comm]

/-- If the items that hold a part take the name of that part, and the others take none, then
    the first part of every name is written, unless the name is taken before. -/
theorem filterMap_contents_claim {β : Type} {part : α → Option β} {nameOf : β → String}
    {taken : List String} {items : List (Verdict (Item α))}
    (h : ∀ item ∈ contents items, item.name = (part item.content).map nameOf) :
    (contents (claim taken items)).filterMap part
      = (firsts nameOf (((contents items).map Item.content).filterMap part)).filter
          fun b => !taken.contains (nameOf b) := by
  fun_induction claim taken items with
  | case1 => rfl
  | case2 taken n items ih => exact ih h
  | case3 taken item items hname ih =>
    have hnone : part item.content = none := by
      have hitem := h item List.mem_cons_self
      rwa [hname, eq_comm, Option.map_eq_none_iff] at hitem
    rw [contents_written, contents_written, List.map_cons, List.filterMap_cons_none hnone,
      List.filterMap_cons_none hnone, ih fun i hi => h i (List.mem_cons_of_mem item hi)]
  | case4 taken item items name hname htaken ih =>
    have hitem := h item List.mem_cons_self
    rw [hname, eq_comm, Option.map_eq_some_iff] at hitem
    obtain ⟨b, hb, hbname⟩ := hitem
    subst hbname
    rw [contents_omitted, ih fun i hi => h i (List.mem_cons_of_mem item hi), contents_written,
      List.map_cons, List.filterMap_cons_some hb, firsts,
      List.filter_cons_of_neg (by simpa using htaken), List.filter_filter]
    -- parts of the taken name are left out in either way
    apply List.filter_congr
    intro a _
    by_cases ha : nameOf a = nameOf b
    · rw [ha, htaken]
      rfl
    · simp [ha]
  | case5 taken item items name hname hfree ih =>
    have hitem := h item List.mem_cons_self
    rw [hname, eq_comm, Option.map_eq_some_iff] at hitem
    obtain ⟨b, hb, hbname⟩ := hitem
    subst hbname
    rw [contents_written, List.filterMap_cons_some hb,
      ih fun i hi => h i (List.mem_cons_of_mem item hi), contents_written, List.map_cons,
      List.filterMap_cons_some hb, firsts, List.filter_cons_of_pos (by simpa using hfree),
      List.filter_filter]
    refine congrArg _ (List.filter_congr fun a _ => ?_)
    rw [List.contains_cons, Bool.not_or, Bool.and_comm]
    rfl

/-- If every item takes the name of its content, then the first content of every name is
    written, unless the name is taken before. -/
theorem contents_claim {nameOf : α → String} {taken : List String}
    {items : List (Verdict (Item α))}
    (h : ∀ item ∈ contents items, item.name = some (nameOf item.content)) :
    contents (claim taken items)
      = (firsts nameOf ((contents items).map Item.content)).filter
          fun a => !taken.contains (nameOf a) := by
  have hpart : (contents (claim taken items)).filterMap some
      = (firsts nameOf (((contents items).map Item.content).filterMap some)).filter
          fun a => !taken.contains (nameOf a) := filterMap_contents_claim h
  rwa [List.filterMap_some, List.filterMap_some] at hpart

/-! ## Families of items -/

/-- The items of a family, each of which is written under the name of its content if it fits,
    and is left out otherwise. -/
structure Family {ι : Type} (nameOf : α → String) (content : ι → α) (fits : ι → Prop)
    (item : ι → Verdict (Item α)) : Prop where
  written : ∀ i, fits i →
    ∃ label, item i = .written ⟨label, some (nameOf (content i)), content i⟩
  omitted : ∀ i, ¬ fits i → ∃ notice, item i = .omitted notice

namespace Family

variable {ι : Type} {nameOf : α → String} {content : ι → α} {fits : ι → Prop} [DecidablePred fits]
  {item : ι → Verdict (Item α)}

/-- The contents of the items of a family are those of the members that fit. -/
theorem map_content_items (h : Family nameOf content fits item) (is : List ι) :
    (contents (is.map item)).map Item.content = (is.filter (fits ·)).map content := by
  induction is with
  | nil => rfl
  | cons i is ih =>
    -- a member that does not fit makes an item that is omitted
    by_cases hi : fits i
    · obtain ⟨label, hitem⟩ := h.written i hi
      rw [List.map_cons, hitem, contents_written, List.map_cons, ih,
        List.filter_cons_of_pos (by simpa using hi), List.map_cons]
    · obtain ⟨notice, hitem⟩ := h.omitted i hi
      rw [List.map_cons, hitem, contents_omitted, ih,
        List.filter_cons_of_neg (by simpa using hi)]

/-- The items that are written have the names of their contents. -/
theorem name_of_mem (h : Family nameOf content fits item) {is : List ι} :
    ∀ x ∈ contents (is.map item), x.name = some (nameOf x.content) := by
  intro x hx
  obtain ⟨i, _, hi⟩ := List.mem_map.1 (mem_contents.1 hx)
  -- only an item that fits is written
  by_cases hfits : fits i
  · obtain ⟨label, hitem⟩ := h.written i hfits
    rw [hi] at hitem
    rw [Verdict.written.inj hitem]
  · obtain ⟨notice, hitem⟩ := h.omitted i hfits
    rw [hi] at hitem
    cases hitem

/-- What is written for a family are the contents that fit, the first one of every name. -/
theorem contents_claim (h : Family nameOf content fits item) (is : List ι) :
    contents (claim [] (is.map item)) = firsts nameOf ((is.filter (fits ·)).map content) := by
  rw [Listing.contents_claim h.name_of_mem, h.map_content_items]
  exact List.filter_eq_self.2 fun a _ => rfl

/-- A name leads to the first member of the family with that name that fits. -/
theorem find?_contents_claim (h : Family nameOf content fits item) (is : List ι) (n : String) :
    find? nameOf (contents (claim [] (is.map item))) n
      = (is.find? fun i => nameOf (content i) = n ∧ fits i).map content := by
  rw [h.contents_claim, find?_firsts, find?, List.find?_map, List.find?_filter]
  congr 2
  funext i
  simp [and_comm]

end Family

end RegisterMap.Listing
