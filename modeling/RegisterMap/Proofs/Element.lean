import RegisterMap.Proofs.Blank
import RegisterMap.Xml.Element

/-!
# Edits of elements

An element in which one child has been replaced by some others of its name has
the same children of all other names (`Replaced.sameBut`), and in the list of
those of this name the others stand where the child was
(`Replaced.exists_childrenNamed`). Replacements inside a child element are seen
by `nested` if that child is the first one of its name, and not at all
otherwise (`Inside.nested`). New elements are made by `restated`, which says
some things anew and keeps the rest, and by `cut`, which ends a list of nested
elements early.
-/

namespace RegisterMap.Xml.Element

variable {e e' : Element} {tag t container : String} {P : Element → List Element → Prop}

/-! ## Elements that differ in the children of one name -/

section Congruence

variable (h : e'.childrenNamed t = e.childrenNamed t)
include h

/-- Elements that differ in other tags only have the same first child of a tag. -/
theorem child?_congr : e'.child? t = e.child? t := by
  unfold child?
  rw [h]

/-- They have the same text in it. -/
theorem childText?_congr : e'.childText? t = e.childText? t := by
  unfold childText?
  rw [child?_congr h]

/-- They have the same declarations in it. -/
theorem nested_congr (inner : String) : e'.nested t inner = e.nested t inner := by
  unfold nested
  rw [child?_congr h]

end Congruence

/-- What is read from a child element has no blanks at its ends. -/
theorem isTrimmed_childText? {content : String} (h : e.childText? t = some content) :
    Text.IsTrimmed content.toList := by
  obtain ⟨text, _, rfl⟩ := Option.map_eq_some_iff.1 h
  exact Text.isTrimmed_trim text

/-- The two elements may differ in the children named `tag`, and in texts. -/
structure SameBut (tag : String) (e e' : Element) : Prop where
  attributes : e'.attributes = e.attributes
  childrenNamed : ∀ t, t ≠ tag → e'.childrenNamed t = e.childrenNamed t

namespace SameBut

variable (h : SameBut tag e e')
include h

/-- The attributes are not changed. -/
theorem attribute? (name : String) : e'.attribute? name = e.attribute? name := by
  unfold Element.attribute?
  rw [h.attributes]

/-- A text of another tag is the same. -/
theorem childText? (ht : t ≠ tag) : e'.childText? t = e.childText? t :=
  childText?_congr (h.childrenNamed t ht)

end SameBut

/-! ## Replacements -/

/-- One child named `tag` has been replaced by some others of that name, which `P` allows in
    its place. -/
inductive Replaced (tag : String) (P : Element → List Element → Prop) : Element → Element → Prop
  | child {name : String} {attributes : List Attribute} {before after : List Node} {c : Element}
      {cs : List Element} (hP : P c cs) (hc : c.name = tag) (hcs : ∀ x ∈ cs, x.name = tag) :
      Replaced tag P ⟨name, attributes, before ++ c.node :: after⟩
        ⟨name, attributes, before ++ cs.map node ++ after⟩

/-- One child for another. -/
def Single (R : Element → Element → Prop) (c : Element) (cs : List Element) : Prop :=
  ∃ c', cs = [c'] ∧ R c c'

/-- Inside one child named `container`, a child named `tag` has been replaced. -/
def Inside (container tag : String) (P : Element → List Element → Prop) : Element → Element → Prop :=
  Replaced container (Single (Replaced tag P))

/-- The elements of the nodes of elements are those elements. -/
theorem filterMap_element?_map_node (cs : List Element) :
    (cs.map node).filterMap Node.element? = cs := by
  rw [List.filterMap_map]
  exact List.filterMap_some

/-- A replacement is seen in the children of its name only. -/
theorem Replaced.sameBut (h : Replaced tag P e e') : SameBut tag e e' := by
  cases h with
  | @child _ _ before after c cs hP hc hcs =>
    refine ⟨rfl, ?_⟩
    intro t ht
    -- neither the child nor what stands in its place has the other tag
    have hc : (c.name == t) = false := by simpa [hc] using ht.symm
    have hcs : cs.filter (fun x => x.name == t) = [] := by
      rw [List.filter_eq_nil_iff]
      intro x hx
      simpa [hcs x hx] using ht.symm
    simp only [childrenNamed, List.filterMap_append, List.filter_append,
      filterMap_element?_map_node, hcs, List.append_nil, List.filterMap_cons, element?_node]
    simp [hc]

/-- A change inside a container is seen in its tag only. -/
theorem Inside.sameBut (h : Inside container tag P e e') : SameBut container e e' :=
  Replaced.sameBut h

/-- Among the children of its name a replacement is seen at one place. -/
theorem Replaced.exists_childrenNamed (h : Replaced tag P e e') :
    ∃ before c cs after, P c cs ∧ e.childrenNamed tag = before ++ c :: after
      ∧ e'.childrenNamed tag = before ++ cs ++ after := by
  cases h with
  | @child _ _ before after c cs hP hc hcs =>
    -- all that stands in the place of the child has its tag
    have hall : cs.filter (fun x => x.name == tag) = cs :=
      List.filter_eq_self.2 fun x hx => by simp [hcs x hx]
    refine ⟨(before.filterMap Node.element?).filter (·.name == tag), c, cs,
      (after.filterMap Node.element?).filter (·.name == tag), hP, ?_, ?_⟩
    · simp only [childrenNamed, List.filterMap_append, List.filter_append, List.filterMap_cons,
        element?_node]
      rw [List.filter_cons_of_pos (by simp [hc])]
    · simp only [childrenNamed, List.filterMap_append, List.filter_append,
        filterMap_element?_map_node, hall]

/-- A replacement inside a child element is seen at one place of what is nested there, or not at
    all if the child is not the first one of its name. -/
theorem Inside.nested (h : Inside container tag P e e') :
    e'.nested container tag = e.nested container tag
      ∨ ∃ before c cs after, P c cs ∧ e.nested container tag = before ++ c :: after
        ∧ e'.nested container tag = before ++ cs ++ after := by
  obtain ⟨before, c, _, after, ⟨c', rfl, hc⟩, he, he'⟩ := Replaced.exists_childrenNamed h
  unfold Element.nested child?
  rw [he, he']
  cases before with
  | nil => exact .inr hc.exists_childrenNamed
  | cons first before => exact .inl rfl

/-! ## New elements -/

/-- An element that consists of a text. -/
def leaf (name content : String) : Element := ⟨name, [], [.text content]⟩

/-- Whether a node is anything but an element with one of some names. -/
def isOther (tags : List String) (n : Node) : Bool := n.element?.all fun c => !tags.contains c.name

/-- The element with some things said anew, each in a child of its own in front of the others,
    and without the children of some further names. -/
def restated (e : Element) (texts : List (String × String)) (dropped : List String) : Element :=
  { e with
    children := texts.map (fun x => (leaf x.1 x.2).node)
      ++ e.children.filter (isOther (texts.map Prod.fst ++ dropped)) }

section Restated

variable {texts : List (String × String)} {dropped : List String}

/-- Without the children of some tags, those of all other tags are left. -/
theorem childrenNamed_filter_isOther (ns : List Node) (tags : List String) :
    ((ns.filter (isOther tags)).filterMap Node.element?).filter (·.name == t)
      = if t ∈ tags then [] else (ns.filterMap Node.element?).filter (·.name == t) := by
  induction ns with
  | nil => simp
  | cons n ns ih =>
    cases hn : n.element? with
    | none => simp [isOther, hn, ih]
    | some c => by_cases hc : c.name ∈ tags <;> by_cases hct : c.name = t <;> simp_all [isOther]

/-- The children of a name are those that say it anew, and for all other names as they were. -/
theorem childrenNamed_restated :
    (e.restated texts dropped).childrenNamed t
      = ((texts.filter fun x => x.1 == t).map fun x => leaf x.1 x.2)
        ++ if t ∈ texts.map Prod.fst ++ dropped then [] else e.childrenNamed t := by
  -- the new children are leaves, which hold themselves
  have hmap : texts.map (fun x => (leaf x.1 x.2).node) = (texts.map fun x => leaf x.1 x.2).map node := by
    rw [List.map_map]
    rfl
  unfold restated childrenNamed
  simp only [hmap, List.filterMap_append, List.filter_append, filterMap_element?_map_node,
    childrenNamed_filter_isOther, List.filter_map]
  rfl

/-- A tag that is not restated has no text among the restated ones. -/
private theorem filter_texts_eq_nil (ht : t ∉ texts.map Prod.fst) :
    texts.filter (fun x => x.1 == t) = [] := by
  rw [List.filter_eq_nil_iff]
  intro x hx hxt
  exact ht (List.mem_map.2 ⟨x, hx, by simpa using hxt⟩)

/-- Children of a tag that is not touched stay. -/
theorem childrenNamed_restated_of_not_mem (ht : t ∉ texts.map Prod.fst) (hd : t ∉ dropped) :
    (e.restated texts dropped).childrenNamed t = e.childrenNamed t := by
  rw [childrenNamed_restated, filter_texts_eq_nil ht, if_neg (by simp_all)]
  rfl

/-- Children of a tag that is dropped are gone. -/
theorem childrenNamed_restated_of_dropped (ht : t ∉ texts.map Prod.fst) (hd : t ∈ dropped) :
    (e.restated texts dropped).childrenNamed t = [] := by
  rw [childrenNamed_restated, filter_texts_eq_nil ht, if_pos (List.mem_append_right _ hd)]
  rfl

/-- What is said anew is read, without the blanks at its ends. -/
theorem childText?_restated {content : String}
    (h : texts.find? (fun x => x.1 == t) = some (t, content)) :
    (e.restated texts dropped).childText? t = some (Text.trim content) := by
  -- the new children stand before the old ones
  have hhead : ((texts.filter fun x => x.1 == t).map fun x => leaf x.1 x.2).head?
      = some (leaf t content) := by
    rw [List.head?_map, List.head?_filter, h]
    rfl
  unfold childText? child?
  rw [childrenNamed_restated, List.head?_append, hhead]
  rfl

end Restated

/-! ## Cuts -/

/-- The parts of an element without its children of a name behind the first `n`. -/
def takeNamed (tag : String) (n : Nat) : List Node → List Node
  | [] => []
  | node :: nodes =>
    if node.element?.any (·.name == tag) then
      match n with
      | 0 => takeNamed tag 0 nodes
      | n + 1 => node :: takeNamed tag n nodes
    else node :: takeNamed tag n nodes

/-- The parts of an element after a change to those of its first child of a name. -/
def modifyFirst (container : String) (change : List Node → List Node) : List Node → List Node
  | [] => []
  | node :: nodes =>
    match node.element? with
    | none => node :: modifyFirst container change nodes
    | some c =>
      if c.name = container then ({ c with children := change c.children } : Element).node :: nodes
      else node :: modifyFirst container change nodes

/-- The element without those nested elements of a name that stand behind the first `n`. -/
def cut (e : Element) (container tag : String) (n : Nat) : Element :=
  { e with children := modifyFirst container (takeNamed tag n) e.children }

section Cut

variable {n : Nat}

/-- The first declarations of a tag are kept, and the ones behind them are not. -/
theorem filter_takeNamed (ns : List Node) :
    ((takeNamed tag n ns).filterMap Node.element?).filter (·.name == tag)
      = ((ns.filterMap Node.element?).filter (·.name == tag)).take n := by
  fun_induction takeNamed tag n ns with
  | case1 n => simp
  | case2 node nodes hnamed ih =>
    obtain ⟨c, hc, hname⟩ := (Option.any_eq_true _ _).1 hnamed
    simpa [hc, hname] using ih
  | case3 node nodes hnamed n ih =>
    obtain ⟨c, hc, hname⟩ := (Option.any_eq_true _ _).1 hnamed
    -- one of the declarations that may stay
    simpa [hc, hname] using ih
  | case4 n node nodes hnamed ih =>
    cases hc : node.element? with
    | none => simpa [hc] using ih
    | some c =>
      have hname : (c.name == tag) = false := by simpa [hc] using hnamed
      simpa [hc, hname] using ih

/-- The first container is the one that is changed. -/
theorem head?_modifyFirst (change : List Node → List Node) (ns : List Node) :
    (((modifyFirst container change ns).filterMap Node.element?).filter (·.name == container)).head?
      = ((ns.filterMap Node.element?).filter (·.name == container)).head?.map
          fun c => { c with children := change c.children } := by
  fun_induction modifyFirst container change ns with
  | case1 => rfl
  | case2 node nodes hnone ih => simpa [hnone] using ih
  | case3 node nodes c hc hname => simp [hc, hname]
  | case4 node nodes c hc hname ih => simpa [hc, hname] using ih

/-- Children of another tag are not touched. -/
theorem filter_modifyFirst_of_ne (ht : t ≠ container) (change : List Node → List Node)
    (ns : List Node) :
    ((modifyFirst container change ns).filterMap Node.element?).filter (·.name == t)
      = (ns.filterMap Node.element?).filter (·.name == t) := by
  fun_induction modifyFirst container change ns with
  | case1 => rfl
  | case2 node nodes hnone ih => simpa [hnone] using ih
  | case3 node nodes c hc hname =>
    -- the container is changed, but it is not one of the children that are sought
    have hne : (c.name == t) = false := by simpa [hname] using ht.symm
    simp [hc, hne]
  | case4 node nodes c hc hname ih => simp only [List.filterMap_cons, hc, List.filter_cons, ih]

/-- Of the nested elements the first ones are left. -/
theorem nested_cut : (e.cut container tag n).nested container tag = (e.nested container tag).take n := by
  unfold nested child? childrenNamed cut
  rw [head?_modifyFirst]
  cases ((e.children.filterMap Node.element?).filter (·.name == container)).head? with
  | none => exact List.take_nil.symm
  | some c => exact filter_takeNamed c.children

/-- Texts in children of other names are left as they are. -/
theorem childText?_cut (ht : t ≠ container) : (e.cut container tag n).childText? t = e.childText? t :=
  childText?_congr (filter_modifyFirst_of_ne ht _ _)

end Cut

end RegisterMap.Xml.Element
