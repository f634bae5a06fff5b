import RegisterMap.Notice

/-!
# Claiming names

The items that want to stand in one module of a listing, in order. An item is
either written or left out with exactly one notice. `claim` gives each name to
the first item that wants it, so that no module declares a name twice.

- `length_claim`: every item has a verdict
- `claim_cons_omitted`, `claim_cons_unnamed`, `claim_cons_taken`, `claim_cons_free`:
  the four cases of the next item
-/

namespace RegisterMap.Listing

/-! ## Verdicts -/

/-- What becomes of an item: what is written for it, or the notice that tells why it is
    left out. -/
inductive Verdict (α : Type) where
  | written (content : α)
  | omitted (notice : Notice)
  deriving Repr, DecidableEq

namespace Verdict

/-- What is written, if anything is. -/
def content? {α : Type} : Verdict α → Option α
  | written a => some a
  | omitted _ => none

/-- The notices on an item, given those on what is written for it. -/
def notices {α : Type} (inner : α → List Notice) : Verdict α → List Notice
  | written a => inner a
  | omitted n => [n]

/-- What is written has its content. -/
@[simp] theorem content?_written {α : Type} (a : α) : (written a).content? = some a := rfl

/-- What is omitted has none. -/
@[simp] theorem content?_omitted {α : Type} (n : Notice) :
    (omitted n : Verdict α).content? = none := rfl

end Verdict

/-! ## Items -/

/-- Something that wants to stand in a module: what notices call it, the name it takes
    there, and what is written for it. An item that declares nothing takes no name. -/
structure Item (α : Type) where
  label : String
  name : Option String
  content : α
  deriving Repr

/-- The verdicts on some items, given the names that are taken. An item whose name is
    taken, be it by an item before it, is left out. -/
def claim {α : Type} (taken : List String) : List (Verdict (Item α)) → List (Verdict α)
  | [] => []
  | .omitted n :: items => .omitted n :: claim taken items
  | .written item :: items =>
    match item.name with
    | none => .written item.content :: claim taken items
    | some name =>
      if taken.contains name then .omitted (.collision item.label name) :: claim taken items
      else .written item.content :: claim (name :: taken) items

/-! ## The next item -/

/-- An item that was omitted before claims no name. -/
theorem claim_cons_omitted {α : Type} (taken : List String) (n : Notice)
    (items : List (Verdict (Item α))) :
    claim taken (.omitted n :: items) = .omitted n :: claim taken items := rfl

/-- An item without a name is written wherever it stands, and claims none. -/
theorem claim_cons_unnamed {α : Type} (taken : List String) (label : String) (a : α)
    (items : List (Verdict (Item α))) :
    claim taken (.written ⟨label, none, a⟩ :: items) = .written a :: claim taken items := rfl

/-- An item whose name is taken is omitted, with a notice on the collision. -/
theorem claim_cons_taken {α : Type} {taken : List String} {name : String} (h : name ∈ taken)
    (label : String) (a : α) (items : List (Verdict (Item α))) :
    claim taken (.written ⟨label, some name, a⟩ :: items)
      = .omitted (.collision label name) :: claim taken items := by
  simp [claim, h]

/-- An item whose name is free is written, and takes it from the items behind. -/
theorem claim_cons_free {α : Type} {taken : List String} {name : String} (h : name ∉ taken)
    (label : String) (a : α) (items : List (Verdict (Item α))) :
    claim taken (.written ⟨label, some name, a⟩ :: items)
      = .written a :: claim (name :: taken) items := by
  simp [claim, h]

/-- Every item gets a verdict. -/
@[simp] theorem length_claim {α : Type} (taken : List String) (items : List (Verdict (Item α))) :
    (claim taken items).length = items.length := by
  fun_induction claim taken items <;> simp_all

end RegisterMap.Listing
