import RegisterMap.Declared.Peripheral
import RegisterMap.Device

/-!
# Derived peripherals

A derived peripheral takes the group of its parent, which may be derived in its
turn and may be declared later. `resolve` follows the chain of parents until it
comes to a declaration that owns its group. A name stands for its last
declaration. A chain that meets a name twice is refused, which also bounds the
walk: the names on it are different names of declarations.
-/

namespace RegisterMap

/-- The last declaration of a name. -/
def Declaration.last? (ds : List Declaration) (name : String) : Option Declaration :=
  ds.reverse.find? fun d => d.name == name

namespace Alias

/-- The declarations whose names are not on a chain. -/
def unseen (ds : List Declaration) (chain : List String) : List Declaration :=
  ds.filter fun d => !chain.contains d.name

/-- What is found among the declarations is one of them. -/
theorem last?_mem {ds : List Declaration} {name : String} {d : Declaration}
    (h : Declaration.last? ds name = some d) : d ∈ ds :=
  List.mem_reverse.1 (List.mem_of_find?_eq_some h)

/-- A chain with one more name leaves unseen what it left before, but for that name. -/
theorem unseen_append (ds : List Declaration) (chain : List String) (name : String) :
    unseen ds (chain ++ [name]) = (unseen ds chain).filter fun d => d.name != name := by
  unfold unseen
  rw [List.filter_filter]
  refine List.filter_congr fun d _ => ?_
  by_cases h : d.name = name <;> simp [h]

/-- A chain that comes to a declaration it has not met leaves fewer unseen. -/
theorem length_unseen_lt {ds : List Declaration} {chain : List String} {d : Declaration}
    (hd : d ∈ ds) (hc : chain.contains d.name = false) :
    (unseen ds (chain ++ [d.name])).length < (unseen ds chain).length := by
  rw [unseen_append, List.length_filter_lt_length_iff_exists]
  exact ⟨d, List.mem_filter.2 ⟨hd, by simpa using hc⟩, by simp⟩

/-- The group of a declaration, at the end of a chain of parents that starts at `start`
    and has come to `current`. -/
def resolveFrom (ds : List Declaration) (start : Declaration) (chain : List String)
    (current : Declaration) : Except Fault String :=
  match current.layout with
  | .owned group => .ok group
  | .derived parent =>
    match _hn : Declaration.last? ds parent with
    | none => .error (.unknownParent current.name parent)
    | some next =>
      if _hc : chain.contains next.name then
        .error (.circularDerivation start.name (chain ++ [next.name]))
      else resolveFrom ds start (chain ++ [next.name]) next
termination_by (unseen ds chain).length
decreasing_by exact length_unseen_lt (last?_mem _hn) (by simpa using _hc)

/-- The group of a declaration. -/
def resolve (ds : List Declaration) (d : Declaration) : Except Fault String :=
  resolveFrom ds d [d.name] d

/-- A declaration as a peripheral of the device. -/
def link (ds : List Declaration) (d : Declaration) : Checked Peripheral :=
  match d.layout with
  | .owned group => pure ⟨d.name, group, none, d.base, d.description⟩
  | .derived parent => do
    let group ← Checked.ofExcept (resolve ds d)
    Checked.note (.groupDerived d.name group parent)
    return ⟨d.name, group, some parent, d.base, d.description⟩

/-- The peripherals that some declarations stand for. -/
def linkAll (ds : List Declaration) : Checked (List Peripheral) := ds.mapM (link ds)

end Alias
end RegisterMap
