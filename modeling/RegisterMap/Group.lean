import RegisterMap.Device
import RegisterMap.Checked

/-!
# Filling register groups

A register of a new name goes to the end of its group. One whose name is
present has to have the same offset, and is dropped.
-/

namespace RegisterMap

/-- What became of an entry that was accepted. -/
inductive Merge where
  | inserted | repeated
  deriving Repr, DecidableEq

namespace Group

/-- A group without registers. -/
def empty (name : String) : Group := ⟨name, []⟩

/-- The group with one more register. The location is blamed for a conflict. -/
def insert (g : Group) (r : Register) (loc : Location) : Except Fault (Merge × Group) :=
  match FirstWins.offer Register.name Register.offset g.registers r with
  | .added table => .ok (.inserted, { g with registers := table })
  | .repeated => .ok (.repeated, g)
  | .clash first => .error (.registerConflict loc g.name r.name first.offset r.offset)

/-- The group with one more register, and a notice if it had one of the name. -/
def merge (loc : Location) (g : Group) (r : Register) : Checked Group := do
  let (outcome, g') ← Checked.ofExcept (g.insert r (loc.named r.name))
  if outcome = .repeated then Checked.note (.registerRepeated g.name r.name)
  return g'

end Group

/-- Groups in the order of their first use, after a step that fills the group of a
    name. A group is created when it is first used. -/
def Group.fill (name : String) (step : Group → Checked Group) :
    List Group → Checked (List Group)
  | [] => do return [← step (Group.empty name)]
  | g :: gs =>
    if g.name = name then do return (← step g) :: gs
    else do return g :: (← Group.fill name step gs)

end RegisterMap
