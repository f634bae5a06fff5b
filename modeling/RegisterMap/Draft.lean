import RegisterMap.Alias
import RegisterMap.Declared.Interrupt
import RegisterMap.Declared.Register

/-!
# Drafts

A device as far as its peripherals have been read, in the order of the
description: their declarations, the groups they have filled and the interrupts
they have declared. What a peripheral says about registers goes into its group
at once, so that a group is the common layout of all peripherals that fill it.
-/

namespace RegisterMap

open Xml (Element)

/-- What has been read from the peripherals so far. -/
structure Draft where
  declarations : List Declaration
  groups : List Group
  interrupts : List Interrupt

namespace Draft

/-- Nothing has been read. -/
def empty : Draft := ⟨[], [], []⟩

/-- The groups with the registers of one more peripheral. A derived peripheral has the
    layout of its parent, and its own registers are left out with a notice. -/
def fillGroups (groups : List Group) (d : Declaration) (registers : List Element)
    (loc : Location) : Checked (List Group) :=
  match d.layout with
  | .owned group => Group.fill group (Declared.addLayout loc registers) groups
  | .derived _ => do
    if !registers.isEmpty then Checked.note (.layoutIgnored loc)
    return groups

/-- The notices on the register clusters of a peripheral, which are left out. -/
def skippedClusters (e : Element) (loc : Location) : List Notice :=
  (e.nested "registers" "cluster").map fun c => .clusterSkipped loc (c.childText? "name")

/-- The draft with one more peripheral, the `i`-th. -/
def addPeripheral (draft : Draft) (e : Element) (i : Nat) : Checked Draft := do
  let loc := Location.device.child "peripheral" i none
  let d ← Declared.peripheral e loc
  let loc := loc.named d.name
  Checked.note (.baseAddress loc d.base)
  let interrupts ← Declared.addInterrupts loc draft.interrupts e
  let groups ← fillGroups draft.groups d (e.nested "registers" "register") loc
  Checked.noteAll (skippedClusters e loc)
  return ⟨draft.declarations ++ [d], groups, interrupts⟩

/-- The draft with the peripherals of a description. -/
def addPeripherals (draft : Draft) (e : Element) : Checked Draft :=
  (e.nested "peripherals" "peripheral").zipIdx.foldlM (fun draft (p, i) => draft.addPeripheral p i)
    draft

end Draft
end RegisterMap
