import RegisterMap.Declared.Field
import RegisterMap.Group

/-!
# Declared registers

The registers of a group. A declaration with a dimension stands for a row of
registers that differ in name and offset only. Registers of one name must have
the same offset in their group, and the first one is kept.
-/

namespace RegisterMap

/-- The access mode with a name. A register that can be written once is writable. -/
def Access.ofText? (text : String) : Option Access :=
  match Text.trim text with
  | "read-only" => some .readOnly
  | "write-only" => some .writeOnly
  | "writeOnce" => some .writeOnly
  | "read-write" => some .readWrite
  | "read-writeOnce" => some .readWrite
  | _ => none

namespace Declared

open Xml (Element)

/-- The access mode of a register; an unknown one is left out with a notice. -/
def access (e : Element) (loc : Location) : Checked (Option Access) :=
  match e.childText? "access" with
  | none => pure none
  | some content =>
    match Access.ofText? content with
    | some a => pure (some a)
    | none => do
      Checked.note (.unknownAccess loc content)
      return none

/-- The registers that a declaration stands for. -/
def registerRow (e : Element) (loc : Location) : Checked (List Register) := do
  let name ← text e "name" loc
  let loc := loc.named name
  let offset ← address e "addressOffset" loc
  let access ← access e loc
  let expansion ← Expansion.read e name offset loc
  if expansion = .row [] then Checked.note (.emptyDimension loc)
  let elements := expansion.instances name offset
  elements.forM fun i => checkName i.name loc
  let fields ← fields e loc
  return elements.map fun i => ⟨i.name, i.offset, access, description e, fields⟩

/-- A group with the registers of one more declaration. -/
def addRegisters (loc : Location) (g : Group) (e : Element) : Checked Group := do
  (← registerRow e loc).foldlM (Group.merge loc) g

/-- A group with the registers that a peripheral declares. -/
def addLayout (loc : Location) (registers : List Element) (g : Group) : Checked Group :=
  registers.zipIdx.foldlM (fun g (e, i) => addRegisters (loc.child "register" i none) g e) g

end Declared
end RegisterMap
