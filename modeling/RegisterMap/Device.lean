import RegisterMap.FirstWins
import RegisterMap.Width
import RegisterMap.Word

/-!
# Devices

The register map of a device: its peripherals, the register groups that they
share, and its interrupt vectors. A register lies at an offset inside its group
and so at one address in every peripheral that uses the group. Look-ups by name
give the first entry of the name.
-/

namespace RegisterMap

/-! ## Registers -/

/-- How software may use a register. -/
inductive Access where
  | readOnly | writeOnly | readWrite
  deriving Repr, DecidableEq

/-- A run of bits of a register. -/
structure Field where
  name : String
  bitOffset : Nat
  bitWidth : Nat
  description : Option String
  deriving Repr, DecidableEq

/-- A register, at an offset from the base address of its peripherals. -/
structure Register where
  name : String
  offset : Nat
  access : Option Access
  description : Option String
  fields : List Field
  deriving Repr, DecidableEq

/-- The registers that one or more peripherals have in common. -/
structure Group where
  name : String
  registers : List Register
  deriving Repr, DecidableEq

/-- The register of a name. -/
def Group.register? (g : Group) (name : String) : Option Register :=
  FirstWins.find? Register.name g.registers name

/-! ## Peripherals and interrupts -/

/-- A peripheral. If it is derived, its group is that of its parent. -/
structure Peripheral where
  name : String
  group : String
  parent : Option String
  base : Nat
  description : Option String
  deriving Repr, DecidableEq

/-- An interrupt vector. Those that no peripheral declares are placeholders and not
    valid. -/
structure Interrupt where
  name : String
  number : Nat
  description : Option String
  valid : Bool
  deriving Repr, DecidableEq

/-- The entry of a vector that no peripheral declares. -/
def Interrupt.placeholder (number : Nat) : Interrupt :=
  ⟨"UNKNOWN", number, some "Unknown interrupt", false⟩

/-! ## Devices -/

/-- The register map of a device. -/
structure Device where
  name : Option String
  width : Width
  peripherals : List Peripheral
  groups : List Group
  interrupts : List Interrupt
  deriving Repr, DecidableEq

namespace Device

/-- The peripheral of a name. -/
def peripheral? (d : Device) (name : String) : Option Peripheral :=
  FirstWins.find? Peripheral.name d.peripherals name

/-- The group of a name. -/
def group? (d : Device) (name : String) : Option Group :=
  FirstWins.find? Group.name d.groups name

/-- The registers of a group, none if there is no such group. -/
def registersOf (d : Device) (group : String) : List Register :=
  match d.group? group with
  | some g => g.registers
  | none => []

/-- The address of a register in a peripheral, if a word holds it. -/
def registerAddress? (d : Device) (peripheral register : String) : Option Nat :=
  (d.peripheral? peripheral).bind fun p =>
    ((d.group? p.group).bind (·.register? register)).bind fun r => Word.add? p.base r.offset

end Device
end RegisterMap
