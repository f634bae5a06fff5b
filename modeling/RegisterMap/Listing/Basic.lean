import RegisterMap.Device
import RegisterMap.Listing.Constant
import RegisterMap.Name
import RegisterMap.Selection

/-!
# Listings

A listing shows a device as modules of constants: the offsets of the registers
of every group, the addresses of the registers and the bit offsets of the
fields of every selected peripheral, and the numbers of the interrupts. It is
built as a tree of verdicts, which holds both what is written and what is left
out, and why.
-/

namespace RegisterMap

/-- What a listing shows of a device. -/
structure Options where
  /-- Whether the offsets of the register groups are shown. -/
  groups : Bool := true
  /-- Whether descriptions are shown. -/
  descriptions : Bool := true
  /-- The peripherals that are shown. -/
  selection : Selection := .all
  deriving Repr, DecidableEq

namespace Listing

/-! ## Parts -/

/-- A module that holds constants only. -/
structure Table where
  name : String
  constants : List (Verdict Constant)
  deriving Repr, DecidableEq

/-- What is shown of a register in a peripheral: its address, and the bit offsets of its
    fields if it has any. -/
structure RegisterEntry where
  address : Verdict Constant
  fields : Verdict (Option Table)
  deriving Repr, DecidableEq

/-- The module of a peripheral. -/
structure PeripheralModule where
  name : String
  description : Option String
  base : Verdict Constant
  registers : List RegisterEntry
  deriving Repr, DecidableEq

/-- What is shown of an interrupt vector: a constant, or a remark if it is unused. -/
inductive Vector where
  | constant (c : Constant)
  | placeholder (name : String) (number : Nat) (description : String)
  deriving Repr, DecidableEq

end Listing

/-- A device as modules of constants. The groups and the interrupts are absent if there
    is nothing to show in them. -/
structure Listing where
  device : Option String
  width : Width
  descriptions : Bool
  groups : Option (List (Listing.Verdict Listing.Table))
  peripherals : List (Listing.Verdict Listing.PeripheralModule)
  interrupts : Option (List (Listing.Verdict Listing.Vector))
  deriving Repr, DecidableEq

namespace Listing

/-! ## Groups -/

/-- The offset of a register in its group. -/
def offsetItem (w : Width) (group : String) (r : Register) : Verdict (Item Constant) :=
  Constant.item w (group ++ "." ++ r.name)
    ⟨Name.toConstant r.name, .address r.offset, r.description⟩

/-- The offsets of the registers of a group. -/
def Table.ofGroup (w : Width) (g : Group) : Table :=
  ⟨Name.toModule g.name, claim [] (g.registers.map (offsetItem w g.name))⟩

/-- A group as an item of the listing of all groups. -/
def groupItem (w : Width) (g : Group) : Verdict (Item Table) :=
  .written ⟨g.name, some (Name.toModule g.name), Table.ofGroup w g⟩

/-! ## Peripherals -/

/-- The bit offset of a field in its register. -/
def fieldItem (w : Width) (register : String) (f : Field) : Verdict (Item Constant) :=
  Constant.item w (register ++ "." ++ f.name)
    ⟨Name.toConstant f.name, .number f.bitOffset, f.description⟩

/-- The bit offsets of the fields of a register. -/
def Table.ofFields (w : Width) (r : Register) : Table :=
  ⟨Name.toModule r.name, claim [] (r.fields.map (fieldItem w r.name))⟩

/-- The fields of a register as an item of its peripheral. A register without fields
    takes no name. -/
def fieldsItem (w : Width) (r : Register) : Verdict (Item (Option Table)) :=
  if r.fields.isEmpty then .written ⟨r.name, none, none⟩
  else .written ⟨r.name, some (Name.toModule r.name), some (Table.ofFields w r)⟩

/-- The address of a register in a peripheral. -/
def addressItem (w : Width) (p : Peripheral) (r : Register) : Verdict (Item Constant) :=
  let label := p.name ++ "." ++ r.name
  match Word.add? p.base r.offset with
  | none => .omitted (.addressOverflow label)
  | some address => Constant.item w label ⟨Name.toConstant r.name, .address address, r.description⟩

/-- The name of the constant that holds the base address of a peripheral. -/
def baseName : String := "BASE_ADDRESS"

/-- The base address of a peripheral. A register of that name goes before it, even one
    that is left out itself. -/
def baseAddress (w : Width) (p : Peripheral) (registers : List Register) : Verdict Constant :=
  if registers.any fun r => Name.toConstant r.name == baseName then .omitted (.baseOmitted p.name)
  else within w p.name p.base ⟨baseName, .address p.base, none⟩

/-- What is shown of the registers of a peripheral. Addresses and fields are claimed apart
    from each other, because constants and modules may share a name. -/
def registerEntries (w : Width) (p : Peripheral) (registers : List Register) :
    List RegisterEntry :=
  List.zipWith RegisterEntry.mk (claim [] (registers.map (addressItem w p)))
    (claim [] (registers.map (fieldsItem w)))

/-- The module of a peripheral that has some registers. -/
def PeripheralModule.ofPeripheral (w : Width) (p : Peripheral) (registers : List Register) :
    PeripheralModule :=
  ⟨Name.toModule p.name, p.description, baseAddress w p registers, registerEntries w p registers⟩

/-- A peripheral as an item of the listing. -/
def peripheralItem (d : Device) (p : Peripheral) : Verdict (Item PeripheralModule) :=
  .written ⟨p.name, some (Name.toModule p.name),
    PeripheralModule.ofPeripheral d.width p (d.registersOf p.group)⟩

/-! ## Interrupts -/

/-- An interrupt as an item of the vector table. A placeholder takes no name. -/
def interruptItem (w : Width) (i : Interrupt) : Verdict (Item Vector) :=
  let name := Name.toConstant i.name
  within w i.name i.number <|
    if i.valid then ⟨i.name, some name, .constant ⟨name, .number i.number, i.description⟩⟩
    else ⟨i.name, none, .placeholder name i.number (i.description.getD "")⟩

/-! ## Devices -/

/-- The names of the modules that stand beside the peripherals, which no peripheral can
    have. -/
def reservedModules (d : Device) (o : Options) : List String :=
  (if o.groups && !d.groups.isEmpty then ["groups"] else [])
    ++ (if d.interrupts.isEmpty then [] else ["interrupts"])

end Listing

/-- The listing of a device. -/
def Device.listing (d : Device) (o : Options) : Listing where
  device := d.name
  width := d.width
  descriptions := o.descriptions
  groups :=
    if o.groups && !d.groups.isEmpty then
      some (Listing.claim [] (d.groups.map (Listing.groupItem d.width)))
    else none
  peripherals :=
    Listing.claim (Listing.reservedModules d o)
      ((d.peripherals.filter fun p => o.selection.admits p.name).map (Listing.peripheralItem d))
  interrupts :=
    if d.interrupts.isEmpty then none
    else some (Listing.claim [] (d.interrupts.map (Listing.interruptItem d.width)))

end RegisterMap
