import RegisterMap.Listing.Basic
import RegisterMap.Listing.Line

/-!
# The text of a listing

A listing is read off in two ways, both in the order of its parts: as the lines
that are written (`Listing.lines`) and as the notices on what is left out
(`Listing.notices`).
-/

namespace RegisterMap.Listing

/-! ## Lines -/

/-- The lines of an item, given those of what is written for it. -/
def Verdict.lines {α : Type} (inner : α → List Line) : Verdict α → List Line
  | written a => inner a
  | omitted _ => []

/-- The line of a description, if there is one. -/
def docLines (depth : Nat) : Option String → List Line
  | none => []
  | some description => [.doc depth description]

/-- The lines of a constant. -/
def Constant.lines (w : Width) (depth : Nat) (c : Constant) : List Line :=
  docLines depth c.description ++ [.constant depth c.name w c.literal]

/-- A module around some lines. -/
def enclose (depth : Nat) (name : String) (body : List Line) : List Line :=
  .start depth name :: body ++ [.stop depth]

/-- The lines of a module of constants. -/
def Table.lines (w : Width) (depth : Nat) (t : Table) : List Line :=
  enclose depth t.name (t.constants.flatMap (Verdict.lines (Constant.lines w (depth + 1))))

/-- The lines of a register: its address and the module of its fields. -/
def RegisterEntry.lines (w : Width) (e : RegisterEntry) : List Line :=
  e.address.lines (Constant.lines w 1)
    ++ e.fields.lines fun fields => fields.toList.flatMap (Table.lines w 1)

/-- The lines of a peripheral. -/
def PeripheralModule.lines (w : Width) (p : PeripheralModule) : List Line :=
  docLines 0 p.description
    ++ enclose 0 p.name
      (p.base.lines (Constant.lines w 1) ++ p.registers.flatMap (RegisterEntry.lines w))

/-- The lines of an interrupt vector. -/
def Vector.lines (w : Width) : Vector → List Line
  | constant c => c.lines w 1
  | placeholder name number description => [.placeholder 1 name w number description]

/-- The lines of the module of all groups. -/
def groupLines (w : Width) (groups : List (Verdict Table)) : List Line :=
  enclose 0 "groups"
    (.about 1 "Register offsets relative to the base address of each peripheral."
      :: groups.flatMap (Verdict.lines (Table.lines w 1)))

/-- The lines of the module of the interrupt vectors. -/
def interruptLines (w : Width) (vectors : List (Verdict Vector)) : List Line :=
  enclose 0 "interrupts" (vectors.flatMap (Verdict.lines (Vector.lines w)))

/-- The lines at the top of a listing. -/
def banner (device : Option String) : List Line :=
  [.remark ("Register and interrupt constants for " ++ device.getD "device" ++ "."),
    .remark "Generated file, do not edit."]

/-- The lines of a listing with all descriptions. Every module at the top follows a blank
    line. -/
def describedLines (l : Listing) : List Line :=
  banner l.device
    ++ l.groups.toList.flatMap (fun groups => .blank :: groupLines l.width groups)
    ++ l.peripherals.flatMap (Verdict.lines fun p => .blank :: p.lines l.width)
    ++ l.interrupts.toList.flatMap (fun vectors => .blank :: interruptLines l.width vectors)

/-- The lines of a listing. -/
def lines (l : Listing) : List Line :=
  l.describedLines.filter fun line => l.descriptions || !line.isDoc

/-- The text of a listing. Every line ends in a line break. -/
def text (l : Listing) : String := String.join (l.lines.map fun line => line.text ++ "\n")

/-! ## Notices -/

/-- The notices on the constants of a module. -/
def Table.notices (t : Table) : List Notice :=
  t.constants.flatMap (Verdict.notices fun _ => [])

/-- The notices on a register and its fields. -/
def RegisterEntry.notices (e : RegisterEntry) : List Notice :=
  e.address.notices (fun _ => [])
    ++ e.fields.notices fun fields => fields.toList.flatMap Table.notices

/-- The notices on a peripheral. -/
def PeripheralModule.notices (p : PeripheralModule) : List Notice :=
  p.base.notices (fun _ => []) ++ p.registers.flatMap RegisterEntry.notices

/-- The notices on what a listing leaves out. -/
def notices (l : Listing) : List Notice :=
  l.groups.toList.flatMap (·.flatMap (Verdict.notices Table.notices))
    ++ l.peripherals.flatMap (Verdict.notices PeripheralModule.notices)
    ++ l.interrupts.toList.flatMap (·.flatMap (Verdict.notices fun _ => []))

end RegisterMap.Listing
