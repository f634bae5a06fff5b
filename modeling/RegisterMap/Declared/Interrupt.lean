import RegisterMap.Declared.Value
import RegisterMap.Vectors

/-!
# Declared interrupts

The interrupts that a peripheral declares. An interrupt of a name that another
declaration has used must have the same number, and the first one is kept.
-/

namespace RegisterMap.Declared

open Xml (Element)

/-- The text of a part that an interrupt must have. -/
def interruptPart (e : Element) (tag : String) (loc : Location) : Checked String :=
  Checked.require (e.childText? tag) (.missingInterruptPart loc tag)

/-- The number that a text stands for, if it has at most 32 bits. -/
def interruptNumber? (content : String) : Option Nat :=
  (Numeral.scalar? content).filter (· < 0x100000000)

/-- The interrupt that a declaration is. -/
def interrupt (e : Element) (loc : Location) : Checked Interrupt := do
  let name ← interruptPart e "name" loc
  let loc := loc.named name
  checkName name loc
  let value ← interruptPart e "value" loc
  let number ← Checked.require (interruptNumber? value) (.invalidInterruptNumber loc value)
  return ⟨name, number, description e, true⟩

/-- The interrupts with the one of a declaration. -/
def addInterrupt (loc : Location) (table : List Interrupt) (e : Element) :
    Checked (List Interrupt) := do
  Interrupt.merge loc table (← interrupt e loc)

/-- The interrupts with those that a peripheral declares. -/
def addInterrupts (loc : Location) (table : List Interrupt) (e : Element) :
    Checked (List Interrupt) :=
  (e.childrenNamed "interrupt").zipIdx.foldlM
    (fun table (d, i) => addInterrupt (loc.child "interrupt" i none) table d) table

end RegisterMap.Declared
