import RegisterMap.Draft
import RegisterMap.Xml.Document

/-!
# Compilation

From a description to the register map of its device. The address width is
checked first, then the peripherals are read in order, and only a description
that has been read to its end is linked: derived peripherals get the group of
their parents and the interrupts become a vector table.
-/

namespace RegisterMap

open Xml (Element)

/-- The address width that a description declares. -/
def Declared.width (e : Element) : Except Fault Width :=
  match e.childText? "width" with
  | none => .error .missingWidth
  | some content =>
    match (Numeral.scalar? content).bind Width.ofBits? with
    | none => .error (.invalidWidth content)
    | some width => .ok width

/-- The device that a draft describes once all peripherals have been read. -/
def Draft.finish (draft : Draft) (name : Option String) (width : Width) : Checked Device := do
  let peripherals ← Alias.linkAll draft.declarations
  let interrupts ← Interrupt.reconcile draft.interrupts
  Checked.note (.compiled peripherals.length draft.groups.length interrupts.length)
  return ⟨name, width, peripherals, draft.groups, interrupts⟩

namespace Device

/-- The device that the root element of a description describes. -/
def ofElement (e : Element) : Checked Device := do
  let width ← Checked.ofExcept (Declared.width e)
  let draft ← Draft.empty.addPeripherals e
  draft.finish (e.childText? "name") width

/-- The device that a text describes. -/
def ofText (text : String) : Checked Device := do
  ofElement (← Checked.require (Xml.Document.parse? text) .malformedDocument)

/-- The device that a file describes, given what reading the file gave. -/
def ofFile (path : String) (contents : Except FileFault String) : Checked Device := do
  let text ← Checked.ofExcept (contents.mapError (.unreadable path))
  Checked.note (.compiling path)
  ofText text

end Device
end RegisterMap
