import RegisterMap.Checked
import RegisterMap.Description
import RegisterMap.Name
import RegisterMap.Xml.Element

/-!
# Values of a declaration

What a declaration says in its child elements: texts that it must have, and
numbers that it must or may have. Each reading names the location that is
blamed if the value is absent or malformed.
-/

namespace RegisterMap.Declared

open Xml (Element)

/-- The text of a required child element. -/
def text (e : Element) (tag : String) (loc : Location) : Checked String :=
  Checked.require (e.childText? tag) (.missingElement loc tag)

/-- The number that the text of a child element stands for. -/
def toNumber (content tag : String) (loc : Location) : Checked Nat :=
  Checked.require (Numeral.scalar? content) (.invalidNumber loc tag content)

/-- The number in a required child element. -/
def number (e : Element) (tag : String) (loc : Location) : Checked Nat := do
  toNumber (← text e tag loc) tag loc

/-- The number in a child element that may be absent. -/
def number? (e : Element) (tag : String) (loc : Location) : Checked (Option Nat) :=
  match e.childText? tag with
  | none => pure none
  | some content => some <$> toNumber content tag loc

/-- The address in a required child element. Addresses are expected in hexadecimal; a
    decimal one is accepted with a notice. -/
def address (e : Element) (tag : String) (loc : Location) : Checked Nat := do
  let content ← text e tag loc
  let value ← toNumber content tag loc
  if !Numeral.isHexForm content then Checked.note (.decimalAddress loc tag content)
  return value

/-- Accepts a name if it is a word. -/
def checkName (name : String) (loc : Location) : Checked Unit :=
  if Name.isWord name then pure () else Checked.fail (.invalidName loc name)

/-- The description of a declaration. -/
def description (e : Element) : Option String :=
  (e.childText? "description").bind Description.normalize

end RegisterMap.Declared
