import RegisterMap.Declared.Value

/-!
# Declared peripherals

A peripheral as its declaration describes it, before the peripherals it may be
derived from are known. A derived peripheral has the group of its parent;
another one has the group it names, or one of its own name.
-/

namespace RegisterMap

/-- Where the registers of a peripheral come from. -/
inductive Layout where
  /-- It declares them, in the named group. -/
  | owned (group : String)
  /-- They are those of another peripheral. -/
  | derived (parent : String)
  deriving Repr, DecidableEq

/-- A peripheral as it is declared. -/
structure Declaration where
  name : String
  layout : Layout
  base : Nat
  description : Option String
  deriving Repr, DecidableEq

/-- The group that a declaration fills, if it fills one. -/
def Declaration.group? (d : Declaration) : Option String :=
  match d.layout with
  | .owned group => some group
  | .derived _ => none

namespace Declared

open Xml (Element)

/-- Where the registers of a named peripheral come from. -/
def layout (e : Element) (name : String) (loc : Location) : Checked Layout :=
  match e.attribute? "derivedFrom", e.childText? "groupName" with
  | some parent, _ => pure (.derived parent)
  | none, some group => do
    checkName group loc
    return .owned group
  | none, none => pure (.owned name)

/-- The declaration that an element is. -/
def peripheral (e : Element) (loc : Location) : Checked Declaration := do
  let name ← text e "name" loc
  let loc := loc.named name
  checkName name loc
  let base ← address e "baseAddress" loc
  return ⟨name, ← layout e name loc, base, description e⟩

end Declared
end RegisterMap
