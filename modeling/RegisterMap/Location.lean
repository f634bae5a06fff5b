/-!
# Locations

Where in a description something was found: the path of declarations from a
peripheral down to the innermost one, each with its index among its siblings
and, once known, its name.
-/

namespace RegisterMap

/-- One declaration on the way down. -/
structure Location.Step where
  kind : String
  index : Nat
  name : Option String
  deriving Repr, DecidableEq

/-- A path of declarations, outermost first. The empty path is the device itself. -/
structure Location where
  steps : List Location.Step := []
  deriving Repr, DecidableEq

namespace Location

/-- The device itself. -/
def device : Location := ⟨[]⟩

/-- The place of the `index`-th declaration of a kind inside this one. -/
def child (loc : Location) (kind : String) (index : Nat) (name : Option String) : Location :=
  ⟨loc.steps ++ [⟨kind, index, name⟩]⟩

/-- The same place, with the name of the innermost declaration. -/
def named (loc : Location) (name : String) : Location :=
  match loc.steps.reverse with
  | [] => loc
  | step :: outer => ⟨(({ step with name := some name } : Step) :: outer).reverse⟩

/-- Whether this is the device itself. -/
def isEmpty (loc : Location) : Bool := loc.steps.isEmpty

/-- The text of one step: its kind, its index and its name in parentheses. -/
def Step.text (step : Step) : String :=
  match step.name with
  | none => step.kind ++ " #" ++ toString step.index
  | some name => step.kind ++ " #" ++ toString step.index ++ " (" ++ name ++ ")"

/-- The text of a location, the steps joined by `>`. -/
def text (loc : Location) : String :=
  if loc.isEmpty then "device" else " > ".intercalate (loc.steps.map Step.text)

end Location
end RegisterMap
