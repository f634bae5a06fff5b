import RegisterMap.Text.Case

/-!
# Selections

Which peripherals a listing shows. A selection names peripherals to show (all
of them, if it names none) and peripherals to leave out, which wins. Names are
put into lower case when they are added and when they are looked up.
-/

namespace RegisterMap

/-- The peripherals to show and to leave out, by their names in lower case. -/
structure Selection where
  included : List String := []
  excluded : List String := []
  deriving Repr, DecidableEq

namespace Selection

/-- The selection of all peripherals. -/
def all : Selection := {}

/-- Also shows the peripheral of a name. -/
def withIncluded (s : Selection) (name : String) : Selection :=
  { s with included := s.included ++ [Text.lowercase name] }

/-- Also leaves out the peripheral of a name. -/
def withExcluded (s : Selection) (name : String) : Selection :=
  { s with excluded := s.excluded ++ [Text.lowercase name] }

/-- Whether the selection restricts nothing. -/
def isEmpty (s : Selection) : Bool := s.included.isEmpty && s.excluded.isEmpty

/-- Whether the peripheral of a name is shown. -/
def admits (s : Selection) (name : String) : Bool :=
  let lower := Text.lowercase name
  !s.excluded.contains lower && (s.included.isEmpty || s.included.contains lower)

end Selection
end RegisterMap
