import RegisterMap.Group

/-!
# Interrupt vectors

Interrupts are collected over all peripherals, one of each name. The vector
table puts them in the order of their numbers and fills every unused vector
below the highest number with a placeholder, so that it has no gap.
-/

namespace RegisterMap.Interrupt

/-! ## Collecting -/

/-- The interrupts with one more. The location is blamed for a conflict. -/
def insert (table : List Interrupt) (i : Interrupt) (loc : Location) :
    Except Fault (Merge × List Interrupt) :=
  match FirstWins.offer Interrupt.name Interrupt.number table i with
  | .added table' => .ok (.inserted, table')
  | .repeated => .ok (.repeated, table)
  | .clash first => .error (.interruptConflict loc i.name first.number i.number)

/-- The interrupts with one more, and a notice if there was one of the name. -/
def merge (loc : Location) (table : List Interrupt) (i : Interrupt) :
    Checked (List Interrupt) := do
  let (outcome, table') ← Checked.ofExcept (insert table i (loc.named i.name))
  if outcome = .repeated then Checked.note (.interruptRepeated (loc.named i.name) i.name)
  return table'

/-! ## The vector table -/

/-- Puts an interrupt in front of the first one whose number is not below its own. -/
def insertByNumber (i : Interrupt) : List Interrupt → List Interrupt
  | [] => [i]
  | j :: js => if i.number ≤ j.number then i :: j :: js else j :: insertByNumber i js

/-- The interrupts in the order of their numbers; those of one number stay in order. -/
def sortByNumber (table : List Interrupt) : List Interrupt :=
  table.foldr insertByNumber []

/-- Numbered interrupts in order with a placeholder for every unused vector from
    `next` on. -/
def fillFrom (next : Nat) : List Interrupt → List Interrupt
  | [] => []
  | i :: is =>
    (List.range' next (i.number - next)).map placeholder ++ i :: fillFrom (i.number + 1) is

/-- The vectors from the first to the highest number in use. -/
def vectors (table : List Interrupt) : List Interrupt := fillFrom 0 (sortByNumber table)

/-- The unused numbers from `next` on that lie below some number of an ordered list. -/
def gapsFrom (next : Nat) : List Interrupt → List Nat
  | [] => []
  | i :: is => List.range' next (i.number - next) ++ gapsFrom (i.number + 1) is

/-- The vectors that no interrupt uses, below the highest number in use. -/
def unusedVectors (table : List Interrupt) : List Nat := gapsFrom 0 (sortByNumber table)

/-- The vector table, with a notice for every unused vector. -/
def reconcile (table : List Interrupt) : Checked (List Interrupt) := do
  Checked.noteAll ((unusedVectors table).map .vectorFilled)
  return vectors table

end RegisterMap.Interrupt
