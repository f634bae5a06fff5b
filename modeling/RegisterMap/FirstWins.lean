/-!
# Tables in which the first entry of a name wins

Registers of a group, interrupts of a device and fields of a register are kept
in the order of their first declaration, one entry of each name. A later entry
of a present name is dropped if it has the same place (offset, number or bits),
and clashes with the first one otherwise. `offer` leaves the table as it is in
both cases.
-/

namespace RegisterMap.FirstWins

/-- What becomes of an entry that is offered to a table. -/
inductive Outcome (α : Type) where
  /-- The name was new: the table with the entry at its end. -/
  | added (table : List α)
  /-- The name was present with the same place. -/
  | repeated
  /-- The name was present with another place, in this entry. -/
  | clash (first : α)
  deriving Repr

/-- The entry of a name. -/
def find? {α : Type} (name : α → String) (table : List α) (n : String) : Option α :=
  table.find? fun a => name a == n

/-- Offers an entry to a table. -/
def offer {α β : Type} [DecidableEq β] (name : α → String) (place : α → β) (table : List α)
    (entry : α) : Outcome α :=
  match find? name table (name entry) with
  | none => .added (table ++ [entry])
  | some first => if place first = place entry then .repeated else .clash first

end RegisterMap.FirstWins
