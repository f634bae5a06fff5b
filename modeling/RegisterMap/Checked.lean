import RegisterMap.Fault
import RegisterMap.Notice

/-!
# Checked results

The outcome of reading a part of a description: the notices made on the way,
in order, and either a value or the fault that stopped the reading. Notices
made before a fault are kept.

`Checked` is a monad. `result` forgets the notices and is a map of monads
(`result_pure`, `result_bind`), so that statements about values and faults need
not speak of notices.
-/

namespace RegisterMap

/-- Notices together with a value or a fault. -/
structure Checked (α : Type) where
  notices : List Notice
  result : Except Fault α

namespace Checked

/-! ## The monad -/

/-- A value, without a notice. -/
protected def pure {α : Type} (a : α) : Checked α := ⟨[], .ok a⟩

/-- One reading after another: the second is not begun if the first one fails. -/
protected def bind {α β : Type} (x : Checked α) (f : α → Checked β) : Checked β :=
  match x.result with
  | .error fault => ⟨x.notices, .error fault⟩
  | .ok a => ⟨x.notices ++ (f a).notices, (f a).result⟩

instance : Monad Checked where
  pure := Checked.pure
  bind := Checked.bind

/-- Results are the same if their notices are, and their values or faults. -/
@[ext] theorem ext {α : Type} {x y : Checked α} (hn : x.notices = y.notices)
    (hr : x.result = y.result) : x = y := by
  cases x; cases y; simp_all

/-- A value makes no notice. -/
theorem pure_def {α : Type} (a : α) : (pure a : Checked α) = ⟨[], .ok a⟩ := rfl

/-- What two readings make of their notices and faults, written out. -/
theorem bind_def {α β : Type} (x : Checked α) (f : α → Checked β) :
    x >>= f = match x.result with
      | .error fault => ⟨x.notices, .error fault⟩
      | .ok a => ⟨x.notices ++ (f a).notices, (f a).result⟩ := rfl

/-- The first law of functors. -/
private theorem id_map' {α : Type} (x : Checked α) : id <$> x = x := by
  obtain ⟨notices, result⟩ := x
  cases result <;> simp [Functor.map, Checked.bind, Checked.pure]

/-- A value at the start of a sequence is just handed on. -/
private theorem pure_bind' {α β : Type} (a : α) (f : α → Checked β) : pure a >>= f = f a := by
  simp [bind_def, pure_def]

/-- Sequences may be bracketed in either way: the notices are appended in the same order. -/
private theorem bind_assoc' {α β γ : Type} (x : Checked α) (f : α → Checked β)
    (g : β → Checked γ) : x >>= f >>= g = x >>= fun a => f a >>= g := by
  obtain ⟨notices, result⟩ := x
  cases result with
  | error fault => rfl
  | ok a =>
    simp only [bind_def]
    -- the first reading has a value, so that the second one decides how it goes on
    cases (f a).result <;> simp

instance : LawfulMonad Checked := LawfulMonad.mk' _ id_map' pure_bind' bind_assoc'

/-! ## Faults and notices -/

/-- One notice. -/
def note (n : Notice) : Checked Unit := ⟨[n], .ok ()⟩

/-- Some notices, in order. -/
def noteAll (ns : List Notice) : Checked Unit := ⟨ns, .ok ()⟩

/-- A fault. -/
def fail {α : Type} (fault : Fault) : Checked α := ⟨[], .error fault⟩

/-- A value or a fault, without a notice. -/
def ofExcept {α : Type} (r : Except Fault α) : Checked α := ⟨[], r⟩

/-- The value, or a fault where there is none. -/
def require {α : Type} (a? : Option α) (fault : Fault) : Checked α :=
  match a? with
  | some a => pure a
  | none => fail fault

/-! ## Forgetting the notices -/

/-- A value results in itself. -/
@[simp] theorem result_pure {α : Type} (a : α) : (pure a : Checked α).result = .ok a := rfl

/-- The second reading is given the value of the first, if there is one. So `result` is a map of
    monads. -/
@[simp] theorem result_bind {α β : Type} (x : Checked α) (f : α → Checked β) :
    (x >>= f).result = x.result >>= fun a => (f a).result := by
  rw [bind_def]
  cases x.result <;> rfl

/-- Notices fail nothing. -/
@[simp] theorem result_note (n : Notice) : (note n).result = .ok () := rfl

@[simp] theorem result_noteAll (ns : List Notice) : (noteAll ns).result = .ok () := rfl

/-- A fault results in itself. -/
@[simp] theorem result_fail {α : Type} (fault : Fault) :
    (fail fault : Checked α).result = .error fault := rfl

/-- What was a value or a fault before stays that. -/
@[simp] theorem result_ofExcept {α : Type} (r : Except Fault α) : (ofExcept r).result = r := rfl

/-- A value makes no notice, as a rule for `simp`. -/
@[simp] theorem notices_pure {α : Type} (a : α) : (pure a : Checked α).notices = [] := rfl

end Checked
end RegisterMap
