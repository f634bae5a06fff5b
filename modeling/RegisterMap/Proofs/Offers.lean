import Mathlib.Data.Finset.Card
import RegisterMap.Group
import RegisterMap.Proofs.FirstWins

/-!
# Runs of offers

What a table in which the first entry of a name wins has become after a run of
offers, whatever became of each of them, and how the next offer is answered.
An offer that is not added leaves the table as it is, so that the table holds
the first entries of all that were offered, those that clashed included.

- `offerAll_firsts`, `answers_offer`: tables
- `afterAll_wrap`, `answer_wrap`: things that hold a table and are filled by
  calls which fail if an entry clashes
-/

namespace RegisterMap.FirstWins

variable {α β ε σ : Type} {name : α → String} {place : α → β}

/-- There are as many first entries as there are names. -/
theorem length_firsts (as : List α) : (firsts name as).length = (as.map name).toFinset.card := by
  have hsame : (as.map name).toFinset = ((firsts name as).map name).toFinset := by
    ext n
    rw [List.mem_toFinset, List.mem_toFinset, mem_map_firsts]
  rw [hsame, List.toFinset_card_of_nodup (nodup_firsts as), List.length_map]

/-! ## Outcomes -/

/-- The table after an offer, whatever became of it. -/
def Outcome.after (before : List α) : Outcome α → List α
  | added table => table
  | repeated => before
  | clash _ => before

/-- What became of the entry, or the first one of its name if it clashed with that. -/
def Outcome.answer : Outcome α → Except α Merge
  | added _ => .ok .inserted
  | repeated => .ok .repeated
  | clash first => .error first

/-- Only what is inserted changes a table. -/
theorem Outcome.after_of_answer_ne {o : Outcome α} (h : o.answer ≠ .ok .inserted)
    (before : List α) : o.after before = before := by
  cases o with
  | added table => exact absurd rfl h
  | repeated => rfl
  | clash first => rfl

/-- How an entry is answered that is offered after some others: it is compared with the first one
    of its name, if there is one. -/
structure Answers (name : α → String) (place : α → β) (conflict : α → ε) (as : List α) (a : α)
    (answer : Except ε Merge) : Prop where
  inserted : answer = .ok .inserted ↔ ∀ b ∈ as, name b ≠ name a
  repeated : answer = .ok .repeated ↔ ∃ b, find? name as (name a) = some b ∧ place b = place a
  clash : ∀ f, answer = .error f
    ↔ ∃ b, find? name as (name a) = some b ∧ place b ≠ place a ∧ conflict b = f

/-! ## Tables -/

variable [DecidableEq β]

/-- After an offer the table holds the first things of their names, with the offered one counted. -/
theorem after_offer_firsts (as : List α) (a : α) :
    (offer name place (firsts name as) a).after (firsts name as) = firsts name (as ++ [a]) := by
  unfold offer
  rw [find?_firsts, firsts_concat]
  cases hf : find? name as (name a) with
  | none => rw [if_neg (find?_eq_none_iff.1 hf), Outcome.after]
  | some b =>
    have hmem : name a ∈ as.map name := name_of_find? hf ▸ List.mem_map_of_mem (mem_of_find? hf)
    rw [if_pos hmem]
    simp only
    -- a repeat and a conflict both leave the table as it is
    split <;> rfl

/-- The answer to an offer says whether the name is new, and if not, whether the place is. -/
theorem answers_offer (conflict : α → ε) (as : List α) (a : α) :
    Answers name place conflict as a
      ((offer name place (firsts name as) a).answer.mapError conflict) := by
  have hnone : find? name as (name a) = none ↔ ∀ b ∈ as, name b ≠ name a := by
    simp [find?_eq_none_iff]
  unfold offer
  rw [find?_firsts]
  cases hf : find? name as (name a) with
  | none =>
    have hnew := hnone.1 hf
    constructor <;> simp_all [Outcome.answer, Except.mapError]
  | some b =>
    have hused : ¬ ∀ b ∈ as, name b ≠ name a := fun h => by simp [hnone.2 h] at hf
    -- the name is used, so that the place decides
    by_cases hp : place b = place a
    · constructor <;> simp_all [Outcome.answer, Except.mapError]
    · constructor <;> simp_all [Outcome.answer, Except.mapError]

/-- The table after a run of offers. -/
def offerAll (name : α → String) (place : α → β) (table : List α) (as : List α) : List α :=
  as.foldl (fun table a => (offer name place table a).after table) table

/-- A run of offers leaves the first entry of every name, in the order of the offers. -/
theorem offerAll_firsts (as bs : List α) :
    offerAll name place (firsts name as) bs = firsts name (as ++ bs) := by
  induction bs generalizing as with
  | nil => rw [List.append_nil, offerAll, List.foldl_nil]
  | cons b bs ih =>
    rw [offerAll, List.foldl_cons, after_offer_firsts, ← offerAll, ih, List.append_assoc,
      List.singleton_append]

/-! ## Calls -/

section Calls

variable (insert : σ → α → Location → Except Fault (Merge × σ))

/-- What a call that inserts an entry is answered. -/
def answer (s : σ) (a : α) (loc : Location) : Except Fault Merge := (insert s a loc).map Prod.fst

/-- What a call leaves. One that fails changes nothing. -/
def after (s : σ) (a : α) (loc : Location) : σ :=
  match insert s a loc with
  | .ok (_, s') => s'
  | .error _ => s

/-- What a run of calls leaves. -/
def afterAll (s : σ) (calls : List (α × Location)) : σ :=
  calls.foldl (fun s c => after insert s c.1 c.2) s

/-- The calls offer their entries to the table that is held, and fail if an entry clashes. -/
def Offers (name : α → String) (place : α → β) (conflict : Location → α → α → Fault)
    (wrap : List α → σ) : Prop :=
  ∀ t a loc, insert (wrap t) a loc = ((offer name place t a).answer.mapError (conflict loc a)).map
    fun merge => (merge, wrap ((offer name place t a).after t))

variable {insert} {conflict : Location → α → α → Fault} {wrap : List α → σ}
  (hinsert : Offers insert name place conflict wrap)
include hinsert

/-- A wrapped table is changed as the table in it is. -/
theorem after_wrap (t : List α) (a : α) (loc : Location) :
    after insert (wrap t) a loc = wrap ((offer name place t a).after t) := by
  rw [after, hinsert]
  cases offer name place t a <;> rfl

/-- Its answer is that of the table, with the conflict worded. -/
theorem answer_wrap (t : List α) (a : α) (loc : Location) :
    answer insert (wrap t) a loc = (offer name place t a).answer.mapError (conflict loc a) := by
  rw [answer, hinsert]
  cases offer name place t a <;> rfl

/-- A run of calls leaves the first entry of every name. -/
theorem afterAll_wrap (t : List α) (calls : List (α × Location)) :
    afterAll insert (wrap t) calls = wrap (offerAll name place t (calls.map Prod.fst)) := by
  induction calls generalizing t with
  | nil => rfl
  | cons c calls ih =>
    rw [afterAll, List.foldl_cons, after_wrap hinsert, ← afterAll, ih, List.map_cons, offerAll,
      offerAll, List.foldl_cons]

/-- A call that adds nothing leaves all as it is. -/
theorem after_of_answer_ne {t : List α} {a : α} {loc : Location}
    (h : answer insert (wrap t) a loc ≠ .ok .inserted) :
    after insert (wrap t) a loc = wrap t := by
  rw [after_wrap hinsert]
  rw [answer_wrap hinsert] at h
  congr 1
  refine Outcome.after_of_answer_ne (fun hadded => h ?_) t
  rw [hadded]
  rfl

end Calls

end RegisterMap.FirstWins
