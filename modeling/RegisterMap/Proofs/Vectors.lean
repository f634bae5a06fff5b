import Mathlib.Data.List.Sort
import RegisterMap.Proofs.Indexed
import RegisterMap.Vectors

/-!
# Theory of the vector table

The table holds the collected interrupts and a placeholder for every number
below the highest one that no interrupt has (`vectors_perm`, `mem_vectors`). It
is in the order of the numbers (`vectors_sorted`), keeps interrupts of one
number in the order in which they were collected (`filter_vectors`), and has no
gap (`exists_vector_iff`). No other list is like that (`IsVectorTable.unique`),
so that the table can as well be made by putting the placeholders behind the
interrupts and sorting (`vectors_eq_sortByNumber`), and it can be said of any
run of calls that collect interrupts what table they lead to
(`reconcile_collected`).
-/

namespace RegisterMap.Interrupt

variable {table : List Interrupt} {next n : Nat}

/-! ## Sorting -/

/-- The order of the vector table. -/
def NotAbove (i j : Interrupt) : Prop := i.number ≤ j.number

instance : DecidableRel NotAbove := fun i j => inferInstanceAs (Decidable (i.number ≤ j.number))

instance : Std.Total NotAbove := ⟨fun i j => Nat.le_total i.number j.number⟩

instance : IsTrans Interrupt NotAbove := ⟨fun _ _ _ => Nat.le_trans⟩

/-- An interrupt is inserted where the order of the numbers puts it. -/
theorem insertByNumber_eq (i : Interrupt) (js : List Interrupt) :
    insertByNumber i js = js.orderedInsert NotAbove i := by
  induction js with
  | nil => rfl
  | cons j js ih =>
    rw [insertByNumber, ih, List.orderedInsert_cons]
    rfl

/-- The interrupts are put in order by an insertion sort. -/
theorem sortByNumber_eq (table : List Interrupt) :
    sortByNumber table = table.insertionSort NotAbove := by
  induction table with
  | nil => rfl
  | cons i table ih =>
    rw [List.insertionSort_cons, ← ih, ← insertByNumber_eq, sortByNumber, List.foldr_cons,
      ← sortByNumber]

/-- Sorting keeps all interrupts. -/
theorem sortByNumber_perm (table : List Interrupt) : (sortByNumber table).Perm table := by
  rw [sortByNumber_eq]
  exact List.perm_insertionSort _ _

/-- It puts them in the order of their numbers. -/
theorem sortByNumber_sorted (table : List Interrupt) : (sortByNumber table).Pairwise NotAbove := by
  rw [sortByNumber_eq]
  exact List.pairwise_insertionSort _ _

/-- An interrupt is put in front of all others of its number. -/
theorem filter_insertByNumber (n : Nat) (i : Interrupt) (js : List Interrupt) :
    (insertByNumber i js).filter (·.number == n) = (i :: js).filter (·.number == n) := by
  induction js with
  | nil => rfl
  | cons j js ih =>
    rw [insertByNumber]
    split
    · rfl
    · next hlt =>
      -- an interrupt that is passed has a smaller number, so that not both have the number `n`
      rw [List.filter_cons, ih]
      by_cases hi : i.number = n
      · have hj : j.number ≠ n := by omega
        simp [hi, hj]
      · simp [hi, List.filter_cons]

/-- Interrupts of one number stay in order. -/
theorem filter_sortByNumber (n : Nat) (table : List Interrupt) :
    (sortByNumber table).filter (·.number == n) = table.filter (·.number == n) := by
  induction table with
  | nil => rfl
  | cons i table ih =>
    rw [sortByNumber, List.foldr_cons, ← sortByNumber, filter_insertByNumber, List.filter_cons,
      List.filter_cons, ih]

/-- Ordered lists are equal if they hold the same interrupts of every number, in one order. -/
theorem eq_of_sorted {is js : List Interrupt} (his : is.Pairwise NotAbove)
    (hjs : js.Pairwise NotAbove)
    (h : ∀ n, is.filter (·.number == n) = js.filter (·.number == n)) : is = js := by
  induction is generalizing js with
  | nil =>
    cases js with
    | nil => rfl
    | cons j js => simpa using h j.number
  | cons i is ih =>
    cases js with
    | nil => simpa using h i.number
    | cons j js =>
      obtain ⟨hi, his'⟩ := List.pairwise_cons.1 his
      obtain ⟨hj, hjs'⟩ := List.pairwise_cons.1 hjs
      -- both lists start with an interrupt of the smallest number
      have hij : i.number ≤ j.number := by
        have hmem : j ∈ (i :: is).filter (·.number == j.number) := by simp [h]
        obtain heq | hmem := List.mem_cons.1 (List.mem_filter.1 hmem).1
        · exact Nat.le_of_eq (congrArg number heq.symm)
        · exact hi j hmem
      have hji : j.number ≤ i.number := by
        have hmem : i ∈ (j :: js).filter (·.number == i.number) := by simp [← h]
        obtain heq | hmem := List.mem_cons.1 (List.mem_filter.1 hmem).1
        · exact Nat.le_of_eq (congrArg number heq.symm)
        · exact hj i hmem
      have hnumber : i.number = j.number := Nat.le_antisymm hij hji
      obtain rfl : i = j := by
        have hfirst := h i.number
        simp [hnumber] at hfirst
        exact hfirst.1
      rw [ih his' hjs' fun n => ?_]
      have hall := h n
      rw [List.filter_cons, List.filter_cons] at hall
      split at hall
      · exact (List.cons.inj hall).2
      · exact hall

/-! ## Filling -/

/-- There are as many placeholders of a number as there are gaps. -/
theorem filter_placeholders (n : Nat) (gaps : List Nat) :
    (gaps.map placeholder).filter (·.number == n)
      = List.replicate (gaps.count n) (placeholder n) := by
  rw [List.filter_map, ← List.map_replicate, ← List.filter_beq]
  rfl

/-- Filling adds the placeholders of the gaps, and nothing else. -/
theorem fillFrom_perm (next : Nat) (is : List Interrupt) :
    (fillFrom next is).Perm (is ++ (gapsFrom next is).map placeholder) := by
  induction is generalizing next with
  | nil => exact .refl _
  | cons i is ih =>
    rw [fillFrom, gapsFrom, List.map_append]
    -- the placeholders before an interrupt move behind all of them
    refine ((ih _).cons i |>.append_left _).trans ?_
    rw [← List.cons_append, ← List.append_assoc, ← List.append_assoc]
    exact List.perm_append_comm.append_right _

/-- Filling gaps puts placeholders in, and takes nothing away. -/
theorem mem_fillFrom {is : List Interrupt} {x : Interrupt} :
    x ∈ fillFrom next is ↔ x ∈ is ∨ ∃ n ∈ gapsFrom next is, placeholder n = x := by
  rw [(fillFrom_perm next is).mem_iff, List.mem_append, List.mem_map]

/-- Filling adds no interrupt of a number that is no gap. -/
theorem filter_fillFrom {is : List Interrupt} (h : n ∉ gapsFrom next is) :
    (fillFrom next is).filter (·.number == n) = is.filter (·.number == n) := by
  induction is generalizing next with
  | nil => rfl
  | cons i is ih =>
    rw [gapsFrom, List.mem_append, not_or] at h
    rw [fillFrom, List.filter_append, filter_placeholders, List.count_eq_zero.2 h.1,
      List.replicate_zero, List.nil_append, List.filter_cons, List.filter_cons, ih h.2]

/-- The gaps of an ordered list are the numbers below its highest that it does not hold.
    Two interrupts may have one number, so that `next` can be one above the next number. -/
theorem mem_gapsFrom {is : List Interrupt} (hsorted : is.Pairwise NotAbove)
    (hnext : ∀ i ∈ is, next ≤ i.number + 1) :
    n ∈ gapsFrom next is ↔ next ≤ n ∧ (∃ i ∈ is, n < i.number) ∧ ∀ i ∈ is, i.number ≠ n := by
  induction is generalizing next with
  | nil => simp [gapsFrom]
  | cons i is ih =>
    obtain ⟨hi, hsorted'⟩ := List.pairwise_cons.1 hsorted
    have hrest : ∀ j ∈ is, i.number + 1 ≤ j.number + 1 := fun j hj => Nat.succ_le_succ (hi j hj)
    have hhead : next ≤ i.number + 1 := hnext i List.mem_cons_self
    -- the gap in front of the first interrupt, and those behind it
    rw [gapsFrom, List.mem_append, List.mem_range'_1, ih hsorted' hrest]
    simp only [List.exists_mem_cons_iff, List.forall_mem_cons]
    constructor
    · intro h
      obtain h | ⟨hn, hex, hall⟩ := h
      · -- a number in front of the first interrupt is below all of them
        have hall : ∀ j ∈ is, j.number ≠ n := by
          intro j hj
          have hij : i.number ≤ j.number := hi j hj
          omega
        exact ⟨h.1, .inl (by omega), by omega, hall⟩
      · exact ⟨by omega, .inr hex, by omega, hall⟩
    · intro h
      obtain ⟨hn, hex, hne, hall⟩ := h
      by_cases hlt : n < i.number
      · exact .inl (by omega)
      · exact .inr ⟨by omega, hex.resolve_left hlt, hall⟩

/-- Filling keeps the order. -/
theorem fillFrom_sorted {is : List Interrupt} (hsorted : is.Pairwise NotAbove)
    (hnext : ∀ i ∈ is, next ≤ i.number + 1) : (fillFrom next is).Pairwise NotAbove := by
  induction is generalizing next with
  | nil => exact .nil
  | cons i is ih =>
    obtain ⟨hi, hsorted'⟩ := List.pairwise_cons.1 hsorted
    have hrest : ∀ j ∈ is, i.number + 1 ≤ j.number + 1 := fun j hj => Nat.succ_le_succ (hi j hj)
    -- behind an interrupt come its followers and the gaps above it
    have habove : ∀ x ∈ fillFrom (i.number + 1) is, NotAbove i x := by
      intro x hx
      obtain hx | ⟨m, hm, hx⟩ := mem_fillFrom.1 hx
      · exact hi x hx
      · have hm' := ((mem_gapsFrom hsorted' hrest).1 hm).1
        subst hx
        exact Nat.le_of_succ_le hm'
    rw [fillFrom, List.pairwise_append]
    refine ⟨?_, List.pairwise_cons.2 ⟨habove, ih hsorted' hrest⟩, ?_⟩
    · refine List.pairwise_map.2 ((List.pairwise_lt_range' (s := next)).imp ?_)
      intro a b hab
      exact Nat.le_of_lt hab
    · intro x hx y hy
      obtain ⟨m, hm, hmx⟩ := List.mem_map.1 hx
      rw [List.mem_range'_1] at hm
      -- a placeholder in front of the interrupt has a smaller number
      have hxi : x.number ≤ i.number := by
        rw [← hmx]
        show m ≤ i.number
        omega
      obtain hyi | hy := List.mem_cons.1 hy
      · exact hyi ▸ hxi
      · exact Nat.le_trans hxi (habove y hy)

/-- The gaps of an ordered list are different. -/
theorem gapsFrom_nodup {is : List Interrupt} (hsorted : is.Pairwise NotAbove)
    (hnext : ∀ i ∈ is, next ≤ i.number + 1) : (gapsFrom next is).Nodup := by
  induction is generalizing next with
  | nil => exact List.nodup_nil
  | cons i is ih =>
    obtain ⟨hi, hsorted'⟩ := List.pairwise_cons.1 hsorted
    have hrest : ∀ j ∈ is, i.number + 1 ≤ j.number + 1 := fun j hj => Nat.succ_le_succ (hi j hj)
    rw [gapsFrom]
    refine (List.nodup_range' 1).append (ih hsorted' hrest) ?_
    -- the gap in front of an interrupt lies below its number, and all others above it
    intro m hm hm'
    rw [List.mem_range'_1] at hm
    have habove := ((mem_gapsFrom hsorted' hrest).1 hm').1
    omega

/-! ## The table -/

/-- A number is unused if it is below that of an interrupt and not the number of one. -/
theorem mem_unusedVectors :
    n ∈ unusedVectors table ↔ (∃ i ∈ table, n < i.number) ∧ ∀ i ∈ table, i.number ≠ n := by
  unfold unusedVectors
  rw [mem_gapsFrom (sortByNumber_sorted table) fun _ _ => Nat.zero_le _]
  simp only [(sortByNumber_perm table).mem_iff, Nat.zero_le, true_and]

/-- No number is unused twice. -/
theorem unusedVectors_nodup (table : List Interrupt) : (unusedVectors table).Nodup :=
  gapsFrom_nodup (sortByNumber_sorted table) fun _ _ => Nat.zero_le _

/-- The table holds the collected interrupts, and placeholders for the numbers below the
    highest that none of them has. -/
theorem vectors_perm (table : List Interrupt) :
    (vectors table).Perm (table ++ (unusedVectors table).map placeholder) :=
  (fillFrom_perm 0 _).trans ((sortByNumber_perm table).append_right _)

/-- The table has the interrupts, and placeholders for unused numbers. -/
theorem mem_vectors {x : Interrupt} :
    x ∈ vectors table ↔ x ∈ table ∨ ∃ n ∈ unusedVectors table, placeholder n = x := by
  rw [(vectors_perm table).mem_iff, List.mem_append, List.mem_map]

/-- The table is in the order of the numbers. -/
theorem vectors_sorted (table : List Interrupt) : (vectors table).Pairwise NotAbove :=
  fillFrom_sorted (sortByNumber_sorted table) fun _ _ => Nat.zero_le _

/-- Interrupts of one number stay in the order in which they were collected. -/
theorem filter_vectors (h : n ∉ unusedVectors table) :
    (vectors table).filter (·.number == n) = table.filter (·.number == n) := by
  rw [vectors, filter_fillFrom h, filter_sortByNumber]

/-- The valid entries of the table are those that were collected. -/
theorem filter_valid_vectors (h : ∀ i ∈ table, i.valid = true) :
    ((vectors table).filter (·.valid)).Perm table := by
  have hall : table.filter (·.valid) = table := List.filter_eq_self.2 h
  have hgaps : ((unusedVectors table).map placeholder).filter (·.valid) = [] := by
    simp [List.filter_eq_nil_iff, placeholder]
  have hperm := (vectors_perm table).filter (·.valid)
  rwa [List.filter_append, hall, hgaps, List.append_nil] at hperm

/-- The table has a vector of every number up to the highest, and no other one. -/
theorem exists_vector_iff : (∃ x ∈ vectors table, x.number = n) ↔ ∃ i ∈ table, n ≤ i.number := by
  constructor
  · intro h
    obtain ⟨x, hx, hxn⟩ := h
    obtain hx | ⟨m, hm, hmx⟩ := mem_vectors.1 hx
    · exact ⟨x, hx, Nat.le_of_eq hxn.symm⟩
    · obtain ⟨i, hi, hlt⟩ := (mem_unusedVectors.1 hm).1
      -- a placeholder is below an interrupt
      subst hmx hxn
      exact ⟨i, hi, Nat.le_of_lt hlt⟩
  · intro h
    obtain ⟨i, hi, hle⟩ := h
    -- the number is used, or it has a placeholder
    by_cases hused : ∃ j ∈ table, j.number = n
    · obtain ⟨j, hj, hjn⟩ := hused
      exact ⟨j, mem_vectors.2 (.inl hj), hjn⟩
    · have hnone : ∀ j ∈ table, j.number ≠ n := fun j hj hjn => hused ⟨j, hj, hjn⟩
      have hlt : n < i.number := Nat.lt_of_le_of_ne hle (hnone i hi).symm
      exact ⟨_, mem_vectors.2 (.inr ⟨n, mem_unusedVectors.2 ⟨⟨i, hi, hlt⟩, hnone⟩, rfl⟩), rfl⟩

/-- The table has no gap: with a number it has all numbers below. -/
theorem vectors_contiguous (n : Nat) :
    (∃ x ∈ vectors table, x.number = n) ↔ ∃ x ∈ vectors table, n ≤ x.number := by
  constructor
  · intro h
    obtain ⟨x, hx, hxn⟩ := h
    exact ⟨x, hx, Nat.le_of_eq hxn.symm⟩
  · intro h
    obtain ⟨x, hx, hle⟩ := h
    -- some interrupt has that number or a higher one, and up to it there are vectors
    obtain ⟨i, hi, hxi⟩ := exists_vector_iff.1 ⟨x, hx, rfl⟩
    exact exists_vector_iff.2 ⟨i, hi, Nat.le_trans hle hxi⟩

/-! ## Uniqueness -/

/-- A vector table of some interrupts. -/
structure IsVectorTable (is vs : List Interrupt) : Prop where
  sorted : vs.Pairwise NotAbove
  /-- It consists of the interrupts, and of one placeholder for every number below the highest that
      none of them has. -/
  contents : ∃ gaps : List Nat, gaps.Nodup
    ∧ (∀ n, n ∈ gaps ↔ (∃ i ∈ is, n < i.number) ∧ ∀ i ∈ is, i.number ≠ n)
    ∧ vs.Perm (is ++ gaps.map placeholder)
  /-- Interrupts of one number are in order. -/
  stable : ∀ n, (∃ i ∈ is, i.number = n) →
    vs.filter (·.number == n) = is.filter (·.number == n)

/-- The table is what is asked of one. -/
theorem isVectorTable_vectors (table : List Interrupt) : IsVectorTable table (vectors table) where
  sorted := vectors_sorted table
  contents := ⟨_, unusedVectors_nodup table, fun _ => mem_unusedVectors, vectors_perm table⟩
  stable n hused := by
    obtain ⟨i, hi, hin⟩ := hused
    exact filter_vectors fun hgap => (mem_unusedVectors.1 hgap).2 i hi hin

/-- Of a number that no interrupt has there is one placeholder, if it lies below the highest. -/
theorem IsVectorTable.filter_eq {is vs : List Interrupt} (h : IsVectorTable is vs)
    (hn : ∀ i ∈ is, i.number ≠ n) :
    vs.filter (·.number == n) = if ∃ i ∈ is, n < i.number then [placeholder n] else [] := by
  obtain ⟨gaps, hnodup, hmem, hperm⟩ := h.contents
  have hnone : is.filter (·.number == n) = [] := by simpa using hn
  have hfilter := hperm.filter (·.number == n)
  rw [List.filter_append, hnone, List.nil_append, filter_placeholders, List.perm_replicate,
    hnodup.count] at hfilter
  rw [hfilter]
  -- no interrupt has the number, so that only a placeholder can
  by_cases hbelow : ∃ i ∈ is, n < i.number
  · rw [if_pos ((hmem n).2 ⟨hbelow, hn⟩), if_pos hbelow]
    rfl
  · rw [if_neg fun hgap => hbelow ((hmem n).1 hgap).1, if_neg hbelow]
    rfl

/-- There is one vector table of some interrupts. -/
theorem IsVectorTable.unique {is vs vs' : List Interrupt} (h : IsVectorTable is vs)
    (h' : IsVectorTable is vs') : vs = vs' := by
  refine eq_of_sorted h.sorted h'.sorted fun n => ?_
  by_cases hused : ∃ i ∈ is, i.number = n
  · rw [h.stable n hused, h'.stable n hused]
  · have hn : ∀ i ∈ is, i.number ≠ n := fun i hi hin => hused ⟨i, hi, hin⟩
    rw [h.filter_eq hn, h'.filter_eq hn]

/-- The table can be made by putting all placeholders behind the interrupts and sorting again. -/
theorem vectors_eq_sortByNumber (table : List Interrupt) :
    vectors table
      = sortByNumber (sortByNumber table ++ (unusedVectors table).map placeholder) := by
  apply (isVectorTable_vectors table).unique
  constructor
  · exact sortByNumber_sorted _
  · exact ⟨_, unusedVectors_nodup table, fun _ => mem_unusedVectors,
      (sortByNumber_perm _).trans ((sortByNumber_perm table).append_right _)⟩
  · intro n hused
    obtain ⟨i, hi, hin⟩ := hused
    -- a number that is used has no placeholder, so that sorting keeps the interrupts of it in order
    have hgap : n ∉ unusedVectors table := fun h => (mem_unusedVectors.1 h).2 i hi hin
    rw [filter_sortByNumber, List.filter_append, filter_sortByNumber, filter_placeholders,
      List.count_eq_zero.2 hgap, List.replicate_zero, List.append_nil]

/-! ## Collecting -/

open FirstWins

/-- The fault of an interrupt that clashes with the first one of its name. -/
def conflict (loc : Location) (i first : Interrupt) : Fault :=
  .interruptConflict loc i.name first.number i.number

/-- Inserting an interrupt is an offer by its name and its number. -/
theorem offers_insert : Offers insert Interrupt.name Interrupt.number conflict id := by
  intro t i loc
  rw [id_eq, insert]
  cases offer Interrupt.name Interrupt.number t i <;> rfl

/-- The interrupts that a run of calls collects. -/
def collected (calls : List (Interrupt × Location)) : List Interrupt := afterAll insert [] calls

/-- The collected interrupts are the first ones of their names. -/
theorem collected_eq (calls : List (Interrupt × Location)) :
    collected calls = firsts Interrupt.name (calls.map Prod.fst) := by
  have hall : offerAll Interrupt.name Interrupt.number [] (calls.map Prod.fst)
      = firsts Interrupt.name (calls.map Prod.fst) := offerAll_firsts [] _
  rw [← hall]
  exact afterAll_wrap offers_insert [] calls

/-- After any run of calls, those that add nothing and so change nothing included, the collected
    interrupts are put into a vector table of the first interrupt of every name. The table is empty
    exactly if there was no call. A table with an index that is offered the same interrupts never
    looks outside its entries, and collects the same. -/
theorem reconcile_collected (calls : List (Interrupt × Location)) :
    (∀ i loc, answer insert (collected calls) i loc ≠ .ok .inserted →
        after insert (collected calls) i loc = collected calls)
      ∧ (∃ t, Indexed.offerAll Interrupt.name Interrupt.number .empty (calls.map Prod.fst) = some t
        ∧ t.InStep Interrupt.name ∧ t.entries = collected calls)
      ∧ ∃ vs, (reconcile (collected calls)).Gives vs
        ∧ IsVectorTable (firsts Interrupt.name (calls.map Prod.fst)) vs
        ∧ (vs = [] ↔ calls = []) := by
  refine ⟨fun i loc => after_of_answer_ne offers_insert, ?_, vectors (collected calls), rfl, ?_, ?_⟩
  · rw [collected_eq]
    exact Indexed.exists_offerAll_empty Interrupt.number _
  · rw [← collected_eq]
    exact isVectorTable_vectors _
  · rw [collected_eq]
    constructor
    · intro hempty
      have hperm := vectors_perm (firsts Interrupt.name (calls.map Prod.fst))
      rw [hempty, List.nil_perm, List.append_eq_nil_iff] at hperm
      -- with a call there is an interrupt, which stays in the table
      cases calls with
      | nil => rfl
      | cons c calls => exact absurd hperm.1 (List.cons_ne_nil _ _)
    · intro hnone
      rw [hnone]
      rfl

end RegisterMap.Interrupt
