import RegisterMap.Text.Case

/-!
# Theory of letter case

The lower-case form of a text is its own lower-case form
(`lowercase_lowercase`), so that a text which has been put into lower case once
can be compared as it is, and a character in upper case starts with one that
is its own upper-case form (`exists_upper_eq_cons`). Both are read off the
tables: no run leads to a letter that the table maps (`shifted?_of_settled`). A
capital sigma, whose form depends on its neighbours, is left nowhere.
-/

namespace RegisterMap.Text

/-! ## Runs -/

/-- A letter that a table maps stands in one of its runs. -/
theorem exists_run_of_shifted? {runs : List (Nat × Nat × Nat × Nat)} {n m : Nat}
    (h : shifted? runs n = some m) :
    ∃ run ∈ runs, (run.1 ≤ n ∧ n ≤ run.2.1 ∧ (n - run.1) % run.2.2.1 = 0)
      ∧ run.2.2.2 + (n - run.1) = m := by
  obtain ⟨run, hrun, hsome⟩ := List.exists_of_findSome?_eq_some h
  obtain ⟨hwithin, hm⟩ := Option.ite_none_right_eq_some.1 hsome
  exact ⟨run, hrun, hwithin, Option.some.inj hm⟩

/-- A letter that stands in no run is not mapped. -/
theorem shifted?_eq_none {runs : List (Nat × Nat × Nat × Nat)} {n : Nat}
    (h : ∀ run ∈ runs, ¬ (run.1 ≤ n ∧ n ≤ run.2.1 ∧ (n - run.1) % run.2.2.1 = 0)) :
    shifted? runs n = none := by
  rw [shifted?, List.findSome?_eq_none_iff]
  exact fun run hrun => if_neg (h run hrun)

/-- A number that is no code point stands for the character zero. -/
theorem toNat_ofNat_or (n : Nat) : (Char.ofNat n).toNat = n ∨ (Char.ofNat n).toNat = 0 := by
  by_cases hvalid : n.isValidChar
  · exact .inl (congrArg Char.toNat (dif_pos hvalid))
  · exact .inr (congrArg Char.toNat (dif_neg hvalid))

/-- Whether a run leads to letters that are not in another one: past it, or between its letters if it
    takes every second one. -/
def leadsPast (run other : Nat × Nat × Nat × Nat) : Bool :=
  (run.2.2.2 + (run.2.1 - run.1)).blt other.1 || other.2.1.blt run.2.2.2
    || (other.2.2.1.beq 2 && (run.2.2.1.beq 2 || run.2.1.beq run.1)
      && ((run.2.2.2 + other.1) % 2).beq 1)

/-- Whether no run of a table leads to a letter of a run. The tables have some two hundred runs, and
    every one is checked against all. -/
def settled (runs : List (Nat × Nat × Nat × Nat)) : Bool :=
  runs.all fun run => runs.all (leadsPast run)

/-- A letter that another one is mapped to is not mapped itself. -/
theorem shifted?_of_settled {runs : List (Nat × Nat × Nat × Nat)} {n m : Nat}
    (hsettled : settled runs = true) (h : shifted? runs n = some m) : shifted? runs m = none := by
  obtain ⟨⟨first, last, step, target⟩, hrun, ⟨hfirst, hlast, hstep⟩, hm⟩ := exists_run_of_shifted? h
  apply shifted?_eq_none
  intro other hother hwithin
  obtain ⟨first', last', step', target'⟩ := other
  obtain ⟨hfirst', hlast', hstep'⟩ := hwithin
  have hapart := List.all_eq_true.1 (List.all_eq_true.1 hsettled _ hrun) _ hother
  simp only [leadsPast, Bool.or_eq_true, Bool.and_eq_true, Nat.blt_eq, Nat.beq_eq] at hapart
  simp only at hfirst hlast hstep hm hfirst' hlast' hstep'
  -- the letter is past the other run, or an odd number of places into a run of every second one
  obtain (hbelow | habove) | ⟨⟨rfl, rfl | rfl⟩, hodd⟩ := hapart
  · omega
  · omega
  · omega
  · omega

/-! ## Lower case -/

/-- No run of lower case leads into another one. -/
theorem settled_lowerRuns : settled Table.lowerRuns = true := by decide +kernel

/-- No run leads to the capital I with a dot. -/
theorem lowerRuns_dottedI : ∀ run ∈ Table.lowerRuns,
    run.2.2.2 + (run.2.1 - run.1) < 'İ'.toNat ∨ 'İ'.toNat < run.2.2.2 := by
  decide +kernel

/-- The lower-case form of a character consists of characters that are their own. -/
theorem lower_of_mem_lower {c d : Char} (h : d ∈ lower c) : lower d = [d] := by
  unfold lower at h
  split at h
  · -- the capital with a dot has two characters in lower case
    have hdot : lower 'i' = ['i'] ∧ lower '\u0307' = ['\u0307'] := by decide +kernel
    obtain rfl | h := List.mem_cons.1 h
    · exact hdot.1
    · obtain rfl := List.mem_singleton.1 h
      exact hdot.2
  · next hdotted =>
    split at h
    · next m hm =>
      obtain rfl := List.mem_singleton.1 h
      obtain ⟨run, hrun, ⟨hfirst, hlast, -⟩, htarget⟩ := exists_run_of_shifted? hm
      have hapart := lowerRuns_dottedI run hrun
      -- the character that is led to is in no run itself
      have hnone : shifted? Table.lowerRuns (Char.ofNat m).toNat = none := by
        obtain hcode | hcode := toNat_ofNat_or m
        · rw [hcode]
          exact shifted?_of_settled settled_lowerRuns hm
        · rw [hcode]
          decide +kernel
      have hne : Char.ofNat m ≠ 'İ' := by
        intro heq
        have hcode := toNat_ofNat_or m
        rw [heq] at hcode
        have hpos : 'İ'.toNat ≠ 0 := by decide
        omega
      rw [lower, if_neg hne, hnone]
    · next hnone =>
      obtain rfl := List.mem_singleton.1 h
      rw [lower, if_neg hdotted, hnone]

/-- A text of characters that are their own lower-case forms is its own lower-case form. -/
theorem lowerFrom_eq_self {before cs : List Char} (h : ∀ c ∈ cs, lower c = [c]) :
    lowerFrom before cs = cs := by
  induction cs generalizing before with
  | nil => rfl
  | cons c cs ih =>
    obtain ⟨hc, hcs⟩ := List.forall_mem_cons.1 h
    -- the capital sigma is not its own lower-case form
    have hsigma : c ≠ 'Σ' := by
      rintro rfl
      revert hc
      decide +kernel
    rw [lowerFrom, if_neg hsigma, hc, ih hcs, List.singleton_append]

/-- Every character of a text in lower case is its own lower case. -/
theorem lower_of_mem_lowerFrom {before cs : List Char} :
    ∀ d ∈ lowerFrom before cs, lower d = [d] := by
  induction cs generalizing before with
  | nil => exact fun d hd => absurd hd List.not_mem_nil
  | cons c cs ih =>
    intro d hd
    rw [lowerFrom] at hd
    obtain hd | hd := List.mem_append.1 hd
    · split at hd
      · -- a sigma in capitals has one of two forms in lower case
        have hsigmas : lower 'ς' = ['ς'] ∧ lower 'σ' = ['σ'] := by decide +kernel
        obtain rfl := List.mem_singleton.1 hd
        split
        · exact hsigmas.1
        · exact hsigmas.2
      · exact lower_of_mem_lower hd
    · exact ih d hd

/-- The lower-case form of a text is its own lower-case form. -/
theorem lowercase_lowercase (s : String) : lowercase (lowercase s) = lowercase s := by
  rw [lowercase, lowercase, String.toList_ofList, lowerFrom_eq_self lower_of_mem_lowerFrom]

/-- A capital sigma at the end of a word takes its final form, which stays. -/
example : lowercase "ΟΔΟΣ" = "οδος" ∧ lowercase "οδος" = "οδος" := by decide +kernel

/-! ## Upper case -/

/-- No run of upper case leads into another one. -/
theorem settled_upperRuns : settled Table.upperRuns = true := by decide +kernel

/-- No run leads to a letter that has an expansion. -/
theorem upperRuns_unexpanded :
    (Table.upperExpansions.all fun expansion => Table.upperRuns.all fun run =>
      (run.2.2.2 + (run.2.1 - run.1)).blt expansion.1 || expansion.1.blt run.2.2.2) = true := by
  decide +kernel

/-- Every expansion has more than one character. -/
theorem one_lt_length_upperExpansions :
    ∀ expansion ∈ Table.upperExpansions, 1 < expansion.2.length := by
  decide +kernel

/-- The first character of an expansion is its own upper case. -/
theorem upper_head_upperExpansions : ∀ expansion ∈ Table.upperExpansions,
    ∀ n ∈ expansion.2.head?, upper (Char.ofNat n) = [Char.ofNat n] := by
  decide +kernel

/-- The small a is the one letter that a run maps to the capital A. -/
theorem upperRuns_capitalA : ∀ run ∈ Table.upperRuns,
    'A'.toNat < run.2.2.2 ∨ run.2.2.2 + (run.2.1 - run.1) < 'A'.toNat
      ∨ run.2.2.2 = 'A'.toNat ∧ run.1 = 'a'.toNat := by
  decide +kernel

/-- A character that no table has is its own upper case. -/
theorem upper_eq_self {c : Char} (hexpansion : Table.upperExpansions.lookup c.toNat = none)
    (hrun : shifted? Table.upperRuns c.toNat = none) : upper c = [c] := by
  rw [upper, hexpansion, hrun]

/-- A character has an expansion, or stands in a run, or is its own upper-case form. -/
theorem upper_cases (c : Char) :
    (∃ codes, (c.toNat, codes) ∈ Table.upperExpansions ∧ upper c = codes.map Char.ofNat)
      ∨ (∃ n, shifted? Table.upperRuns c.toNat = some n ∧ upper c = [Char.ofNat n])
      ∨ upper c = [c] := by
  -- the expansions are looked at before the runs
  cases hexpansion : Table.upperExpansions.lookup c.toNat with
  | some codes =>
    obtain ⟨before, after, htable, -⟩ := List.lookup_eq_some_iff.1 hexpansion
    exact .inl ⟨codes, by simp [htable], by rw [upper, hexpansion]⟩
  | none =>
    cases hrun : shifted? Table.upperRuns c.toNat with
    | some n => exact .inr (.inl ⟨n, rfl, by rw [upper, hexpansion, hrun]⟩)
    | none => exact .inr (.inr (upper_eq_self hexpansion hrun))

/-- A letter that a run leads to is its own upper-case form. -/
theorem upper_of_shifted {n m : Nat} (h : shifted? Table.upperRuns n = some m) :
    upper (Char.ofNat m) = [Char.ofNat m] := by
  obtain hcode | hcode := toNat_ofNat_or m
  · apply upper_eq_self
    · -- the run leads past every letter that has an expansion
      rw [hcode, List.lookup_eq_none_iff]
      intro expansion hexpansion
      obtain ⟨run, hrun, ⟨hfirst, hlast, -⟩, hm⟩ := exists_run_of_shifted? h
      have hapart := List.all_eq_true.1
        (List.all_eq_true.1 upperRuns_unexpanded _ hexpansion) _ hrun
      simp only [Bool.or_eq_true, Nat.blt_eq] at hapart
      rw [bne_iff_ne]
      omega
    · rw [hcode]
      exact shifted?_of_settled settled_upperRuns h
  · apply upper_eq_self
    · rw [hcode]
      decide +kernel
    · rw [hcode]
      decide +kernel

/-- The upper-case form of a character starts with a character that is its own. -/
theorem exists_upper_eq_cons (c : Char) : ∃ d ds, upper c = d :: ds ∧ upper d = [d] := by
  obtain ⟨codes, hmem, hupper⟩ | ⟨n, hn, hupper⟩ | hupper := upper_cases c
  · -- no expansion is empty, and each starts with a capital
    have hlength := one_lt_length_upperExpansions _ hmem
    cases codes with
    | nil => cases hlength
    | cons n codes => exact ⟨_, _, hupper, upper_head_upperExpansions _ hmem n rfl⟩
  · exact ⟨_, [], hupper, upper_of_shifted hn⟩
  · exact ⟨c, [], hupper, hupper⟩

/-- The ligature of two small letters has two capitals. -/
example : upper '\ufb01' = ['F', 'I'] ∧ upper 'F' = ['F'] := by decide +kernel

/-- The letter A is the upper-case form of no character but the two letters A. -/
theorem upper_eq_capitalA_iff {c : Char} : upper c = ['A'] ↔ c = 'a' ∨ c = 'A' := by
  constructor
  · intro h
    obtain ⟨codes, hmem, hupper⟩ | ⟨m, hm, hupper⟩ | hupper := upper_cases c
    · -- an expansion is longer than one letter
      have hlength : 1 < codes.length := one_lt_length_upperExpansions _ hmem
      have hone := congrArg List.length (hupper.symm.trans h)
      rw [List.length_map, List.length_singleton] at hone
      omega
    · obtain ⟨run, hrun, ⟨hfirst, hlast, -⟩, htarget⟩ := exists_run_of_shifted? hm
      -- only one run leads to the letter, from its small form
      have hletter := upperRuns_capitalA run hrun
      have hcode := toNat_ofNat_or m
      rw [List.singleton_inj.1 (hupper.symm.trans h)] at hcode
      have hpos : 'A'.toNat ≠ 0 := by decide
      exact .inl (Char.toNat_inj.1 (by omega))
    · exact .inr (List.singleton_inj.1 (hupper.symm.trans h))
  · rintro (rfl | rfl)
    · decide +kernel
    · decide +kernel

end RegisterMap.Text
