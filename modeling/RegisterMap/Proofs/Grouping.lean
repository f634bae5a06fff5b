import RegisterMap.Proofs.Scalar

/-!
# Theory of grouped numerals

A number above nine is written in hexadecimal digits, in groups of four that are
counted from the right, so that only the first group may be shorter. Without the
underscores between the groups the text stands for the number it was written
for, which makes the texts of different numbers differ.

- `exists_groups`: the groups of some digits
- `IsGrouped`: a number in groups of digits
- `grouped_reads_back`: the texts of numbers
-/

namespace RegisterMap.Numeral

/-! ## Groups -/

/-- Full groups hold a multiple of four digits. -/
theorem length_flatten_of_four {groups : List (List Char)} (h : ∀ g ∈ groups, g.length = 4) :
    groups.flatten.length % 4 = 0 := by
  induction groups with
  | nil => rfl
  | cons g groups ih =>
    obtain ⟨hg, hgroups⟩ := List.forall_mem_cons.1 h
    have hrest := ih hgroups
    rw [List.flatten_cons, List.length_append]
    omega

/-- Digits are taken apart into groups of four behind a first one that is not longer. -/
theorem exists_groups {ds : List Char} (hne : ds ≠ []) :
    ∃ (first : List Char) (groups : List (List Char)), ds = first ++ groups.flatten
      ∧ group ds = first ++ groups.flatMap ('_' :: ·)
      ∧ first ≠ [] ∧ first.length ≤ 4 ∧ ∀ g ∈ groups, g.length = 4 := by
  fun_induction group ds with
  | case1 => exact absurd rfl hne
  | case2 d ds hunderscore ih =>
    obtain ⟨first, groups, hds, hgroup, hfirst, hle, hgroups⟩ := ih hunderscore.1
    -- what stands behind the underscore is a first group, and a full one
    have hfour : first.length = 4 := by
      have hlength := congrArg List.length hds
      have hrest := length_flatten_of_four hgroups
      have hpos := List.length_pos_of_ne_nil hfirst
      rw [List.length_append] at hlength
      omega
    refine ⟨[d], first :: groups, ?_, ?_, List.cons_ne_nil _ _, by simp, ?_⟩
    · rw [hds, List.flatten_cons, List.singleton_append]
    · rw [hgroup, List.flatMap_cons, List.singleton_append, List.cons_append]
    · exact List.forall_mem_cons.2 ⟨hfour, hgroups⟩
  | case3 d ds hunderscore ih =>
    by_cases hds : ds = []
    · subst hds
      exact ⟨[d], [], rfl, rfl, List.cons_ne_nil _ _, by simp, by simp⟩
    · obtain ⟨first, groups, hsplit, hgroup, hfirst, hle, hgroups⟩ := ih hds
      -- no underscore is due, so that the first group has room for one more digit
      have hlt : first.length < 4 := by
        have hlength := congrArg List.length hsplit
        have hrest := length_flatten_of_four hgroups
        have hmod : ds.length % 4 ≠ 0 := fun hzero => hunderscore ⟨hds, hzero⟩
        rw [List.length_append] at hlength
        omega
      refine ⟨d :: first, groups, ?_, ?_, List.cons_ne_nil _ _, hlt, hgroups⟩
      · rw [List.cons_append, ← hsplit]
      · rw [hgroup, List.cons_append]

/-! ## Digits of numbers -/

/-- A positive number has no zero in front. -/
theorem head?_toDigits_ne_zero {n : Nat} (hn : 0 < n) : (Nat.toDigits 16 n).head? ≠ some '0' := by
  induction n using Nat.strongRecOn with
  | ind n ih =>
    rw [Nat.toDigits_eq_if (by decide)]
    -- the first digit is that of the quotient, unless there is one digit only
    by_cases hlt : n < 16
    · have hdigit : ∀ d < 16, 0 < d → d.digitChar ≠ '0' := by decide
      rw [if_pos hlt, List.head?_cons]
      exact fun h => hdigit n hlt hn (Option.some.inj h)
    · rw [if_neg hlt, List.head?_append_of_ne_nil _ Nat.toDigits_ne_nil]
      exact ih (n / 16) (by omega) (by omega)

/-! ## Texts -/

/-- A number in groups of hexadecimal digits: the first group has one to four of them, and no zero in
    front, and every other one has four of them behind an underscore. -/
def IsGrouped (cs : List Char) : Prop :=
  ∃ (first : List Char) (groups : List (List Char)), cs
    = '0' :: 'x' :: (first ++ groups.flatMap ('_' :: ·))
    ∧ (1 ≤ first.length ∧ first.length ≤ 4) ∧ first.head? ≠ some '0'
    ∧ (∀ g ∈ groups, g.length = 4) ∧ ∀ g ∈ first :: groups, ∀ c ∈ g, c ∈ lowerDigits

/-- The text of a number above nine is in groups. -/
theorem isGrouped_grouped {n : Nat} (hn : 9 < n) : IsGrouped (grouped n).toList := by
  have hlower : ∀ c ∈ Nat.toDigits 16 n, c ∈ lowerDigits :=
    forall_mem_toDigits (by decide) (by decide)
  have hzero := head?_toDigits_ne_zero (show 0 < n by omega)
  have hne : Nat.toDigits 16 n ≠ [] := Nat.toDigits_ne_nil
  -- the digits fall into groups, of which the first one may be short
  obtain ⟨first, groups, hdigits, hgroup, hfirst, hle, hgroups⟩ := exists_groups hne
  rw [hdigits] at hlower hzero
  rw [List.head?_append_of_ne_nil _ hfirst] at hzero
  refine ⟨first, groups, ?_, ⟨List.length_pos_of_ne_nil hfirst, hle⟩, hzero, hgroups, ?_⟩
  · rw [grouped, if_neg (by omega), String.toList_ofList, hgroup]
  · intro g hg c hc
    have hmem : c ∈ (first :: groups).flatten := List.mem_flatten.2 ⟨g, hg, hc⟩
    exact hlower c hmem

/-- The last digit stays behind all underscores. -/
theorem getLast?_group (ds : List Char) : (group ds).getLast? = ds.getLast? := by
  fun_induction group ds with
  | case1 => rfl
  | case2 d ds hunderscore ih =>
    -- no underscore stands at the end
    obtain ⟨e, es, rfl⟩ := List.exists_cons_of_ne_nil hunderscore.1
    simp only [List.getLast?_cons, ih]
    rfl
  | case3 d ds _ ih => rw [List.getLast?_cons, List.getLast?_cons, ih]

/-- No number starts or ends with an underscore. -/
theorem underscore_inside_grouped (n : Nat) :
    (grouped n).toList.head? ≠ some '_' ∧ (grouped n).toList.getLast? ≠ some '_' := by
  -- no digit is an underscore
  have hdecimal : ∀ c ∈ Nat.toDigits 10 n, c ≠ '_' := forall_mem_toDigits (by decide) (by decide)
  have hhexadecimal : ∀ c ∈ Nat.toDigits 16 n, c ≠ '_' :=
    forall_mem_toDigits (by decide) (by decide)
  unfold grouped
  split
  · rw [Nat.toString_eq_repr, Nat.toList_repr]
    exact ⟨fun h => hdecimal _ (List.mem_of_head? h) rfl,
      fun h => hdecimal _ (List.mem_of_getLast? h) rfl⟩
  · have hne : group (Nat.toDigits 16 n) ≠ [] := group_ne_nil Nat.toDigits_ne_nil
    have hlast : ('0' :: 'x' :: group (Nat.toDigits 16 n)).getLast? = (Nat.toDigits 16 n).getLast? :=
      (List.getLast?_append_of_ne_nil ['0', 'x'] hne).trans (getLast?_group _)
    rw [String.toList_ofList, hlast]
    exact ⟨by simp, fun h => hhexadecimal _ (List.mem_of_getLast? h) rfl⟩

/-- Without its underscores the text of a word stands for that word. -/
theorem scalar?_filter_grouped {n : Nat} (hn : n < Word.limit) :
    scalar? (String.ofList ((grouped n).toList.filter (· != '_'))) = some n := by
  by_cases hle : n ≤ 9
  · rw [grouped, if_pos hle, filter_toString, String.ofList_toList]
    exact scalar?_toString hn
  · rw [filter_grouped (Nat.lt_of_not_le hle)]
    exact scalar?_hex hn

/-- The text of a word reads back without its underscores, which stand between groups of four digits
    only, and no other word has it. -/
theorem grouped_reads_back {n : Nat} (hn : n < Word.limit) :
    scalar? (String.ofList ((grouped n).toList.filter (· != '_'))) = some n
      ∧ (9 < n → IsGrouped (grouped n).toList)
      ∧ ((grouped n).toList.head? ≠ some '_' ∧ (grouped n).toList.getLast? ≠ some '_')
      ∧ ∀ m < Word.limit, grouped m = grouped n → m = n := by
  refine ⟨scalar?_filter_grouped hn, isGrouped_grouped, underscore_inside_grouped n, ?_⟩
  intro m hm heq
  -- one text is read to one word only
  have hread := scalar?_filter_grouped hm
  rw [heq, scalar?_filter_grouped hn] at hread
  exact (Option.some.inj hread).symm

/-- An address is grouped and read back. -/
theorem grouped_reads_back_address :
    0x40020000 < Word.limit ∧ grouped 0x40020000 = "0x4002_0000"
      ∧ scalar? (String.ofList ("0x4002_0000".toList.filter (· != '_'))) = some 0x40020000
      ∧ IsGrouped "0x4002_0000".toList := by
  have htext : grouped 0x40020000 = "0x4002_0000" := by decide +kernel
  have hlt : 0x40020000 < Word.limit := by decide
  obtain ⟨hread, hgroups, -⟩ := grouped_reads_back hlt
  rw [htext] at hread hgroups
  exact ⟨hlt, htext, hread, hgroups (by decide)⟩

end RegisterMap.Numeral
