import RegisterMap.Name

/-!
# Theory of names

Constants and modules have names of word characters, as the declarations have
that they are made from. A module may have an empty name, which a name of
underscores leads to.
-/

namespace RegisterMap.Name

/-! ## Word characters -/

/-- All characters are letters, digits or underscores. Such a name may be empty. -/
def AllWordChars (s : String) : Prop := ∀ c ∈ s.toList, isWordChar c = true

instance (s : String) : Decidable (AllWordChars s) :=
  decidable_of_iff (s.toList.all isWordChar = true) List.all_eq_true

/-- A word is not empty, and has word characters only. -/
theorem isWord_iff {s : String} : isWord s = true ↔ s.toList ≠ [] ∧ AllWordChars s := by
  simp [isWord, AllWordChars]

/-- A word has word characters only. -/
theorem allWordChars_of_isWord {s : String} (h : isWord s = true) : AllWordChars s :=
  (isWord_iff.1 h).2

/-- What holds of the word characters among the first 128 holds of all of them. -/
theorem forall_wordChar {P : Char → Prop}
    (h : ∀ n < 128, isWordChar (Char.ofNat n) = true → P (Char.ofNat n)) {c : Char}
    (hc : isWordChar c = true) : P c := by
  have hlt : c.toNat < 128 := by
    -- the ranges of the upper-case letters, the lower-case letters and the digits
    have hc : (decide (c.val ≥ 65 ∧ c.val ≤ 90) || c.val ≥ 97 && c.val ≤ 122
        || c.val ≥ 48 && c.val ≤ 57 || c == '_') = true := hc
    simp only [Bool.or_eq_true, Bool.and_eq_true, decide_eq_true_eq, beq_iff_eq] at hc
    obtain ((⟨_, h⟩ | ⟨_, h⟩) | ⟨_, h⟩) | h := hc
    · exact Nat.lt_of_le_of_lt (UInt32.le_iff_toNat_le.1 h) (by decide)
    · exact Nat.lt_of_le_of_lt (UInt32.le_iff_toNat_le.1 h) (by decide)
    · exact Nat.lt_of_le_of_lt (UInt32.le_iff_toNat_le.1 h) (by decide)
    · rw [h]
      decide
  have := h c.toNat hlt
  rw [Char.ofNat_toNat] at this
  exact this hc

/-- Upper case keeps a word character one. -/
theorem isWordChar_toUpper {c : Char} (h : isWordChar c = true) :
    isWordChar c.toUpper = true :=
  forall_wordChar (P := fun c => isWordChar c.toUpper = true) (by decide +kernel) h

/-- So does lower case. -/
theorem isWordChar_toLower {c : Char} (h : isWordChar c = true) :
    isWordChar c.toLower = true :=
  forall_wordChar (P := fun c => isWordChar c.toLower = true) (by decide +kernel) h

/-! ## Constants -/

/-- The name of a constant has word characters only, if its source does. -/
theorem allWordChars_toConstant {s : String} (h : AllWordChars s) :
    AllWordChars (toConstant s) := by
  have hmap : ∀ c ∈ s.toList.map Char.toUpper, isWordChar c = true := by
    intro c hc
    obtain ⟨b, hb, hbc⟩ := List.mem_map.1 hc
    exact hbc ▸ isWordChar_toUpper (h b hb)
  unfold AllWordChars toConstant
  rw [String.toList_ofList]
  -- a digit in front gets an underscore
  split
  · exact List.forall_mem_cons.2 ⟨rfl, hmap⟩
  · exact hmap

/-! ## Modules -/

/-- Humps are made of underscores and of the characters in lower case. -/
theorem eq_or_exists_of_mem_humps {prev c : Char} {cs : List Char} (hc : c ∈ humps prev cs) :
    c = '_' ∨ ∃ b ∈ cs, b.toLower = c := by
  induction cs generalizing prev with
  | nil => exact absurd hc List.not_mem_nil
  | cons b cs ih =>
    -- every branch adds underscores and the character in lower case only
    rw [humps] at hc
    grind

/-- Humps put underscores between word characters, and no more. -/
theorem isWordChar_of_mem_humps {prev c : Char} {cs : List Char}
    (h : ∀ b ∈ cs, isWordChar b = true) (hc : c ∈ humps prev cs) : isWordChar c = true := by
  obtain rfl | ⟨b, hb, rfl⟩ := eq_or_exists_of_mem_humps hc
  · rfl
  · exact isWordChar_toLower (h b hb)

/-- Trimming puts nothing in. -/
theorem mem_of_mem_trimUnderscores {c : Char} {cs : List Char} (h : c ∈ trimUnderscores cs) :
    c ∈ cs :=
  List.mem_reverse.1 ((List.dropWhile_sublist _).subset (List.mem_reverse.1 h))

/-- Texts of word characters may be joined. -/
theorem allWordChars_append {s t : String} (hs : AllWordChars s) (ht : AllWordChars t) :
    AllWordChars (s ++ t) := by
  intro c hc
  rw [String.toList_append, List.mem_append] at hc
  exact hc.elim (hs c) (ht c)

/-- The name of a module has word characters only, if its source does. -/
theorem allWordChars_toModule {s : String} (h : AllWordChars s) : AllWordChars (toModule s) := by
  have hhumps : ∀ c ∈ humps '_' s.toList, isWordChar c = true :=
    fun _ => isWordChar_of_mem_humps h
  have htrimmed : AllWordChars (String.ofList (trimUnderscores
      (if startsWithDigit s.toList then '_' :: humps '_' s.toList else humps '_' s.toList))) := by
    intro c hc
    rw [String.toList_ofList] at hc
    have hmem := mem_of_mem_trimUnderscores hc
    split at hmem
    · obtain hc | hc := List.mem_cons.1 hmem
      · exact hc ▸ rfl
      · exact hhumps c hc
    · exact hhumps c hmem
  -- a keyword gets an underscore behind it
  have hsuffix : ∀ name, AllWordChars name →
      AllWordChars (if reserved.contains name then name ++ "_" else name) := by
    intro name hname
    split
    · exact allWordChars_append hname (by decide)
    · exact hname
  exact hsuffix _ htrimmed

end RegisterMap.Name
