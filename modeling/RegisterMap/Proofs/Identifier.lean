import Mathlib.Data.List.DropRight
import RegisterMap.Proofs.Name

/-!
# Module names as identifiers

The name of a module is made of lower-case letters, digits and single
underscores and is told apart from the reserved words, but it need not be an
identifier. The digit that a name starts with is marked by an underscore, while
the underscores in front of a name are dropped without a look at what they
leave behind. So a name of underscores leads to an empty one, and a name in
which a digit follows the leading underscores to one that starts with a digit.

- `stem_cases`: how a module name starts
- `isIdentifier_toModule_iff`: which names make identifiers
-/

namespace RegisterMap.Name

/-! ## Identifiers -/

/-- A character that the names of modules hold: a lower-case letter, a digit or an underscore. -/
def isModuleChar (c : Char) : Bool := c.isLower || c.isDigit || c == '_'

/-- A name that a module can be declared under. -/
structure IsIdentifier (s : String) : Prop where
  nonempty : s ≠ ""
  chars : ∀ c ∈ s.toList, isModuleChar c = true
  head : startsWithDigit s.toList = false
  ne_underscore : s ≠ "_"
  not_reserved : s ∉ reserved

instance (s : String) : Decidable (IsIdentifier s) :=
  decidable_of_iff (s ≠ "" ∧ s.toList.all isModuleChar = true ∧ startsWithDigit s.toList = false
      ∧ s ≠ "_" ∧ s ∉ reserved) <| by
    constructor
    · intro h
      obtain ⟨hne, hchars, hhead, hunderscore, hreserved⟩ := h
      exact ⟨hne, List.all_eq_true.1 hchars, hhead, hunderscore, hreserved⟩
    · intro h
      exact ⟨h.nonempty, List.all_eq_true.2 h.chars, h.head, h.ne_underscore, h.not_reserved⟩

/-- The name has a character that is no underscore, and the first such one is no digit, unless the
    name starts with it. -/
def StartsWell (s : String) : Prop :=
  ∃ c cs, s.toList.dropWhile (· == '_') = c :: cs
    ∧ (c.isDigit = true → startsWithDigit s.toList = true)

/-! ## Lower case -/

/-- A word character in lower case may stand in the name of a module. -/
theorem isModuleChar_toLower {c : Char} (h : isWordChar c = true) :
    isModuleChar c.toLower = true :=
  forall_wordChar (P := fun c => isModuleChar c.toLower = true) (by decide +kernel) h

/-- Lower case makes no digit, and takes none away. -/
theorem isDigit_toLower {c : Char} (h : isWordChar c = true) : c.toLower.isDigit = c.isDigit :=
  forall_wordChar (P := fun c => c.toLower.isDigit = c.isDigit) (by decide +kernel) h

/-- Lower case makes no underscore. -/
theorem toLower_ne_underscore {c : Char} (h : isWordChar c = true) (hc : c ≠ '_') :
    c.toLower ≠ '_' :=
  forall_wordChar (P := fun c => c ≠ '_' → c.toLower ≠ '_') (by decide +kernel) h hc

/-! ## Underscores at both ends -/

/-- The underscores in front of a name are dropped. -/
theorem humps_dropWhile (cs : List Char) : humps '_' (cs.dropWhile (· == '_')) = humps '_' cs := by
  induction cs with
  | nil => rfl
  | cons c cs ih =>
    by_cases hc : c = '_'
    · rw [List.dropWhile_cons_of_pos (by simpa using hc), ih, humps, if_pos hc, if_pos rfl]
    · rw [List.dropWhile_cons_of_neg (by simpa using hc)]

/-- Any other first character is kept, with no underscore in front of it. -/
theorem humps_cons {c : Char} (hc : c ≠ '_') (cs : List Char) :
    humps '_' (c :: cs) = c.toLower :: humps c cs := by
  rw [humps, if_neg hc, if_neg (by simp [show '_'.isLower = false by decide])]

/-- Only underscores are trimmed to nothing. -/
theorem trimUnderscores_eq_nil_iff {cs : List Char} :
    trimUnderscores cs = [] ↔ ∀ c ∈ cs, c = '_' := by
  show List.rdropWhile (· == '_') cs = [] ↔ _
  simp [List.rdropWhile_eq_nil_iff]

/-- Characters of which one is no underscore keep the first one. -/
theorem exists_trimUnderscores_cons (c : Char) (cs : List Char) (h : ∃ b ∈ c :: cs, b ≠ '_') :
    ∃ rest, trimUnderscores (c :: cs) = c :: rest := by
  have hfront : trimUnderscores (c :: cs) <+: c :: cs := List.rdropWhile_prefix _ _
  have hne : trimUnderscores (c :: cs) ≠ [] := by
    rw [ne_eq, trimUnderscores_eq_nil_iff]
    obtain ⟨b, hb, hne⟩ := h
    exact fun hall => hne (hall b hb)
  -- trimming is at the end, so that the first character stays
  cases htrimmed : trimUnderscores (c :: cs) with
  | nil => exact absurd htrimmed hne
  | cons b rest =>
    rw [htrimmed, List.cons_prefix_cons] at hfront
    exact ⟨rest, by rw [hfront.1]⟩

/-- No text is trimmed to a single underscore. -/
theorem trimUnderscores_ne_underscore (cs : List Char) : trimUnderscores cs ≠ ['_'] := by
  intro h
  -- what has been trimmed stays as it is when it is trimmed again
  have hagain : trimUnderscores (trimUnderscores cs) = trimUnderscores cs :=
    List.rdropWhile_idempotent _ cs
  rw [h] at hagain
  exact absurd hagain (by decide)

/-- Underscores do not begin with a digit. -/
theorem startsWithDigit_of_forall {cs : List Char} (h : ∀ c ∈ cs, c = '_') :
    startsWithDigit cs = false := by
  cases cs with
  | nil => rfl
  | cons c cs =>
    rw [h c List.mem_cons_self]
    rfl

/-! ## Stems -/

/-- The name of a module before it is told apart from the reserved words. -/
def stem (s : String) : List Char :=
  trimUnderscores
    (if startsWithDigit s.toList then '_' :: humps '_' s.toList else humps '_' s.toList)

/-- The name of a module is its stem, with an underscore behind it if that is a keyword. -/
theorem toModule_eq (s : String) :
    toModule s = if reserved.contains (String.ofList (stem s)) then String.ofList (stem s) ++ "_"
      else String.ofList (stem s) := rfl

/-- A stem has the characters of a module only. -/
theorem isModuleChar_of_mem_stem {s : String} (h : AllWordChars s) {c : Char} (hc : c ∈ stem s) :
    isModuleChar c = true := by
  have hhumps : ∀ c ∈ humps '_' s.toList, isModuleChar c = true := by
    intro c hc
    obtain rfl | ⟨b, hb, rfl⟩ := eq_or_exists_of_mem_humps hc
    · rfl
    · exact isModuleChar_toLower (h b hb)
  have hmem := mem_of_mem_trimUnderscores hc
  -- an underscore is put in front of a digit
  split at hmem
  · obtain rfl | hmem := List.mem_cons.1 hmem
    · rfl
    · exact hhumps c hmem
  · exact hhumps c hmem

/-- A stem is empty if its name is made of underscores. Otherwise it starts with an underscore, if
    the name starts with a digit, and with the first character that is none, if it does not. -/
theorem stem_cases {s : String} (h : AllWordChars s) :
    (s.toList.dropWhile (· == '_') = [] ∧ stem s = [])
      ∨ ∃ c cs rest, s.toList.dropWhile (· == '_') = c :: cs
        ∧ stem s = (if startsWithDigit s.toList then '_' else c.toLower) :: rest := by
  unfold stem
  cases hcore : s.toList.dropWhile (· == '_') with
  | nil =>
    left
    have hhumps : humps '_' s.toList = [] := by rw [← humps_dropWhile, hcore, humps]
    have hdigit : startsWithDigit s.toList = false :=
      startsWithDigit_of_forall (by simpa using hcore)
    rw [hhumps, hdigit]
    exact ⟨rfl, rfl⟩
  | cons c cs =>
    right
    have hc : c ≠ '_' := by
      have := List.head?_dropWhile_not (· == '_') s.toList
      rw [hcore] at this
      simpa using this
    have hmem : c ∈ s.toList := (List.dropWhile_sublist _).subset (hcore ▸ List.mem_cons_self)
    have hlower : c.toLower ≠ '_' := toLower_ne_underscore (h c hmem) hc
    have hhumps : humps '_' s.toList = c.toLower :: humps c cs := by
      rw [← humps_dropWhile, hcore, humps_cons hc]
    -- the first character that is no underscore keeps the trimming from going on to the front
    rw [hhumps]
    split
    · obtain ⟨rest, hrest⟩ := exists_trimUnderscores_cons '_' (c.toLower :: humps c cs)
        ⟨c.toLower, by simp, hlower⟩
      exact ⟨c, cs, rest, rfl, hrest⟩
    · obtain ⟨rest, hrest⟩ := exists_trimUnderscores_cons c.toLower (humps c cs)
        ⟨c.toLower, by simp, hlower⟩
      exact ⟨c, cs, rest, rfl, hrest⟩

/-- A stem can be declared, apart from the reserved words, if it is not empty and starts with no
    digit. -/
theorem startsWell_iff {s : String} (h : AllWordChars s) :
    StartsWell s ↔ stem s ≠ [] ∧ startsWithDigit (stem s) = false := by
  unfold StartsWell
  -- what is behind the underscores at the start decides: nothing, or a first character
  obtain ⟨hcore, hstem⟩ | ⟨c, cs, rest, hcore, hstem⟩ := stem_cases h
  · simp [hcore, hstem]
  · have hc : c.toLower.isDigit = c.isDigit :=
      isDigit_toLower (h c ((List.dropWhile_sublist _).subset (hcore ▸ List.mem_cons_self)))
    rw [hcore, hstem]
    cases hdigit : startsWithDigit s.toList with
    | true => simp [startsWithDigit]
    | false => simp [startsWithDigit, hc]

/-! ## Reserved words -/

/-- The stem is the name, unless it is a reserved word: that is marked by an underscore. -/
theorem toModule_cases (s : String) :
    (toModule s = String.ofList (stem s) ∧ String.ofList (stem s) ∉ reserved)
      ∨ ∃ word ∈ reserved, stem s = word.toList ∧ toModule s = word ++ "_" := by
  rw [toModule_eq]
  split
  · next hmem =>
    exact .inr ⟨_, List.contains_iff_mem.1 hmem, String.toList_ofList.symm, rfl⟩
  · next hmem =>
    exact .inl ⟨rfl, fun h => hmem (List.contains_iff_mem.2 h)⟩

/-- Marked words are identifiers, and were none for no other reason than that they are reserved. -/
theorem isIdentifier_of_mem_reserved {word : String} (h : word ∈ reserved) :
    IsIdentifier (word ++ "_") ∧ word.toList ≠ [] ∧ startsWithDigit word.toList = false := by
  have hall : ∀ word ∈ reserved,
      IsIdentifier (word ++ "_") ∧ word.toList ≠ [] ∧ startsWithDigit word.toList = false := by
    decide +kernel
  exact hall word h

/-! ## Names that make identifiers -/

/-- The name of a module has characters of modules only, is no lone underscore and no reserved word.
    It is an identifier exactly if the name that it was made from starts well. -/
theorem isIdentifier_toModule_iff {s : String} (h : isWord s = true) :
    (∀ c ∈ (toModule s).toList, isModuleChar c = true) ∧ toModule s ≠ "_"
      ∧ toModule s ∉ reserved ∧ (IsIdentifier (toModule s) ↔ StartsWell s) := by
  have hword : AllWordChars s := allWordChars_of_isWord h
  rw [startsWell_iff hword]
  -- the stem is the name, or it is a keyword that is marked
  obtain ⟨hname, hreserved⟩ | ⟨word, hmem, hstem, hname⟩ := toModule_cases s
  · have hchars : ∀ c ∈ (String.ofList (stem s)).toList, isModuleChar c = true := by
      rw [String.toList_ofList]
      exact fun c => isModuleChar_of_mem_stem hword
    have hunderscore : String.ofList (stem s) ≠ "_" := by
      intro heq
      have hlist := congrArg String.toList heq
      rw [String.toList_ofList] at hlist
      exact trimUnderscores_ne_underscore _ hlist
    rw [hname]
    refine ⟨hchars, hunderscore, hreserved, ?_⟩
    constructor
    · intro hid
      exact ⟨fun hnil => hid.nonempty (by rw [hnil]), by simpa using hid.head⟩
    · intro hstem
      refine ⟨fun hempty => hstem.1 ?_, hchars, by simpa using hstem.2, hunderscore, hreserved⟩
      have hlist := congrArg String.toList hempty
      rwa [String.toList_ofList] at hlist
  · obtain ⟨hid, hne, hhead⟩ := isIdentifier_of_mem_reserved hmem
    rw [hname, hstem]
    exact ⟨hid.chars, hid.ne_underscore, hid.not_reserved, iff_of_true hid ⟨hne, hhead⟩⟩

/-- A keyword is kept from being the name. -/
theorem isIdentifier_toModule_type :
    isWord "__TYPE" = true ∧ toModule "__TYPE" = "type_" ∧ IsIdentifier (toModule "__TYPE") := by
  refine ⟨by decide, by decide +kernel, ?_⟩
  exact (isIdentifier_toModule_iff (s := "__TYPE") (by decide)).2.2.2.2
    ⟨'T', ['Y', 'P', 'E'], by decide +kernel, by decide⟩

/-- The underscore in front of a digit is dropped, although no identifier starts with a digit. -/
theorem not_isIdentifier_toModule_underscoreDigit :
    (isWord "_1" = true ∧ toModule "_1" = "1")
      ∧ ¬ ∀ s, isWord s = true → IsIdentifier (toModule s) := by
  refine ⟨⟨by decide, by decide +kernel⟩, fun h => ?_⟩
  exact absurd (h "_1" (by decide)).head (by decide +kernel)

end RegisterMap.Name
