import RegisterMap.Proofs.BitSpan
import RegisterMap.Proofs.Marks
import RegisterMap.Proofs.RowNames

/-!
# Names made with ranges

A range is meant to be safe in a name: put into one that is otherwise a word,
every index of it makes a word. Numbers do, and so do letters of one case. But
letters are listed by their code points, and between `Z` and `a` there are six
characters that are no letters. So a range from an upper-case letter to a
lower-case one, and no other, makes a name that is refused.

- `Dimension.forall_allWordChars_iff`: which ranges list words only
- `Dimension.words_of_range_iff`: the names that they make, and the registers
  and fields of these names
-/

namespace RegisterMap

open Xml (Element)

namespace Dimension

/-! ## Patterns -/

/-- What a piece is written as. -/
def Piece.written : Piece → List Char
  | char c => [c]
  | bare => ['%', 's']
  | bracketed => ['[', '%', 's', ']']

/-- A declared name of marks, at least one, and of word characters. -/
def IsPattern (template : String) : Prop :=
  ∃ ps : List Piece, template.toList = ps.flatMap Piece.written
    ∧ (∀ c, .char c ∈ ps → Name.isWordChar c = true) ∧ ∃ p ∈ ps, p.isMark = true

/-- The pieces of which a pattern is made are those that are found in it. -/
theorem pieces_flatMap_written {ps : List Piece}
    (h : ∀ c, .char c ∈ ps → Name.isWordChar c = true) : pieces (ps.flatMap Piece.written) = ps := by
  induction ps with
  | nil => rfl
  | cons p ps ih =>
    have hrest := ih fun c hc => h c (List.mem_cons_of_mem p hc)
    cases p with
    | char c =>
      -- a word character begins no mark
      have hc : Name.isWordChar c = true := h c List.mem_cons_self
      have hbracket : c ≠ '[' := by
        rintro rfl
        exact absurd hc (by decide)
      have hpercent : c ≠ '%' := by
        rintro rfl
        exact absurd hc (by decide)
      rw [List.flatMap_cons, Piece.written, List.singleton_append,
        pieces.eq_3 _ _ (fun _ heq _ => hbracket heq) (fun _ heq _ => hpercent heq), hrest]
    | bare => simp [Piece.written, pieces, hrest]
    | bracketed => simp [Piece.written, pieces, hrest]

/-- An index without `%` makes a word of a pattern exactly if it is made of word characters. -/
theorem isWord_elementName_iff {template index : String} (h : IsPattern template)
    (hindex : index.toList ≠ []) (hsign : '%' ∉ index.toList) :
    Name.isWord (elementName template index) = true ↔ Name.AllWordChars index := by
  obtain ⟨ps, htemplate, hwords, p, hp, hmark⟩ := h
  have hpieces : pieces template.toList = ps := by rw [htemplate, pieces_flatMap_written hwords]
  have hapart : KeepsApart index.toList (pieces template.toList) := by
    refine keepsApart_pieces hsign fun _ hmem => ?_
    rw [hpieces] at hmem
    exact absurd (hwords _ hmem) (by decide)
  rw [(elementName_eq_filledName_iff hindex).2 (.inr hapart), filledName, hpieces, Name.isWord_iff,
    Name.AllWordChars, String.toList_ofList]
  -- the index stands in the place of the mark that the pattern has
  have hfilled : p.filled index.toList = index.toList := by cases p <;> trivial
  constructor
  · intro hname c hc
    exact hname.2 c (List.mem_flatMap.2 ⟨p, hp, by rwa [hfilled]⟩)
  · intro hlabel
    constructor
    · intro hnil
      exact hindex (hfilled.symm.trans (List.flatMap_eq_nil_iff.1 hnil p hp))
    · intro c hc
      obtain ⟨q, hq, hcq⟩ := List.mem_flatMap.1 hc
      cases q with
      | char b =>
        obtain rfl := List.mem_singleton.1 hcq
        exact hwords c hq
      | bare => exact hlabel c hcq
      | bracketed => exact hlabel c hcq

/-! ## Ranges -/

/-- The text is a range from an upper-case letter to a lower-case one. -/
def SpansCases (text : List Char) : Prop :=
  ∃ l h, HasBounds text [l] [h] ∧ l.isUpper = true ∧ h.isLower = true

/-- Whether a range goes from one case to the other is seen at its bounds. -/
theorem spansCases_iff {text low high : List Char} (h : HasBounds text low high) :
    SpansCases text
      ↔ ∃ a z, low = [a] ∧ high = [z] ∧ a.isUpper = true ∧ z.isLower = true := by
  constructor
  · intro hspans
    obtain ⟨a, z, hbounds, hupper, hlower⟩ := hspans
    obtain ⟨hlow, hhigh⟩ := h.unique hbounds
    exact ⟨a, z, hlow, hhigh, hupper, hlower⟩
  · intro hletters
    obtain ⟨a, z, rfl, rfl, hupper, hlower⟩ := hletters
    exact ⟨a, z, h, hupper, hlower⟩

/-- A label of a range is a numeral, or it is a character between two letters. -/
theorem numeral_or_char_of_lists {text : List Char} {labels : List String} (hcomma : ',' ∉ text)
    (hhyphen : '-' ∈ text) (h : Lists text labels) :
    ∀ s ∈ labels, (∃ n : Nat, s = toString n)
      ∨ ∃ n, 65 ≤ n ∧ n < 123 ∧ s = (Char.ofNat n).toString := by
  intro s hs
  cases h with
  | numbers =>
    obtain ⟨n, _, rfl⟩ := List.mem_map.1 hs
    exact .inl ⟨n, rfl⟩
  | @letters l h _ _ hlow hhigh _ =>
    -- a code point between those of two letters
    obtain ⟨n, hn, rfl⟩ := List.mem_map.1 hs
    rw [List.Ico.mem] at hn
    have hfirst : 65 ≤ l.toNat := (toNat_of_isAlpha hlow).1
    have hlast : h.toNat ≤ 122 := (toNat_of_isAlpha hhigh).2
    exact .inr ⟨n, by omega, by omega, rfl⟩
  | entries hlist => exact absurd (hlist.resolve_left hcomma) (not_not.2 hhyphen)

/-- A numeral has word characters only. -/
theorem allWordChars_toString (n : Nat) : Name.AllWordChars (toString n) := by
  rw [Name.AllWordChars, Nat.toString_eq_repr, Nat.toList_repr]
  exact Numeral.forall_mem_toDigits (by decide) (by decide)

/-- A range lists no index with a `%` in it. -/
theorem not_percent_of_lists {text : List Char} {labels : List String} (hcomma : ',' ∉ text)
    (hhyphen : '-' ∈ text) (h : Lists text labels) : ∀ s ∈ labels, '%' ∉ s.toList := by
  intro s hs hmem
  obtain ⟨n, rfl⟩ | ⟨n, hlow, hhigh, rfl⟩ := numeral_or_char_of_lists hcomma hhyphen h s hs
  · exact absurd (allWordChars_toString n '%' hmem) (by decide)
  · have hchar : ∀ n < 123, 65 ≤ n → '%' ≠ Char.ofNat n := by decide
    exact hchar n hhigh hlow (by simpa [Char.toString] using hmem)

/-- The characters from one letter to another are word characters, unless the first one is in upper
    case and the last one in lower case: all that are between `Z` and `a` then are between them. -/
theorem forall_letters_iff {a z : Char} (ha : a.isAlpha = true) (hz : z.isAlpha = true)
    (hle : a ≤ z) :
    (∀ n ∈ List.Ico a.toNat (z.toNat + 1), Name.AllWordChars (Char.ofNat n).toString)
      ↔ ¬ (a.isUpper = true ∧ z.isLower = true) := by
  have hle : a.toNat ≤ z.toNat := hle
  rw [isAlpha_iff] at ha hz
  rw [isUpper_iff, isLower_iff]
  constructor
  · intro hwords hcases
    -- the first character behind `Z`
    have hbracket : Name.AllWordChars (Char.ofNat 91).toString :=
      hwords 91 (List.Ico.mem.2 (by omega))
    exact absurd hbracket (by decide)
  · intro hcases n hn
    rw [List.Ico.mem] at hn
    have hword : ∀ n < 123, 65 ≤ n → (n ≤ 90 ∨ 97 ≤ n) →
        Name.AllWordChars (Char.ofNat n).toString := by
      decide
    exact hword n (by omega) (by omega) (by omega)

/-- A range lists words only, unless it is one of letters from one case to the other. -/
theorem forall_allWordChars_iff {text : List Char} {labels : List String} (hcomma : ',' ∉ text)
    (hhyphen : '-' ∈ text) (h : Lists text labels) :
    (∀ s ∈ labels, Name.AllWordChars s) ↔ ¬ SpansCases text := by
  cases h with
  | numbers _ hbounds hlow _ _ =>
    rw [spansCases_iff hbounds, List.forall_mem_map]
    constructor
    · intro _ hletters
      obtain ⟨a, _, rfl, _, hupper, _⟩ := hletters
      -- a bound that is a letter is no number
      exact not_isDecimal_letter (isAlpha_iff.2 (.inl (isUpper_iff.1 hupper))) _ hlow
    · exact fun _ n _ => allWordChars_toString n
  | letters _ hbounds hlow hhigh hle =>
    rw [spansCases_iff hbounds, List.forall_mem_map, forall_letters_iff hlow hhigh hle]
    simp
  | entries hlist => exact absurd (hlist.resolve_left hcomma) (not_not.2 hhyphen)

/-- The indices of an accepted range make words of a pattern, unless it is one of letters from one
    case to the other. -/
theorem forall_isWord_row_iff {e : Element} {loc : Location} {d : Dimension}
    (h : (read? e loc).Gives (some d)) {content : String}
    (hindex : e.childText? "dimIndex" = some content) (hcomma : ',' ∉ content.toList)
    (hhyphen : '-' ∈ content.toList) {template : String} (htemplate : IsPattern template)
    (base : Nat) :
    (∀ x ∈ d.row template base, Name.isWord x.name = true) ↔ ¬ SpansCases content.toList := by
  obtain ⟨_, _, hread⟩ := gives_read?.1 h
  simp only [hindex] at hread
  obtain ⟨listed, hd, hlisted, _⟩ := hread
  have hlabels : d.labels = listed := by rw [labels, hd]
  have hlists : Lists content.toList listed := lists_of_indices hlisted
  have hnames : (∀ x ∈ d.row template base, Name.isWord x.name = true)
      ↔ ∀ n ∈ (d.row template base).map Instance.name, Name.isWord n = true := by simp
  rw [hnames, map_name_row, hlabels, ← forall_allWordChars_iff hcomma hhyphen hlists,
    List.forall_mem_map]
  -- label by label: an index makes a word exactly if it is made of word characters
  refine forall₂_congr fun s hs => isWord_elementName_iff htemplate ?_ ?_
  · exact (isIndex_of_mem_indices hlisted s hs).nonempty
  · exact not_percent_of_lists hcomma hhyphen hlists s hs

end Dimension

/-! ## Refused names -/

/-- A sequence does not fail with a fault that none of its parts fails with. -/
theorem Checked.not_fails_bind {α β : Type} {x : Checked α} {g : α → Checked β} {f : Fault}
    (hx : ¬ x.Fails f) (hg : ∀ a, ¬ (g a).Fails f) : ¬ (x >>= g).Fails f := by
  simp [hx, hg]

section Refused

variable {e : Element} {d : Dimension} {loc : Location}
  (h : ∀ loc, (Dimension.read? e loc).Gives (some d)) {place : Location} {n : String}
include h

/-- The elements of an expansion are those of its row. -/
theorem Expansion.instances_of_gives {name : String} {base : Nat} {x : Expansion}
    (hread : (Expansion.read e name base loc).Gives x) : x.instances name base = d.row name base := by
  obtain ⟨xs, hxs, rfl⟩ := (Expansion.gives_row (h loc)).1 hread
  exact ((Dimension.wellFormed_of_gives (h loc)).instances_eq.1 hxs).2

/-- What stops the reading of an expansion is no name. -/
theorem Expansion.not_fails_invalidName {name : String} {base : Nat} :
    ¬ (Expansion.read e name base loc).Fails (.invalidName place n) := by
  rw [Expansion.read, Checked.fails_bind]
  intro hfails
  obtain hfails | ⟨d?, hd?, hfails⟩ := hfails
  · exact (h loc).not_fails _ hfails
  · -- there is a dimension, so only an offset may fail
    obtain rfl := (h loc).unique hd?
    simp only [Checked.fails_bind, Checked.fails_ofExcept, Dimension.instances_eq_error_iff,
      Checked.not_fails_pure, and_false, exists_false, or_false] at hfails
    obtain ⟨_, _, _, _, hfault⟩ := hfails
    cases hfault

end Refused

namespace Declared

variable {e : Element} {d : Dimension} {loc place : Location} {n : String}

/-- A name is refused if it is no word. -/
theorem fails_checkName {f : Fault} :
    (checkName n loc).Fails f ↔ Name.isWord n ≠ true ∧ .invalidName loc n = f := by
  unfold checkName
  split <;> simp_all

/-- An address is no name. -/
theorem not_fails_invalidName_address (tag : String) :
    ¬ (address e tag loc).Fails (.invalidName place n) := by
  refine Checked.not_fails_bind (by simp [text]) fun content => ?_
  refine Checked.not_fails_bind (by simp [toNumber]) fun value => ?_
  rw [Checked.fails_noteIf]
  exact Checked.not_fails_pure

/-- An access is never refused. -/
theorem not_fails_access (e : Element) (loc : Location) (f : Fault) : ¬ (access e loc).Fails f := by
  unfold access
  split
  · simp
  · split <;> simp

/-- The bits of a field are no name. -/
theorem not_fails_invalidName_bitSpan : ¬ (bitSpan e loc).Fails (.invalidName place n) := by
  intro h
  obtain ⟨tag, hf | ⟨content, hf⟩⟩ := fault_of_bitSpan h
  · cases hf
  · cases hf

section Row

variable (h : ∀ loc, (Dimension.read? e loc).Gives (some d)) {template : String}
  (hname : e.childText? "name" = some template)
  (hwords : ∀ base, ∀ x ∈ d.row template base, Name.isWord x.name = true)
include h hname hwords

/-- A row of fields whose names are words is not refused for a name. -/
theorem not_fails_invalidName_fieldRow : ¬ (fieldRow e loc).Fails (.invalidName place n) := by
  simp only [fieldRow, Checked.fails_bind, gives_text, hname, Option.some.injEq, exists_eq_left']
  intro hfails
  obtain hfails | hfails | ⟨span, _, hfails | ⟨expansion, hread, hfails⟩⟩ := hfails
  · simp [text] at hfails
  · exact not_fails_invalidName_bitSpan hfails
  · exact Expansion.not_fails_invalidName h hfails
  · obtain ⟨x, hx, hfails⟩ := Checked.exists_fails_of_mapM hfails
    rw [Expansion.instances_of_gives h hread] at hx
    -- every name of the row is a word
    simp [fails_checkName, hwords _ x hx] at hfails

/-- A row of registers whose names are words is not refused for a name, except for one of its
    fields. -/
theorem fails_fields_of_registerRow (hfails : (registerRow e loc).Fails (.invalidName place n)) :
    (fields e (loc.named template)).Fails (.invalidName place n) := by
  simp only [registerRow, Checked.fails_bind, gives_text, hname, Option.some.injEq,
    exists_eq_left', Checked.fails_noteIf, Checked.not_fails_pure, and_false, exists_false,
    or_false] at hfails
  -- every part that comes before the names and the fields fails in another way
  obtain hfails | hfails | ⟨base, _, hfails | ⟨_, _, hfails | ⟨expansion, hread, hfails⟩⟩⟩ := hfails
  · simp [text] at hfails
  · exact absurd hfails (not_fails_invalidName_address _)
  · exact absurd hfails (not_fails_access e _ _)
  · exact absurd hfails (Expansion.not_fails_invalidName h)
  · obtain hfails | ⟨_, _, hfails⟩ := hfails
    · obtain ⟨x, hx, hfails⟩ := Checked.exists_fails_of_forM hfails
      rw [Expansion.instances_of_gives h hread] at hx
      simp [fails_checkName, hwords _ x hx] at hfails
    · exact hfails

end Row
end Declared

/-- The names of a row whose indices are a range. Put into a declared name of marks and word
    characters, the indices make words, except if the range goes from an upper-case letter to a
    lower-case one, when some of its characters are no letters. Such a row of registers or fields
    is always refused, and any other is never refused for one of its names. -/
theorem Dimension.words_of_range_iff {e : Element} {loc : Location} {d : Dimension}
    (h : (read? e loc).Gives (some d)) {content : String}
    (hindex : e.childText? "dimIndex" = some content) (hcomma : ',' ∉ content.toList)
    (hhyphen : '-' ∈ content.toList) {template : String} (htemplate : IsPattern template) :
    (∀ base loc' xs, d.instances template base loc' = .ok xs →
        ((∀ x ∈ xs, Name.isWord x.name = true) ↔ ¬ SpansCases content.toList))
      ∧ (e.childText? "name" = some template → ∀ loc',
        (SpansCases content.toList → (∀ rs, ¬ (Declared.registerRow e loc').Gives rs)
          ∧ ∀ fs, ¬ (Declared.fieldRow e loc').Gives fs)
        ∧ (¬ SpansCases content.toList → ∀ place n,
          ((Declared.registerRow e loc').Fails (.invalidName place n) →
              (Declared.fields e (loc'.named template)).Fails (.invalidName place n))
            ∧ ¬ (Declared.fieldRow e loc').Fails (.invalidName place n))) := by
  have hrow : ∀ base, (∀ x ∈ d.row template base, Name.isWord x.name = true)
      ↔ ¬ SpansCases content.toList :=
    forall_isWord_row_iff h hindex hcomma hhyphen htemplate
  -- the dimension is the same at every location
  have hall : ∀ loc, (read? e loc).Gives (some d) := fun loc' => (alike_read? e loc loc' _).1 h
  constructor
  · intro base loc' xs hxs
    obtain ⟨_, rfl⟩ := (wellFormed_of_gives h).instances_eq.1 hxs
    exact hrow base
  · intro hname loc'
    refine ⟨fun hspans => ⟨fun rs hrs => ?_, fun fs hfs => ?_⟩, fun hspans place n => ⟨?_, ?_⟩⟩
    · -- a row that is read has words for names
      obtain ⟨name, base, expansion, _, hname', _, hread, hwords, _⟩ :=
        Declared.gives_registerRow.1 hrs
      obtain rfl := Option.some.inj (hname.symm.trans hname')
      rw [Expansion.instances_of_gives hall hread] at hwords
      exact (hrow base).1 hwords hspans
    · obtain ⟨name, span, expansion, hname', _, hread, hwords, _⟩ := Declared.gives_fieldRow.1 hfs
      obtain rfl := Option.some.inj (hname.symm.trans hname')
      rw [Expansion.instances_of_gives hall hread] at hwords
      exact (hrow span.offset).1 hwords hspans
    · exact Declared.fails_fields_of_registerRow hall hname fun base => (hrow base).2 hspans
    · exact Declared.not_fails_invalidName_fieldRow hall hname fun base => (hrow base).2 hspans

/-- Letters of one case make words. -/
theorem Dimension.words_of_range_letters :
    (read? (indexedRow "PORT%s" "3" "A-C") .device).Gives (some ⟨3, 4, some ["A", "B", "C"]⟩)
      ∧ instances ⟨3, 4, some ["A", "B", "C"]⟩ "PORT%s" 0x10 .device
        = .ok [⟨"PORTA", 0x10⟩, ⟨"PORTB", 0x14⟩, ⟨"PORTC", 0x18⟩]
      ∧ ∀ place n, ¬ (Declared.fieldRow (indexedRow "PORT%s" "3" "A-C") .device).Fails
        (.invalidName place n) := by
  have h : (read? (indexedRow "PORT%s" "3" "A-C") .device).Gives
      (some ⟨3, 4, some ["A", "B", "C"]⟩) := by
    decide +kernel
  have hrow : instances ⟨3, 4, some ["A", "B", "C"]⟩ "PORT%s" 0x10 .device
      = .ok [⟨"PORTA", 0x10⟩, ⟨"PORTB", 0x14⟩, ⟨"PORTC", 0x18⟩] := by
    decide +kernel
  -- four word characters and a mark
  have hpattern : IsPattern "PORT%s" := by
    refine ⟨[.char 'P', .char 'O', .char 'R', .char 'T', .bare], rfl, ?_, .bare, by simp, rfl⟩
    intro c hc
    obtain rfl | rfl | rfl | rfl : c = 'P' ∨ c = 'O' ∨ c = 'R' ∨ c = 'T' := by simpa using hc
    all_goals decide
  have hindex : (indexedRow "PORT%s" "3" "A-C").childText? "dimIndex" = some "A-C" := by
    decide +kernel
  obtain ⟨hwords, hrefused⟩ := words_of_range_iff h hindex (by decide) (by decide) hpattern
  have hspans : ¬ SpansCases "A-C".toList := (hwords _ _ _ hrow).1 (by decide)
  have hname : (indexedRow "PORT%s" "3" "A-C").childText? "name" = some "PORT%s" := by
    decide +kernel
  exact ⟨h, hrow, fun place n => ((hrefused hname .device).2 hspans place n).2⟩

/-- Behind `Z` comes an opening bracket. -/
theorem Dimension.not_words_of_range_mixedCase :
    ¬ ∀ (e : Element) (loc : Location) (d : Dimension), (read? e loc).Gives (some d) →
      ∀ content, e.childText? "dimIndex" = some content → ',' ∉ content.toList →
        '-' ∈ content.toList → ∀ template, IsPattern template →
        ∀ base loc' xs, d.instances template base loc' = .ok xs →
          ∀ x ∈ xs, Name.isWord x.name = true := by
  intro h
  have hread : (read? (indexedRow "R%s" "8" "Z-a") .device).Gives
      (some ⟨8, 4, some (letters 'Z' 'a')⟩) := by
    decide +kernel
  have hrow : instances ⟨8, 4, some (letters 'Z' 'a')⟩ "R%s" 0x10 .device
      = .ok (row ⟨8, 4, some (letters 'Z' 'a')⟩ "R%s" 0x10) := by
    decide +kernel
  have hpattern : IsPattern "R%s" := by
    refine ⟨[.char 'R', .bare], rfl, ?_, .bare, by simp, rfl⟩
    intro c hc
    obtain rfl : c = 'R' := by simpa using hc
    decide
  -- the second name of the row has the character behind `Z`
  have hword : Name.isWord "R[" = true := h _ _ _ hread "Z-a" (by decide +kernel) (by decide)
    (by decide) _ hpattern _ _ _ hrow ⟨"R[", 0x14⟩ (by decide +kernel)
  exact absurd hword (by decide)

end RegisterMap
