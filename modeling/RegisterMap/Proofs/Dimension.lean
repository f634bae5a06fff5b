import Mathlib.Data.Nat.Find
import RegisterMap.Declared.Dimension
import RegisterMap.Proofs.Blank
import RegisterMap.Proofs.Checked
import RegisterMap.Proofs.Numeral

/-!
# Theory of dimensions

What can be said of the elements of a row before their names are checked: their
offsets are words, and no blank stands at the ends of their names, because none
does at the ends of the declared name and of an index. So the names and the
offsets can be written into a description and are read from it as they are.

- `Dimension.instances_eq_ok_iff`, `Dimension.instances_eq_error_iff`: which
  elements a row has, and when there is no row
- `Expansion.wellFormed_of_gives`: what they are like
-/

namespace RegisterMap

open Text (IsTrimmed)

/-- A text that can be put into the place of a mark: no blank stands at its ends. -/
structure Dimension.IsIndex (s : String) : Prop where
  nonempty : s.toList ≠ []
  trimmed : IsTrimmed s.toList

/-- An element of a row that can be declared on its own. -/
structure Instance.WellFormed (x : Instance) : Prop where
  name : IsTrimmed x.name.toList
  offset : x.offset < Word.limit

namespace Dimension

/-! ## Indices -/

/-- A numeral can be an index. -/
theorem isIndex_toString (n : Nat) : IsIndex (toString n) where
  nonempty := by
    rw [Nat.toString_eq_repr, Nat.toList_repr]
    exact Nat.toDigits_ne_nil
  trimmed := Numeral.isTrimmed_toString n

/-- What is read as a letter is one. -/
theorem isAlpha_of_letter? {cs : List Char} {c : Char} (h : letter? cs = some c) :
    c.isAlpha = true := by
  unfold letter? at h
  split at h
  · next b =>
    -- a single character, and a letter
    split at h
    · next halpha => exact Option.some.inj h ▸ halpha
    · cases h
  · cases h

/-- The upper-case letters, by their code points. -/
theorem isUpper_iff {c : Char} : c.isUpper = true ↔ 65 ≤ c.toNat ∧ c.toNat ≤ 90 := by
  have hbounds : c.isUpper = decide ('A'.val ≤ c.val ∧ c.val ≤ 'Z'.val) := rfl
  rw [hbounds, decide_eq_true_iff]
  rfl

/-- The lower-case letters, by their code points. -/
theorem isLower_iff {c : Char} : c.isLower = true ↔ 97 ≤ c.toNat ∧ c.toNat ≤ 122 := by
  have hbounds : c.isLower = (decide ('a'.val ≤ c.val) && decide (c.val ≤ 'z'.val)) := rfl
  rw [hbounds, Bool.and_eq_true, decide_eq_true_iff, decide_eq_true_iff]
  rfl

/-- The letters, by their code points. -/
theorem isAlpha_iff {c : Char} :
    c.isAlpha = true ↔ 65 ≤ c.toNat ∧ c.toNat ≤ 90 ∨ 97 ≤ c.toNat ∧ c.toNat ≤ 122 := by
  have hcases : c.isAlpha = (c.isUpper || c.isLower) := rfl
  rw [hcases, Bool.or_eq_true, isUpper_iff, isLower_iff]

/-- The letters are between `A` and `z`. -/
theorem toNat_of_isAlpha {c : Char} (h : c.isAlpha = true) : 65 ≤ c.toNat ∧ c.toNat ≤ 122 := by
  have hcases := isAlpha_iff.1 h
  omega

/-- All code points between two letters belong to characters that are no blanks. -/
theorem isIndex_of_mem_letters {low high : Char} (hlow : low.isAlpha = true)
    (hhigh : high.isAlpha = true) {s : String} (h : s ∈ letters low high) : IsIndex s := by
  obtain ⟨n, hn, rfl⟩ := List.mem_map.1 h
  have hfirst := toNat_of_isAlpha hlow
  have hlast := toNat_of_isAlpha hhigh
  rw [List.mem_range'_1] at hn
  -- between `A` and `z` there is no blank
  have hblank : ∀ n < 123, 65 ≤ n → Text.isBlank (Char.ofNat n) = false := by decide
  refine ⟨by simp [Char.toString], Text.isTrimmed_of_forall ?_⟩
  simpa [Char.toString] using hblank n (by omega) (by omega)

/-- A range of numbers is listed if there is room for all of them. -/
theorem numbers_eq_ok_iff {low high : Nat} {index : List String} :
    numbers low high = .ok index
      ↔ high + 1 - low ≤ maxEntries
        ∧ index = (List.range' low (high + 1 - low)).map toString := by
  unfold numbers
  split
  · next hlong => simp [Nat.not_le.2 hlong]
  · next hroom => simp [Nat.not_lt.1 hroom, eq_comm]

/-- All indices of a range are numerals, or characters between two letters. -/
theorem isIndex_of_mem_range {low high : List Char} {index : List String}
    (h : range low high = .ok index) : ∀ s ∈ index, IsIndex s := by
  intro s hs
  unfold range at h
  -- a range of numbers, or else one of letters
  split at h
  · split at h
    · cases h
    · obtain ⟨_, rfl⟩ := numbers_eq_ok_iff.1 h
      obtain ⟨n, _, rfl⟩ := List.mem_map.1 hs
      exact isIndex_toString n
  · split at h
    · next l h' hlow hhigh =>
      split at h
      · cases h
      · obtain rfl := Except.ok.inj h
        exact isIndex_of_mem_letters (isAlpha_of_letter? hlow) (isAlpha_of_letter? hhigh) hs
    · cases h

/-- The entries of a list are trimmed, and an empty one is refused. -/
theorem isIndex_of_mem_entries {text : List Char} {index : List String}
    (h : entries text = .ok index) : ∀ s ∈ index, IsIndex s := by
  intro s hs
  unfold entries at h
  simp only at h
  split at h
  · cases h
  · next hempty =>
    obtain rfl := Except.ok.inj h
    -- an empty entry would have been refused, and the blanks at the ends are cut off
    constructor
    · intro hnil
      rw [String.toList_eq_nil_iff] at hnil
      exact hempty (List.contains_iff_mem.2 (hnil ▸ hs))
    · obtain ⟨part, _, rfl⟩ := List.mem_map.1 hs
      rw [String.toList_ofList]
      exact Text.isTrimmed_trimChars part

/-- Whatever a text lists can be put into a name. -/
theorem isIndex_of_mem_indices {text : List Char} {index : List String}
    (h : indices text = .ok index) : ∀ s ∈ index, IsIndex s := by
  unfold indices at h
  split at h
  · exact isIndex_of_mem_entries h
  · split at h
    · exact isIndex_of_mem_entries h
    · exact isIndex_of_mem_range h

/-! ## Names -/

/-- A dimension whose indices, if it lists any, are as many as it counts. -/
structure WellFormed (d : Dimension) : Prop where
  length : ∀ labels, d.index = some labels → labels.length = d.count
  index : ∀ labels, d.index = some labels → ∀ s ∈ labels, IsIndex s

/-- The indices of a dimension are those of its text, if they are as many as it counts. -/
theorem gives_toIndex {content : String} {count : Nat} {loc : Location} {index : List String} :
    (toIndex content count loc).Gives index
      ↔ indices content.toList = .ok index ∧ index.length = count := by
  unfold toIndex
  split
  · next flaw h => simp [h]
  · -- the text lists something, so that only the number of indices is left to compare
    next labels h =>
    rw [h]
    split
    · next hlength =>
      rw [Checked.gives_pure, Except.ok.injEq]
      exact ⟨fun heq => ⟨heq, heq ▸ hlength⟩, And.left⟩
    · next hlength =>
      simp only [Checked.gives_fail, Except.ok.injEq, false_iff, not_and]
      intro heq
      exact heq ▸ hlength

/-- What the dimension of a declaration says, part by part. -/
theorem gives_read? {e : Xml.Element} {loc : Location} {d : Dimension} :
    (read? e loc).Gives (some d)
      ↔ (e.childText? "dim").bind Numeral.scalar? = some d.count
        ∧ (match e.childText? "dimIncrement" with
          | none => d.increment = 1
          | some content => Numeral.scalar? content = some d.increment)
        ∧ (match e.childText? "dimIndex" with
          | none => d.index = none
          | some content => ∃ labels, d.index = some labels ∧ indices content.toList = .ok labels
            ∧ labels.length = d.count) := by
  obtain ⟨count, increment, index⟩ := d
  unfold read?
  cases e.childText? "dim" with
  | none => simp
  | some content =>
    -- the increment and the index may be absent, each on its own
    cases e.childText? "dimIncrement" <;> cases e.childText? "dimIndex"
    all_goals
      simp only [toNumber, Checked.gives_bind, Checked.gives_require, Checked.gives_pure,
        Checked.gives_map, gives_toIndex, Option.some.injEq, Dimension.mk.injEq, Option.bind_some]
      grind

/-- A dimension that has been read is well-formed. -/
theorem wellFormed_of_gives {e : Xml.Element} {loc : Location} {d : Dimension}
    (h : (read? e loc).Gives (some d)) : d.WellFormed := by
  obtain ⟨_, _, hindex⟩ := gives_read?.1 h
  split at hindex
  · -- a dimension without a text of indices lists nothing
    constructor <;> simp [hindex]
  · obtain ⟨listed, hd, hlisted, hlength⟩ := hindex
    constructor
    · intro labels heq
      rw [hd] at heq
      exact Option.some.inj heq ▸ hlength
    · intro labels heq
      rw [hd] at heq
      exact Option.some.inj heq ▸ isIndex_of_mem_indices hlisted

/-- Every place of a row has a label that can be put into a name. -/
theorem WellFormed.isIndex_label {d : Dimension} (h : d.WellFormed) {i : Nat} (hi : i < d.count) :
    IsIndex (d.label i) := by
  unfold label
  -- without an index the labels are the positions
  split
  · exact isIndex_toString i
  · next labels hlabels =>
    have hlt : i < labels.length := h.length labels hlabels ▸ hi
    rw [List.getD_eq_getElem?_getD, List.getElem?_eq_getElem hlt, Option.getD_some]
    exact h.index labels hlabels _ (List.getElem_mem hlt)

/-- Replacing marks leaves no text empty, as an index is not empty. -/
theorem substitute_ne_nil {mark index cs : List Char} (hindex : index ≠ []) (hcs : cs ≠ []) :
    substitute mark index cs ≠ [] := by
  cases cs with
  | nil => exact absurd rfl hcs
  | cons c cs =>
    rw [substitute]
    -- what is put in a mark's place is not empty either
    split
    · simp [hindex]
    · exact List.cons_ne_nil _ _

/-- A text in which marks were replaced ends as it did before, or as the index does. -/
theorem getLast?_substitute (mark : List Char) {index : List Char} (hindex : index ≠ [])
    (cs : List Char) :
    (substitute mark index cs).getLast? = cs.getLast?
      ∨ (substitute mark index cs).getLast? = index.getLast? := by
  fun_induction substitute mark index cs with
  | case1 => exact .inl rfl
  | case2 c cs hmark ih =>
    -- a mark at the very end makes the index the end
    by_cases hrest : cs.drop (mark.length - 1) = []
    · right
      rw [hrest, substitute, List.append_nil]
    · have hsuffix : cs.drop (mark.length - 1) <:+ c :: cs :=
        (List.drop_suffix _ cs).trans (List.suffix_cons c cs)
      rw [List.getLast?_append_of_ne_nil _ (substitute_ne_nil hindex hrest),
        Text.getLast?_of_suffix hsuffix hrest]
      exact ih
  | case3 c cs hmark ih =>
    -- a character that is kept may itself be the end
    by_cases hrest : cs = []
    · left
      rw [hrest, substitute]
    · rw [List.getLast?_cons_of_ne_nil (substitute_ne_nil hindex hrest),
        List.getLast?_cons_of_ne_nil hrest]
      exact ih

/-- Replacing marks in a trimmed text by an index that is trimmed makes a trimmed text. -/
theorem isTrimmed_substitute {mark index cs : List Char} (hindex : index ≠ [])
    (htrimmed : IsTrimmed index) (hcs : IsTrimmed cs) : IsTrimmed (substitute mark index cs) where
  head c hc := by
    cases cs with
    | nil => simp [substitute] at hc
    | cons b cs =>
      -- the text begins with the index or as before
      rw [substitute] at hc
      split at hc
      · rw [List.head?_append_of_ne_nil _ hindex] at hc
        exact htrimmed.head c hc
      · exact hcs.head c hc
  last c hc := by
    obtain h | h := getLast?_substitute mark hindex cs
    · exact hcs.last c (h ▸ hc)
    · exact htrimmed.last c (h ▸ hc)

/-- The name of an element has no blanks at its ends. -/
theorem isTrimmed_elementName {template index : String} (ht : IsTrimmed template.toList)
    (hi : IsIndex index) : IsTrimmed (elementName template index).toList := by
  rw [elementName, String.toList_ofList]
  exact isTrimmed_substitute hi.nonempty hi.trimmed
    (isTrimmed_substitute hi.nonempty hi.trimmed ht)

/-! ## Rows -/

variable {d : Dimension} {template : String} {base : Nat} {loc : Location}

/-- The element at a place of a row: the index of the place is put into the declared name, and every
    place is one increment behind the one in front of it. -/
def element (d : Dimension) (template : String) (base i : Nat) : Instance :=
  ⟨elementName template (d.label i), base + i * d.increment⟩

/-- An offset that a word holds is the base and the increments up to the place. -/
theorem offset?_of_lt {i : Nat} (h : base + i * d.increment < Word.limit) :
    d.offset? base i = some (base + i * d.increment) := by
  have hmul : Word.mul? i d.increment = some (i * d.increment) :=
    Word.ofNat?_eq_some_iff.2 ⟨by omega, rfl⟩
  rw [offset?, hmul, Option.bind_some]
  exact Word.ofNat?_eq_some_iff.2 ⟨by omega, Nat.add_comm _ _⟩

/-- There is no offset beyond the words, whether the product or the sum is too large. -/
theorem offset?_of_le {i : Nat} (h : Word.limit ≤ base + i * d.increment) :
    d.offset? base i = none := by
  unfold offset?
  cases hmul : Word.mul? i d.increment with
  | none => rfl
  -- the product is a word, so that the sum is the one beyond
  | some m =>
    obtain ⟨_, rfl⟩ := Word.ofNat?_eq_some_iff.1 hmul
    exact Word.ofNat?_eq_none_iff.2 (by omega)

/-- If words hold the offsets of all places that are left, these places are listed. -/
theorem instancesFrom_of_lt {i left : Nat}
    (h : ∀ k, i ≤ k → k < i + left → base + k * d.increment < Word.limit) :
    d.instancesFrom template base loc i left
      = .ok ((List.range' i left).map (d.element template base)) := by
  induction left generalizing i with
  | zero => rfl
  | succ left ih =>
    have hrest := ih (i := i + 1) fun k hlow hhigh => h k (by omega) (by omega)
    rw [instancesFrom, offset?_of_lt (h i (Nat.le_refl i) (by omega)), hrest]
    rfl

/-- The first place whose offset no word holds is the one that is refused. -/
theorem instancesFrom_of_le {i left k : Nat} (hlow : i ≤ k) (hhigh : k < i + left)
    (hk : Word.limit ≤ base + k * d.increment)
    (hfirst : ∀ j, i ≤ j → j < k → base + j * d.increment < Word.limit) :
    d.instancesFrom template base loc i left
      = .error (.malformedDimension loc (template ++ "[" ++ d.label k ++ "]") .offsetOverflow) := by
  induction left generalizing i with
  | zero => omega
  | succ left ih =>
    rw [instancesFrom]
    -- the place is the next one, or it comes later and the next one fits
    obtain rfl | hlt := Nat.eq_or_lt_of_le hlow
    · rw [offset?_of_le hk]
    · have hrest := ih (i := i + 1) hlt (by omega) fun j hj => hfirst j (by omega)
      rw [offset?_of_lt (hfirst i (Nat.le_refl i) hlt), hrest]
      rfl

/-- Words hold all offsets of a row, or there is a first one that none holds. -/
theorem fits_or_exists_first (d : Dimension) (base : Nat) :
    (∀ k < d.count, base + k * d.increment < Word.limit)
      ∨ ∃ k < d.count, Word.limit ≤ base + k * d.increment
        ∧ ∀ j < k, base + j * d.increment < Word.limit := by
  by_cases h : ∃ k, k < d.count ∧ Word.limit ≤ base + k * d.increment
  · -- the first element that does not fit is the least one
    obtain ⟨hlt, hle⟩ := Nat.find_spec h
    refine .inr ⟨Nat.find h, hlt, hle, fun j hj => ?_⟩
    have hmin := Nat.find_min h hj
    omega
  · refine .inl fun k hk => ?_
    by_contra hle
    exact h ⟨k, hk, by omega⟩

/-- The elements of a row are those of its places, if words hold all of their offsets. -/
theorem instances_eq_ok_iff {xs : List Instance} :
    d.instances template base loc = .ok xs
      ↔ (∀ k < d.count, base + k * d.increment < Word.limit)
        ∧ xs = (List.range d.count).map (d.element template base) := by
  rw [List.range_eq_range', instances]
  constructor
  · intro h
    -- a row with a first place that does not fit is refused
    obtain hfits | ⟨k, hk, hle, hfirst⟩ := d.fits_or_exists_first base
    · rw [instancesFrom_of_lt fun k _ hk => hfits k (by omega)] at h
      exact ⟨hfits, (Except.ok.inj h).symm⟩
    · rw [instancesFrom_of_le (Nat.zero_le k) (by omega) hle fun j _ hj => hfirst j hj] at h
      cases h
  · intro h
    obtain ⟨hfits, rfl⟩ := h
    exact instancesFrom_of_lt fun k _ hk => hfits k (by omega)

/-- A row is refused at the first place whose offset no word holds. -/
theorem instances_eq_error_iff {f : Fault} :
    d.instances template base loc = .error f
      ↔ ∃ k < d.count, Word.limit ≤ base + k * d.increment
        ∧ (∀ j < k, base + j * d.increment < Word.limit)
        ∧ f = .malformedDimension loc (template ++ "[" ++ d.label k ++ "]") .offsetOverflow := by
  rw [instances]
  constructor
  · intro h
    -- if all elements fit there is no fault, else that of the first one that does not
    obtain hfits | ⟨k, hk, hle, hfirst⟩ := d.fits_or_exists_first base
    · rw [instancesFrom_of_lt fun k _ hk => hfits k (by omega)] at h
      cases h
    · rw [instancesFrom_of_le (Nat.zero_le k) (by omega) hle fun j _ hj => hfirst j hj] at h
      exact ⟨k, hk, hle, hfirst, (Except.error.inj h).symm⟩
  · intro h
    obtain ⟨k, hk, hle, hfirst, rfl⟩ := h
    exact instancesFrom_of_le (Nat.zero_le k) (by omega) hle fun j _ hj => hfirst j hj

/-- The offsets of a row grow, so that the last one decides whether words hold all of them. -/
theorem fits_iff_last (d : Dimension) (base : Nat) :
    (∀ k < d.count, base + k * d.increment < Word.limit)
      ↔ ¬ (0 < d.count ∧ Word.limit ≤ base + (d.count - 1) * d.increment) := by
  constructor
  · intro h hlast
    exact absurd (h (d.count - 1) (by omega)) (by omega)
  · intro h k hk
    -- no place is further than the last one
    have hmono : k * d.increment ≤ (d.count - 1) * d.increment :=
      Nat.mul_le_mul_right d.increment (by omega)
    omega

end Dimension

/-- The elements of a row can be declared one by one, if the name of the row is trimmed. -/
theorem Expansion.wellFormed_of_gives {e : Xml.Element} {name : String} {base : Nat}
    {loc : Location} {xs : List Instance} (hname : IsTrimmed name.toList)
    (h : (Expansion.read e name base loc).Gives (.row xs)) : ∀ x ∈ xs, x.WellFormed := by
  rw [Expansion.read, Checked.gives_bind] at h
  obtain ⟨d?, hd, h⟩ := h
  cases d? with
  | none => simp at h
  | some d =>
    simp only [Checked.gives_bind, Checked.gives_ofExcept, Checked.gives_pure,
      Expansion.row.injEq] at h
    obtain ⟨_, hxs, rfl⟩ := h
    obtain ⟨hfits, rfl⟩ := Dimension.instances_eq_ok_iff.1 hxs
    intro x hx
    obtain ⟨k, hk, rfl⟩ := List.mem_map.1 hx
    have hlt : k < d.count := List.mem_range.1 hk
    -- the label of the place is put into the declared name
    have hindex := (Dimension.wellFormed_of_gives hd).isIndex_label hlt
    exact ⟨Dimension.isTrimmed_elementName hname hindex, hfits k hlt⟩

end RegisterMap
