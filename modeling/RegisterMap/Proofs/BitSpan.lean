import RegisterMap.Proofs.Element
import RegisterMap.Proofs.Failing
import RegisterMap.Proofs.Numeral
import RegisterMap.Proofs.WellFormed

/-!
# The bits of a field

A declaration can give the bits of a field in three forms: by the lowest bit and
the width, by the lowest and the highest bit, or by both in brackets. The first
form that is begun decides, whatever stands in the others. There is one lemma
for each form, and what a declaration gives and how it fails follow from them.

Two things do not go with the rules that all numbers and all forms share. The
brackets hold decimal numbers only, and a form that is begun and not completed
is missing its second part even if a later form is complete.

- `Declared.bracketed?_eq_some_iff`: the texts in brackets that are read
- `Declared.same_bits_iff`: when the brackets say the same as the two bits
- `Declared.missing_part_iff`: when a part is missing though a form is complete
-/

namespace RegisterMap.Declared

open Xml (Element)
open Checked (Alike)
open Numeral (scalar? unsigned? isHexForm unsigned?_ten_eq_none unsigned?_ten_trimChars)
open Text (trimChars)

variable {e e' : Element} {loc : Location} {span : BitSpan} {f : Fault}

/-! ## What stops a number -/

/-- A number fails if its text is no scalar. -/
theorem fails_toNumber {content tag : String} :
    (toNumber content tag loc).Fails f
      ↔ scalar? content = none ∧ f = .invalidNumber loc tag content := by
  simp [toNumber, eq_comm]

/-- A required number fails if it is absent, or if its text is no scalar. -/
theorem fails_number {tag : String} :
    (number e tag loc).Fails f
      ↔ (e.childText? tag = none ∧ f = .missingElement loc tag)
        ∨ ∃ content, e.childText? tag = some content ∧ scalar? content = none
          ∧ f = .invalidNumber loc tag content := by
  simp [number, text, fails_toNumber, eq_comm]

/-! ## The three forms -/

/-- Two bits in order span the bits between them, with both ends. -/
theorem gives_toSpan {low high : Nat} {tag content : String} :
    (toSpan low high tag content loc).Gives span
      ↔ low ≤ high ∧ span = ⟨low, high - low + 1⟩ := by
  unfold toSpan
  split
  · next hlt => simp [Nat.not_le.2 hlt]
  · next hle => simp [Nat.not_lt.1 hle, eq_comm]

/-- Two bits in reverse order are refused. -/
theorem fails_toSpan {low high : Nat} {tag content : String} :
    (toSpan low high tag content loc).Fails f
      ↔ high < low ∧ f = .invalidNumber loc tag content := by
  unfold toSpan
  split
  · next hlt => simp [hlt, eq_comm]
  · next hle => simp [hle]

/-- A number that is absent may be absent. -/
theorem number?_of_none {tag : String} (h : e.childText? tag = none) :
    number? e tag loc = pure none := by
  rw [number?, h]

/-- A number that is present is read. -/
theorem number?_of_some {tag content : String} (h : e.childText? tag = some content) :
    number? e tag loc = some <$> toNumber content tag loc := by
  rw [number?, h]

/-- The lowest bit and the width, if the lowest bit is there. -/
theorem bitSpan_of_bitOffset {content : String} (h : e.childText? "bitOffset" = some content) :
    bitSpan e loc = toNumber content "bitOffset" loc >>= fun offset =>
      (fun width => ⟨offset, width⟩) <$> number e "bitWidth" loc := by
  rw [bitSpan, number?_of_some h]
  simp

/-- The lowest and the highest bit, if the lowest one is there and no bit has been given before. -/
theorem bitSpan_of_lsb (hoffset : e.childText? "bitOffset" = none) {content : String}
    (h : e.childText? "lsb" = some content) :
    bitSpan e loc = toNumber content "lsb" loc >>= fun low =>
      number e "msb" loc >>= fun high => toSpan low high "msb" (toString high) loc := by
  rw [bitSpan, number?_of_none hoffset, number?_of_some h]
  simp

/-- The bits in brackets, if none of the other forms is begun. -/
theorem bitSpan_of_bitRange (hoffset : e.childText? "bitOffset" = none)
    (hlsb : e.childText? "lsb" = none) {content : String}
    (h : e.childText? "bitRange" = some content) :
    bitSpan e loc
      = Checked.require (bracketed? content.toList) (.invalidNumber loc "bitRange" content)
        >>= fun bits => toSpan bits.2 bits.1 "bitRange" content loc := by
  rw [bitSpan, number?_of_none hoffset, number?_of_none hlsb, h]
  simp

/-- Without any of the forms a field is missing its lowest bit. -/
theorem bitSpan_of_none (hoffset : e.childText? "bitOffset" = none)
    (hlsb : e.childText? "lsb" = none) (h : e.childText? "bitRange" = none) :
    bitSpan e loc = Checked.fail (.missingElement loc "bitOffset") := by
  rw [bitSpan, number?_of_none hoffset, number?_of_none hlsb, h]
  simp

/-- The bits of a field cannot be read if a part is missing or a text is no number. -/
theorem fault_of_bitSpan (h : (bitSpan e loc).Fails f) :
    ∃ tag, f = .missingElement loc tag ∨ ∃ content, f = .invalidNumber loc tag content := by
  cases hoffset : e.childText? "bitOffset" with
  | some content =>
    -- the lowest bit and the width: either can be no number, and the width can be absent
    rw [bitSpan_of_bitOffset hoffset] at h
    simp only [Checked.fails_bind, Checked.fails_map, fails_toNumber, fails_number] at h
    obtain ⟨_, hf⟩ | ⟨_, _, ⟨_, hf⟩ | ⟨width, _, _, hf⟩⟩ := h
    · exact ⟨_, .inr ⟨_, hf⟩⟩
    · exact ⟨_, .inl hf⟩
    · exact ⟨_, .inr ⟨_, hf⟩⟩
  | none =>
    cases hlsb : e.childText? "lsb" with
    | some content =>
      -- both ends: either can be no number, the highest bit can be absent, and they can be reversed
      rw [bitSpan_of_lsb hoffset hlsb] at h
      simp only [Checked.fails_bind, fails_toNumber, fails_number, fails_toSpan] at h
      obtain ⟨_, hf⟩ | ⟨_, _, (⟨_, hf⟩ | ⟨high, _, _, hf⟩) | ⟨_, _, _, hf⟩⟩ := h
      · exact ⟨_, .inr ⟨_, hf⟩⟩
      · exact ⟨_, .inl hf⟩
      · exact ⟨_, .inr ⟨_, hf⟩⟩
      · exact ⟨_, .inr ⟨_, hf⟩⟩
    | none =>
      cases hrange : e.childText? "bitRange" with
      | some content =>
        -- the brackets: their text is to blame
        rw [bitSpan_of_bitRange hoffset hlsb hrange] at h
        simp only [Checked.fails_bind, Checked.fails_require, fails_toSpan] at h
        obtain ⟨_, hf⟩ | ⟨_, _, _, hf⟩ := h
        · exact ⟨_, .inr ⟨_, hf.symm⟩⟩
        · exact ⟨_, .inr ⟨_, hf⟩⟩
      | none =>
        rw [bitSpan_of_none hoffset hlsb hrange, Checked.fails_fail] at h
        exact ⟨_, .inl h.symm⟩

/-! ## Bits in brackets -/

/-- The two sides of the first colon are read in decimal. -/
theorem bracketed?_of_not_mem {high : List Char} (low : List Char) (h : ':' ∉ high) :
    bracketed? ('[' :: (high ++ ':' :: low ++ [']']))
      = (unsigned? 10 (trimChars high)).bind fun h =>
          (unsigned? 10 (trimChars low)).map fun l => (h, l) := by
  have hall : ∀ c ∈ high, decide (c ≠ ':') = true := by
    intro c hc
    exact decide_eq_true fun heq => h (heq ▸ hc)
  -- the first colon is the one between the bounds
  have hdrop : (high ++ ':' :: low).dropWhile (· ≠ ':') = ':' :: low := by
    rw [List.dropWhile_append_of_pos hall]
    simp
  have htake : (high ++ ':' :: low).takeWhile (· ≠ ':') = high := by
    rw [List.takeWhile_append_of_pos hall]
    simp
  simp only [bracketed?, List.reverse_append, List.reverse_singleton, List.singleton_append,
    List.reverse_reverse, hdrop, htake]
  cases unsigned? 10 (trimChars high) <;> cases unsigned? 10 (trimChars low) <;> rfl

/-- There is no colon in a number. -/
theorem unsigned?_trimChars_of_colon {cs : List Char} (h : ':' ∈ cs) :
    unsigned? 10 (trimChars cs) = none :=
  unsigned?_ten_eq_none (Text.mem_trimChars h (by decide)) (by decide) (by decide)

/-- Texts in brackets are read as they are outside of them, unless one has a hexadecimal mark. -/
theorem bracketed?_eq_some_iff {low high : String} {h l : Nat} :
    bracketed? ("[" ++ high ++ ":" ++ low ++ "]").toList = some (h, l)
      ↔ scalar? high = some h ∧ scalar? low = some l
        ∧ isHexForm high = false ∧ isHexForm low = false := by
  have htext : ("[" ++ high ++ ":" ++ low ++ "]").toList
      = '[' :: (high.toList ++ ':' :: low.toList ++ [']']) := by
    simp
  rw [htext]
  by_cases hcolon : ':' ∈ high.toList
  · -- the text is cut at the first colon, and the second one is in no number
    obtain ⟨front, back, hhigh, hfront⟩ := List.eq_append_cons_of_mem hcolon
    have hback : unsigned? 10 (trimChars (back ++ ':' :: low.toList)) = none :=
      unsigned?_trimChars_of_colon (by simp)
    have hscalar : isHexForm high = false → scalar? high = none := by
      intro hmark
      have hnone : unsigned? 10 (trimChars high.toList) = none :=
        unsigned?_trimChars_of_colon hcolon
      rwa [unsigned?_ten_trimChars, if_neg (by simp [hmark])] at hnone
    have hcut : high.toList ++ ':' :: low.toList = front ++ ':' :: (back ++ ':' :: low.toList) := by
      rw [hhigh, List.append_assoc, List.cons_append]
    rw [hcut, bracketed?_of_not_mem _ hfront, hback]
    constructor
    · intro hread
      simp at hread
    · intro hread
      rw [hscalar hread.2.2.1] at hread
      cases hread.1
  · rw [bracketed?_of_not_mem _ hcolon, unsigned?_ten_trimChars, unsigned?_ten_trimChars]
    cases isHexForm high <;> cases isHexForm low <;> simp [Option.bind_eq_some_iff]

/-! ## The same bits in two forms -/

/-- A field whose bits are given by the lowest and the highest one. -/
structure HasEnds (e : Element) (low high : String) : Prop where
  bitOffset : e.childText? "bitOffset" = none
  lsb : e.childText? "lsb" = some low
  msb : e.childText? "msb" = some high

/-- A field whose bits are given in brackets, by the texts of the highest and the lowest one. -/
structure HasRange (e : Element) (low high : String) : Prop where
  bitOffset : e.childText? "bitOffset" = none
  lsb : e.childText? "lsb" = none
  bitRange : e.childText? "bitRange" = some ("[" ++ high ++ ":" ++ low ++ "]")

/-- The bits from the lowest to the highest one, for the texts of both. -/
def Spans (low high : String) (span : BitSpan) : Prop :=
  ∃ l h, scalar? low = some l ∧ scalar? high = some h ∧ l ≤ h ∧ span = ⟨l, h - l + 1⟩

/-- A field that has its lowest and its highest bit as texts has the bits between them. -/
theorem HasEnds.gives_bitSpan {low high : String} (h : HasEnds e low high) :
    (bitSpan e loc).Gives span ↔ Spans low high span := by
  simp only [bitSpan_of_lsb h.bitOffset h.lsb, Checked.gives_bind, gives_toNumber, gives_number,
    h.msb, Option.bind_some, gives_toSpan, Spans, exists_and_left]

/-- A field that has the same texts in brackets has these bits too, but only if neither text is in
    hexadecimal. -/
theorem HasRange.gives_bitSpan {low high : String} (h : HasRange e low high) :
    (bitSpan e loc).Gives span
      ↔ Spans low high span ∧ isHexForm low = false ∧ isHexForm high = false := by
  simp only [bitSpan_of_bitRange h.bitOffset h.lsb h.bitRange, Checked.gives_bind,
    Checked.gives_require, gives_toSpan, Prod.exists, bracketed?_eq_some_iff, Spans]
  constructor
  · -- the reader gives the highest bit first
    intro hspan
    obtain ⟨m, l, ⟨hm, hl, hhigh, hlow⟩, hle, hspan⟩ := hspan
    exact ⟨⟨l, m, hl, hm, hle, hspan⟩, hlow, hhigh⟩
  · intro hspan
    obtain ⟨⟨l, m, hl, hm, hle, hspan⟩, hlow, hhigh⟩ := hspan
    exact ⟨m, l, ⟨hm, hl, hhigh, hlow⟩, hle, hspan⟩

/-- The two ends of a field say the same with and without brackets, unless one of them is
    hexadecimal: without brackets it is a number as everywhere else, and in brackets the field is
    refused. -/
theorem same_bits_iff {low high : String} (h : HasEnds e low high) (h' : HasRange e' low high)
    (loc loc' : Location) :
    (∀ span, (bitSpan e loc).Gives span ↔ Spans low high span)
      ∧ (∀ span, (bitSpan e' loc').Gives span
        ↔ Spans low high span ∧ isHexForm low = false ∧ isHexForm high = false)
      ∧ ((bitSpan e loc).Alike (bitSpan e' loc')
        ↔ ¬ ((isHexForm low = true ∨ isHexForm high = true) ∧ ∃ span, Spans low high span)) := by
  refine ⟨fun span => h.gives_bitSpan, fun span => h'.gives_bitSpan, ?_⟩
  simp only [Alike, h.gives_bitSpan, h'.gives_bitSpan]
  constructor
  · -- a bit in hexadecimal is read from the one form and refused in the other
    intro halike hhex
    obtain ⟨hmark, span, hspan⟩ := hhex
    obtain ⟨_, hlow, hhigh⟩ := (halike span).1 hspan
    simp [hlow, hhigh] at hmark
  · intro hhex span
    -- what the brackets give, the ends give in any case
    refine ⟨fun hspan => ⟨hspan, ?_⟩, fun hspan => hspan.1⟩
    have hmark : ¬ (isHexForm low = true ∨ isHexForm high = true) := fun hmark =>
      hhex ⟨hmark, span, hspan⟩
    simpa using hmark

/-- A field that says nothing but some texts. -/
def fieldWith (texts : List (String × String)) : Element :=
  ⟨"field", [], texts.map fun x => (Xml.Element.leaf x.1 x.2).node⟩

/-- A plus sign is read in both forms. -/
theorem same_bits_plus :
    HasEnds (fieldWith [("lsb", "+4"), ("msb", "12")]) "+4" "12"
      ∧ HasRange (fieldWith [("bitRange", "[12:+4]")]) "+4" "12"
      ∧ (bitSpan (fieldWith [("lsb", "+4"), ("msb", "12")]) .device).Alike
        (bitSpan (fieldWith [("bitRange", "[12:+4]")]) .device)
      ∧ (bitSpan (fieldWith [("bitRange", "[12:+4]")]) .device).Gives ⟨4, 9⟩ := by
  have h : HasEnds (fieldWith [("lsb", "+4"), ("msb", "12")]) "+4" "12" := by
    constructor <;> decide +kernel
  have h' : HasRange (fieldWith [("bitRange", "[12:+4]")]) "+4" "12" := by
    constructor <;> decide +kernel
  obtain ⟨_, hrange, halike⟩ := same_bits_iff h h' .device .device
  -- a sign is no mark of hexadecimal, so both encodings read the number
  refine ⟨h, h', halike.2 fun hhex => absurd hhex.1 (by decide +kernel), (hrange _).2 ?_⟩
  exact ⟨⟨4, 12, by decide +kernel, by decide +kernel, by decide, rfl⟩, by decide +kernel,
    by decide +kernel⟩

/-- The bits from 0 to 0x7 cannot be given in brackets. -/
theorem not_same_bits_hexadecimal :
    ¬ ∀ (e e' : Element) (low high : String), ':' ∉ low.toList → ':' ∉ high.toList →
      (∀ span, Spans low high span → span.width < Word.limit) →
      HasEnds e low high → HasRange e' low high →
      ∀ loc loc', (bitSpan e loc).Alike (bitSpan e' loc') := by
  intro halike
  have h : HasEnds (fieldWith [("lsb", "0"), ("msb", "0x7")]) "0" "0x7" := by
    constructor <;> decide +kernel
  have h' : HasRange (fieldWith [("bitRange", "[0x7:0]")]) "0" "0x7" := by
    constructor <;> decide +kernel
  have hgives : (bitSpan (fieldWith [("lsb", "0"), ("msb", "0x7")]) .device).Gives ⟨0, 8⟩ := by
    decide +kernel
  -- the only span of the two texts has eight bits
  have hwidth : ∀ span, Spans "0" "0x7" span → span.width < Word.limit := by
    intro span hspan
    obtain rfl := hgives.unique (h.gives_bitSpan.2 hspan)
    decide
  have hrefused : ¬ (bitSpan (fieldWith [("bitRange", "[0x7:0]")]) .device).Gives ⟨0, 8⟩ := by
    decide +kernel
  exact hrefused
    ((halike _ _ _ _ (by decide) (by decide) hwidth h h' .device .device _).1 hgives)

/-! ## Missing parts -/

/-- One of the three forms is there with all of its parts. -/
def HasPosition (e : Element) : Prop :=
  (∃ offset width, e.childText? "bitOffset" = some offset ∧ e.childText? "bitWidth" = some width)
    ∨ (∃ low high, e.childText? "lsb" = some low ∧ e.childText? "msb" = some high)
    ∨ ∃ range, e.childText? "bitRange" = some range

/-- The part that a field is missing: the second one of the form that decides, if its first one is
    a number. -/
@[mk_iff] inductive Lacks (e : Element) : String → Prop
  | bitWidth {n : Nat} (hoffset : (e.childText? "bitOffset").bind scalar? = some n)
    (hwidth : e.childText? "bitWidth" = none) : Lacks e "bitWidth"
  | msb {n : Nat} (hoffset : e.childText? "bitOffset" = none)
    (hlsb : (e.childText? "lsb").bind scalar? = some n) (hmsb : e.childText? "msb" = none) :
    Lacks e "msb"
  | bitOffset (hoffset : e.childText? "bitOffset" = none) (hlsb : e.childText? "lsb" = none)
    (hrange : e.childText? "bitRange" = none) : Lacks e "bitOffset"

/-- A field fails for a missing part if and only if it lacks that part. -/
theorem fails_missing_bitSpan_iff {loc' : Location} {tag : String} :
    (bitSpan e loc).Fails (.missingElement loc' tag) ↔ loc' = loc ∧ Lacks e tag := by
  -- the cases follow the forms: the first one that is begun decides
  cases hoffset : e.childText? "bitOffset" with
  | some content =>
    simp only [bitSpan_of_bitOffset hoffset, Checked.fails_bind, fails_toNumber, gives_toNumber,
      Checked.fails_map, fails_number, lacks_iff, hoffset]
    simp [and_left_comm]
  | none =>
    cases hlsb : e.childText? "lsb" with
    | some content =>
      simp only [bitSpan_of_lsb hoffset hlsb, Checked.fails_bind, fails_toNumber, gives_toNumber,
        fails_number, fails_toSpan, lacks_iff, hoffset, hlsb]
      simp [and_left_comm]
    | none =>
      cases hrange : e.childText? "bitRange" with
      | some content =>
        simp [bitSpan_of_bitRange hoffset hlsb hrange, fails_toSpan, lacks_iff, hoffset, hlsb,
          hrange]
      | none =>
        simp [bitSpan_of_none hoffset hlsb hrange, lacks_iff, hoffset, hlsb, hrange, eq_comm]

/-- Where one of the forms is complete a part is missing all the same, if and only if a form in
    front of it is begun with a number and not completed. -/
theorem missing_part_iff (h : HasPosition e) (loc loc' : Location) (tag : String) :
    (bitSpan e loc).Fails (.missingElement loc' tag)
      ↔ loc' = loc
        ∧ ((tag = "bitWidth" ∧ (∃ n, (e.childText? "bitOffset").bind scalar? = some n)
            ∧ e.childText? "bitWidth" = none)
          ∨ (tag = "msb" ∧ e.childText? "bitOffset" = none
            ∧ (∃ n, (e.childText? "lsb").bind scalar? = some n) ∧ e.childText? "msb" = none)) := by
  rw [fails_missing_bitSpan_iff]
  refine and_congr_right fun _ => ⟨fun hlacks => ?_, fun hbegun => ?_⟩
  · cases hlacks with
    | bitWidth hoffset hwidth => exact .inl ⟨rfl, ⟨_, hoffset⟩, hwidth⟩
    | msb hoffset hlsb hmsb => exact .inr ⟨rfl, hoffset, ⟨_, hlsb⟩, hmsb⟩
    | bitOffset hoffset hlsb hrange =>
      -- none of the forms is even begun
      simp [HasPosition, hoffset, hlsb, hrange] at h
  · obtain ⟨rfl, ⟨n, hoffset⟩, hwidth⟩ | ⟨rfl, hoffset, ⟨n, hlsb⟩, hmsb⟩ := hbegun
    · exact .bitWidth hoffset hwidth
    · exact .msb hoffset hlsb hmsb

/-- A width or a highest bit that stands alone begins no form. -/
def rangeField : Element := fieldWith [("bitWidth", "1"), ("msb", "7"), ("bitRange", "[3:2]")]

/-- A field with a range alone lacks no part. -/
theorem missing_part_range :
    HasPosition rangeField
      ∧ (∀ loc' tag, ¬ (bitSpan rangeField .device).Fails (.missingElement loc' tag))
      ∧ (bitSpan rangeField .device).Gives ⟨2, 2⟩ := by
  have h : HasPosition rangeField := .inr (.inr ⟨"[3:2]", by decide +kernel⟩)
  have hoffset : rangeField.childText? "bitOffset" = none := by decide +kernel
  have hlsb : rangeField.childText? "lsb" = none := by decide +kernel
  refine ⟨h, fun loc' tag hfails => ?_, by decide +kernel⟩
  -- only a begun encoding by offset or by ends misses its other part
  obtain ⟨-, ⟨-, ⟨n, hn⟩, -⟩ | ⟨-, -, ⟨n, hn⟩, -⟩⟩ := (missing_part_iff h _ _ _).1 hfails
  · simp [hoffset] at hn
  · simp [hlsb] at hn

/-- A lowest bit without a width hides the two ends of the field. -/
theorem not_missing_part_twoForms :
    ¬ ∀ e : Element, HasPosition e → ∀ loc loc' tag,
      ¬ (bitSpan e loc).Fails (.missingElement loc' tag) := by
  intro hnever
  have h : HasPosition (fieldWith [("bitOffset", "0"), ("lsb", "0"), ("msb", "7")]) :=
    .inr (.inl ⟨"0", "7", by decide +kernel, by decide +kernel⟩)
  refine hnever _ h .device .device "bitWidth" (fails_missing_bitSpan_iff.2 ⟨rfl, ?_⟩)
  exact .bitWidth (n := 0) (by decide +kernel) (by decide +kernel)

end RegisterMap.Declared
