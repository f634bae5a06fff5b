import RegisterMap.Xml.Character

/-!
# Tokens of a document

The first stage of reading a document: its characters as a list of tokens. A
token is a tag, a run of text, a CDATA section or a remark (a comment or a
processing instruction). Every token takes at least one character
(`next?_length`), so `tokens?` comes to an end.

Document type declarations are no tokens: a document that has one is refused.
-/

namespace RegisterMap.Xml

/-! ## Pieces of a token -/

/-- The characters before the first occurrence of a mark, and those behind it. -/
def until? (mark : List Char) : List Char → Option (List Char × List Char)
  | [] => if mark.isEmpty then some ([], []) else none
  | c :: cs =>
    if mark.isPrefixOf (c :: cs) then some ([], (c :: cs).drop mark.length)
    else (until? mark cs).map fun (before, rest) => (c :: before, rest)

/-- The text without the white space in front of it. -/
def skipSpace (cs : List Char) : List Char := cs.dropWhile isSpace

/-- Whether a text starts with white space. -/
def startsWithSpace : List Char → Bool
  | [] => false
  | c :: _ => isSpace c

/-- A qualified name: a label that stands for a name space, empty if there is none,
    and a local name. -/
structure QName where
  label : String
  name : String
  deriving Repr, DecidableEq

/-- Whether a text is not empty and starts as names do. -/
def startsName : List Char → Bool
  | [] => false
  | c :: _ => isNameStart c

/-- The qualified name that a run of name characters is. It has one colon at most. -/
def QName.ofRun? (run : List Char) : Option QName :=
  match until? [':'] run with
  | none => if startsName run then some ⟨"", String.ofList run⟩ else none
  | some (label, name) =>
    if (label.isEmpty || startsName label) && startsName name && !name.contains ':' then
      some ⟨String.ofList label, String.ofList name⟩
    else none

/-- The qualified name at the start of a text, and the rest. -/
def QName.read? (cs : List Char) : Option (QName × List Char) :=
  (QName.ofRun? (cs.takeWhile isNamePart)).map fun q => (q, cs.dropWhile isNamePart)

/-- An attribute as it is written: its references are not yet resolved. -/
structure RawAttribute where
  tag : QName
  value : List Char
  deriving Repr, DecidableEq

/-- The value between quotes at the start of a text, and the rest. -/
def quoted? : List Char → Option (List Char × List Char)
  | [] => none
  | q :: cs =>
    if q = '"' ∨ q = '\'' then
      match cs.dropWhile fun c => c ≠ q && c ≠ '<' with
      | [] => none
      | c :: rest => if c = q then some (cs.takeWhile fun c => c ≠ q && c ≠ '<', rest) else none
    else none

/-- The attribute at the start of a text, and the rest. -/
def RawAttribute.read? (cs : List Char) : Option (RawAttribute × List Char) :=
  match QName.read? cs with
  | none => none
  | some (tag, cs) =>
    match skipSpace cs with
    | '=' :: cs => (quoted? (skipSpace cs)).map fun (value, rest) => (⟨tag, value⟩, rest)
    | _ => none

/-! ## Pieces are shorter than what they are read from -/

/-- Skipping white space leaves no more than there was. -/
theorem length_skipSpace (cs : List Char) : (skipSpace cs).length ≤ cs.length :=
  (List.dropWhile_sublist isSpace).length_le

/-- What stands behind a mark is no longer than the text, which may be all of it if the mark is
    empty. -/
theorem until?_length {mark cs before rest : List Char} (h : until? mark cs = some (before, rest)) :
    rest.length ≤ cs.length := by
  induction cs generalizing before rest with
  | nil =>
    unfold until? at h
    split at h <;> simp_all
  | cons c cs ih =>
    unfold until? at h
    split at h
    · simp only [Option.some.injEq, Prod.mk.injEq] at h
      rw [← h.2, List.length_drop]
      omega
    · -- the mark is found further behind
      obtain ⟨⟨b, r⟩, hr, heq⟩ := Option.map_eq_some_iff.1 h
      simp only [Prod.mk.injEq] at heq
      have := ih hr
      rw [List.length_cons, ← heq.2]
      omega

/-- A prefix that is not empty makes what is behind it shorter. -/
theorem length_dropWhile_lt {p : Char → Bool} {cs : List Char} (h : cs.takeWhile p ≠ []) :
    (cs.dropWhile p).length < cs.length := by
  have happ := congrArg List.length (List.takeWhile_append_dropWhile (p := p) (l := cs))
  have hpos := List.length_pos_iff.2 h
  rw [List.length_append] at happ
  omega

/-- A name takes a character at least. -/
theorem QName.read?_length {cs rest : List Char} {q : QName} (h : QName.read? cs = some (q, rest)) :
    rest.length < cs.length := by
  obtain ⟨q', hq, heq⟩ := Option.map_eq_some_iff.1 h
  simp only [Prod.mk.injEq] at heq
  obtain ⟨rfl, rfl⟩ := heq
  refine length_dropWhile_lt fun hnil => ?_
  rw [hnil] at hq
  simp [QName.ofRun?, until?, startsName] at hq

/-- A quoted value takes its two quotes at least. -/
theorem quoted?_length {cs value rest : List Char} (h : quoted? cs = some (value, rest)) :
    rest.length < cs.length := by
  cases cs with
  | nil => simp [quoted?] at h
  | cons q cs =>
    have hle := (List.dropWhile_sublist (fun c => decide (c ≠ q) && decide (c ≠ '<')) (l := cs)).length_le
    simp only [quoted?] at h
    split at h
    · split at h
      · simp at h
      · next heq =>
        -- the closing quote is in what was left of the text
        rw [heq, List.length_cons] at hle
        split at h
        · simp only [Option.some.injEq, Prod.mk.injEq] at h
          rw [← h.2, List.length_cons]
          omega
        · simp at h
    · simp at h

/-- An attribute is not empty, since its name is not. -/
theorem RawAttribute.read?_length {cs rest : List Char} {a : RawAttribute}
    (h : RawAttribute.read? cs = some (a, rest)) : rest.length < cs.length := by
  unfold RawAttribute.read? at h
  split at h
  · simp at h
  · next tag cs' hq =>
    have h₁ := QName.read?_length hq
    have h₂ := length_skipSpace cs'
    split at h
    · next cs'' hs =>
      obtain ⟨⟨v, r⟩, hv, heq⟩ := Option.map_eq_some_iff.1 h
      simp only [Prod.mk.injEq] at heq
      have h₃ := quoted?_length hv
      have h₄ := length_skipSpace cs''
      -- each of the parts leaves less, or no more: the name, blanks, the equals sign, the value
      rw [hs, List.length_cons] at h₂
      rw [← heq.2]
      omega
    · simp at h

/-! ## Tokens -/

/-- A token. A start tag says whether its element is empty. -/
inductive Token where
  | start (tag : QName) (attributes : List RawAttribute) (empty : Bool)
  | stop (tag : QName)
  | text (raw : List Char)
  | cdata (raw : List Char)
  | remark
  deriving Repr

/-- The rest of a start tag behind its name: the attributes, each behind white space,
    whether the element is empty, and what follows the tag. -/
def startRest? (cs : List Char) : Option (List RawAttribute × Bool × List Char) :=
  match skipSpace cs with
  | '/' :: '>' :: rest => some ([], true, rest)
  | '>' :: rest => some ([], false, rest)
  | _ =>
    if startsWithSpace cs then
      match _hr : RawAttribute.read? (skipSpace cs) with
      | none => none
      | some (a, rest) =>
        (startRest? rest).map fun (attributes, empty, rest) => (a :: attributes, empty, rest)
    else none
termination_by cs.length
decreasing_by
  have h₁ := RawAttribute.read?_length _hr
  have h₂ := length_skipSpace cs
  omega

/-- The token at the start of a text, and the rest. -/
def next? : List Char → Option (Token × List Char)
  | '<' :: '!' :: '-' :: '-' :: cs =>
    match until? ['-', '-'] cs with
    | some (_, '>' :: rest) => some (.remark, rest)
    | _ => none
  | '<' :: '!' :: '[' :: 'C' :: 'D' :: 'A' :: 'T' :: 'A' :: '[' :: cs =>
    (until? [']', ']', '>'] cs).map fun (raw, rest) => (.cdata raw, rest)
  | '<' :: '?' :: cs =>
    if startsName cs && !(['x', 'm', 'l', ' '].isPrefixOf cs) then
      (until? ['?', '>'] (cs.dropWhile isNamePart)).map fun (_, rest) => (.remark, rest)
    else none
  | '<' :: '/' :: cs =>
    match QName.read? cs with
    | none => none
    | some (tag, cs) =>
      match skipSpace cs with
      | '>' :: rest => some (.stop tag, rest)
      | _ => none
  | '<' :: cs =>
    match QName.read? cs with
    | none => none
    | some (tag, cs) =>
      (startRest? cs).map fun (attributes, empty, rest) => (.start tag attributes empty, rest)
  | cs =>
    let raw := cs.takeWhile (· ≠ '<')
    if raw.isEmpty || (until? [']', ']', '>'] raw).isSome then none
    else some (.text raw, cs.dropWhile (· ≠ '<'))

/-- The rest of a start tag takes the mark that ends it at least. -/
theorem startRest?_length {cs rest : List Char} {attributes : List RawAttribute} {empty : Bool}
    (h : startRest? cs = some (attributes, empty, rest)) : rest.length < cs.length := by
  fun_induction startRest? cs generalizing attributes empty rest with
  | case1 cs rest' hs =>
    have hle := length_skipSpace cs
    rw [hs] at hle
    simp only [List.length_cons] at hle
    simp only [Option.some.injEq, Prod.mk.injEq] at h
    rw [← h.2.2]
    omega
  | case2 cs rest' hs =>
    have hle := length_skipSpace cs
    rw [hs] at hle
    simp only [List.length_cons] at hle
    simp only [Option.some.injEq, Prod.mk.injEq] at h
    rw [← h.2.2]
    omega
  | case3 => simp at h
  | case4 cs _ a rest' hr _ _ ih =>
    -- one attribute, and the rest of the tag behind it
    obtain ⟨⟨as, e, r⟩, hr', heq⟩ := Option.map_eq_some_iff.1 h
    simp only [Prod.mk.injEq] at heq
    have h₁ := ih hr'
    have h₂ := RawAttribute.read?_length hr
    have h₃ := length_skipSpace cs
    rw [← heq.2.2]
    omega
  | case5 => simp at h

/-- A token takes at least one character. -/
theorem next?_length {cs rest : List Char} {t : Token} (h : next? cs = some (t, rest)) :
    rest.length < cs.length := by
  unfold next? at h
  split at h
  · next cs =>
    split at h
    · next before rest' hu =>
      -- a comment is read up to its end mark
      have := until?_length hu
      simp_all
      omega
    · simp at h
  · next cs =>
    obtain ⟨⟨raw, r⟩, hu, heq⟩ := Option.map_eq_some_iff.1 h
    -- so is a section of characters
    have := until?_length hu
    simp_all
    omega
  · next cs =>
    split at h
    · obtain ⟨⟨raw, r⟩, hu, heq⟩ := Option.map_eq_some_iff.1 h
      -- an instruction has its name in front of what it says
      have h₁ := until?_length hu
      have h₂ := (List.dropWhile_sublist isNamePart (l := cs)).length_le
      simp_all
      omega
    · simp at h
  · next cs =>
    split at h
    · simp at h
    · next tag cs' hq =>
      -- an end tag, and a start tag further below
      have h₁ := QName.read?_length hq
      have h₂ := length_skipSpace cs'
      split at h
      · simp_all
        omega
      · simp at h
  · next cs _ _ _ _ =>
    split at h
    · simp at h
    · next tag cs' hq =>
      obtain ⟨⟨as, e, r⟩, hr, heq⟩ := Option.map_eq_some_iff.1 h
      have h₁ := QName.read?_length hq
      have h₂ := startRest?_length hr
      simp_all
      omega
  · -- text goes up to the next mark, and there is some since the mark is not at once
    dsimp only at h
    split at h
    · simp at h
    · next hraw =>
      simp only [Option.some.injEq, Prod.mk.injEq] at h
      rw [← h.2]
      exact length_dropWhile_lt fun hnil => hraw (by rw [hnil]; rfl)

/-- The tokens of a text. -/
def tokens? (cs : List Char) : Option (List Token) :=
  if cs.isEmpty then some []
  else
    match _ht : next? cs with
    | none => none
    | some (t, rest) => (tokens? rest).map (t :: ·)
termination_by cs.length
decreasing_by exact next?_length _ht

end RegisterMap.Xml
