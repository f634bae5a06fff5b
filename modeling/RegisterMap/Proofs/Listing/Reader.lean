import RegisterMap.Proofs.Listing.WellFormed
import RegisterMap.Xml.Token

/-!
# Reading a listing

A listing is read line by line by a reader that knows nothing of devices: the
start of a module puts its name on the path, as deep as the line is indented,
and a constant is noted with the path at its depth. The reader takes a line of
the text for what it was written for (`Reader.step?_text`), so that whole
listings are read as lists of lines.
-/

namespace RegisterMap.Listing

open Name (AllWordChars)

/-! ## The reader -/

/-- A constant that has been read, with the names of the modules around it joined to one. -/
structure Entry where
  path : String
  name : String
  value : Nat
  deriving Repr, DecidableEq

/-- The modules that are open, outermost first, and the constants that have been read. -/
structure Reader where
  path : List String
  entries : List Entry
  deriving Repr, DecidableEq

namespace Reader

/-- How deep a line stands: a fourth of the bytes of the blanks in front of it. -/
def depthOf (line : List Char) : Nat :=
  (String.ofList (line.takeWhile Text.isBlank)).utf8ByteSize / 4

/-- The characters behind a mark, if they start with it. -/
def behind? (mark cs : List Char) : Option (List Char) :=
  if mark.isPrefixOf cs then some (cs.drop mark.length) else none

/-- The characters, last one first, without the blanks and braces at their end. -/
def dropOpenings : List Char → List Char
  | '\x7b' :: ' ' :: cs => dropOpenings cs
  | cs => cs

/-- The name of a module in front of the brace that opens it. -/
def moduleName (cs : List Char) : String := String.ofList (dropOpenings cs.reverse).reverse

/-- The characters without the semicolons at their end. -/
def dropSemicolons (cs : List Char) : List Char := (cs.reverse.dropWhile (· == ';')).reverse

/-- The name and the value of a constant of the integer type of a width. -/
def constant? (w : Width) (cs : List Char) : Option (String × Nat) := do
  let (name, value) ← Xml.until? (": " ++ w.typeName ++ " = ").toList cs
  return (String.ofList name, ← Literal.value? (dropSemicolons value))

/-- The name of a module at some depth of the path. -/
def pathName (path : List String) : String := "::".intercalate path

/-- The reader with one more line. It fails at a constant without a type or a value, and at
    one that stands deeper than the modules that are open. -/
def step? (w : Width) (r : Reader) (line : List Char) : Option Reader :=
  let depth := depthOf line
  let cs := line.dropWhile Text.isBlank
  match behind? "pub mod ".toList cs with
  | some rest => some ⟨r.path.take depth ++ [moduleName rest], r.entries⟩
  | none =>
    match behind? "pub const ".toList cs with
    | none => some r
    | some rest => do
      let (name, value) ← constant? w rest
      if r.path.length < depth then none
      else some ⟨r.path, r.entries ++ [⟨pathName (r.path.take depth), name, value⟩]⟩

/-- The constants of a listing, in the order of its lines. -/
def entries? (w : Width) (text : String) : Option (List Entry) :=
  ((Text.lines text.toList).foldlM (step? w) ⟨[], []⟩).map Reader.entries

end Reader

/-- The constants that have been read in a module. -/
def entriesIn (path : String) (es : List Entry) : List Entry := es.filter fun e => e.path == path

/-- The value that is read for the constant of a module. A later constant of the name
    replaces an earlier one. -/
def constantIn? (es : List Entry) (path name : String) : Option Nat :=
  (es.reverse.find? fun e => e.path == path && e.name == name).map Entry.value

/-! ## Pieces of a line -/

namespace Reader

/-- Behind a mark stands what was put there. -/
theorem behind?_append (mark cs : List Char) : behind? mark (mark ++ cs) = some cs := by
  have hprefix : mark.isPrefixOf (mark ++ cs) = true :=
    List.isPrefixOf_iff_prefix.2 (List.prefix_append mark cs)
  rw [behind?, if_pos hprefix, List.drop_left]

/-- The name of a module is read from the line that opens it. -/
theorem moduleName_word {name : String} (h : AllWordChars name) :
    moduleName (name.toList ++ " \x7b".toList) = name := by
  have hopening : (name.toList ++ " \x7b".toList).reverse = '\x7b' :: ' ' :: name.toList.reverse := by
    rw [List.reverse_append]
    rfl
  -- the brace is no word character, so no more than one of them is dropped
  have hstop : dropOpenings name.toList.reverse = name.toList.reverse := by
    unfold dropOpenings
    split
    · next cs heq =>
      have hmem : '\x7b' ∈ name.toList.reverse := heq ▸ List.mem_cons_self
      exact absurd (h _ (List.mem_reverse.1 hmem)) (by decide)
    · rfl
  rw [moduleName, hopening, dropOpenings, hstop, List.reverse_reverse, String.ofList_toList]

/-- The semicolon behind a literal is dropped, and no character of the literal. -/
theorem dropSemicolons_append {cs : List Char} (h : ∀ c ∈ cs, Name.isWordChar c = true) :
    dropSemicolons (cs ++ ";".toList) = cs := by
  have hreverse : (cs ++ ";".toList).reverse = ';' :: cs.reverse := by
    rw [List.reverse_append]
    rfl
  -- a literal does not end in a semicolon
  have hstop : cs.reverse.dropWhile (· == ';') = cs.reverse := by
    cases hcs : cs.reverse with
    | nil => rfl
    | cons c rest =>
      have hmem : c ∈ cs := List.mem_reverse.1 (hcs ▸ List.mem_cons_self)
      have hne : ¬ (c == ';') = true := by
        intro heq
        exact absurd (beq_iff_eq.1 heq ▸ h c hmem) (by decide)
      exact List.dropWhile_cons_of_neg hne
  rw [dropSemicolons, hreverse, List.dropWhile_cons_of_pos rfl, hstop, List.reverse_reverse]

/-- The text before a mark is found, if the first character of the mark is not in it. -/
theorem until?_append {m : Char} {ms cs : List Char} (h : m ∉ cs) (rest : List Char) :
    Xml.until? (m :: ms) (cs ++ (m :: ms ++ rest)) = some (cs, rest) := by
  induction cs with
  | nil =>
    have hprefix : (m :: ms).isPrefixOf (m :: (ms ++ rest)) = true :=
      List.isPrefixOf_iff_prefix.2 (List.prefix_append (m :: ms) rest)
    rw [List.nil_append, List.cons_append, Xml.until?, if_pos hprefix]
    simp
  | cons c cs ih =>
    have hc : m ≠ c := fun heq => h (heq ▸ List.mem_cons_self)
    have hcs : m ∉ cs := fun hmem => h (List.mem_cons_of_mem c hmem)
    -- the mark cannot start at a character that differs from its first
    have hprefix : ¬ (m :: ms).isPrefixOf (c :: (cs ++ (m :: ms ++ rest))) = true := by
      simp [hc]
    rw [List.cons_append, Xml.until?, if_neg hprefix, ih hcs]
    rfl

end Reader

/-! ## Texts of lines -/

namespace Line

/-- Whether a line is a comment, of whatever kind. -/
def isComment : Line → Bool
  | remark _ => true
  | about _ _ => true
  | doc _ _ => true
  | placeholder _ _ _ _ _ => true
  | _ => false

/-- All comments start with two slashes, whatever stands behind them. -/
theorem exists_text_of_isComment {line : Line} (h : line.isComment = true) :
    ∃ depth cs, line.text.toList = (indent depth).toList ++ '/' :: '/' :: cs := by
  -- each form of comment, with what it has behind its two slashes
  cases line with
  | remark content =>
    refine ⟨0, " ".toList ++ content.toList, ?_⟩
    rw [text, String.toList_append]
    rfl
  | about depth content =>
    refine ⟨depth, "! ".toList ++ content.toList, ?_⟩
    rw [text, String.toList_append, String.toList_append, List.append_assoc]
    rfl
  | doc depth content =>
    refine ⟨depth, "/ ".toList ++ content.toList, ?_⟩
    rw [text, String.toList_append, String.toList_append, List.append_assoc]
    rfl
  | placeholder depth name type number content =>
    refine ⟨depth, " ".toList ++ ((declaration name type (.number number)).toList
      ++ (" // ".toList ++ content.toList)), ?_⟩
    simp only [text, String.toList_append, List.append_assoc]
    rfl
  | _ => cases h

/-- The characters of a line that opens a module. -/
theorem toList_text_start (depth : Nat) (name : String) :
    (start depth name).text.toList
      = (indent depth).toList ++ ("pub mod ".toList ++ (name.toList ++ " \x7b".toList)) := by
  simp only [text, String.toList_append, List.append_assoc]

/-- The characters of a line that closes a module. -/
theorem toList_text_stop (depth : Nat) :
    (stop depth).text.toList = (indent depth).toList ++ ['\x7d'] := by
  rw [text, String.toList_append]
  rfl

end Line

/-! ## Lines -/

namespace Reader

/-- The reader with one more line, by what the line was written for. -/
def advance? (r : Reader) : Line → Option Reader
  | .start depth name => some ⟨r.path.take depth ++ [name], r.entries⟩
  | .constant depth name _ literal =>
    if r.path.length < depth then none
    else some ⟨r.path, r.entries ++ [⟨pathName (r.path.take depth), name, literal.value⟩]⟩
  | _ => some r

/-- Each blank takes one byte. -/
theorem utf8ByteSize_replicate (n : Nat) :
    (String.ofList (List.replicate n ' ')).utf8ByteSize = n := by
  induction n with
  | zero => rfl
  | succ n ih =>
    rw [List.replicate_succ', String.ofList_append, String.utf8ByteSize_append, ih]
    rfl

/-- The indent of a line gives its depth, and what stands behind it is left. -/
theorem behind_indent (depth : Nat) {c : Char} (hc : Text.isBlank c = false) (cs : List Char) :
    depthOf ((indent depth).toList ++ c :: cs) = depth
      ∧ ((indent depth).toList ++ c :: cs).dropWhile Text.isBlank = c :: cs := by
  have hspaces : ∀ b ∈ List.replicate (4 * depth) ' ', Text.isBlank b = true := by
    intro b hb
    rw [List.eq_of_mem_replicate hb]
    decide
  have hstop : ¬ Text.isBlank c = true := Bool.eq_false_iff.1 hc
  rw [indent, String.toList_ofList]
  -- the blanks that are taken, and what is left of them
  constructor
  · rw [depthOf, List.takeWhile_append_of_pos hspaces, List.takeWhile_cons_of_neg hstop,
      List.append_nil, utf8ByteSize_replicate]
    omega
  · rw [List.dropWhile_append_of_pos hspaces, List.dropWhile_cons_of_neg hstop]

/-- A line that does not start with a keyword changes nothing. -/
theorem step?_of_head_ne {w : Width} {r : Reader} {line : List Char}
    (h : ∀ cs, line.dropWhile Text.isBlank ≠ 'p' :: cs) : r.step? w line = some r := by
  -- both marks start with `p`
  have hbehind : ∀ mark, behind? ('p' :: mark) (line.dropWhile Text.isBlank) = none := by
    intro mark
    refine if_neg fun hprefix => ?_
    obtain ⟨rest, hrest⟩ := List.isPrefixOf_iff_prefix.1 hprefix
    exact h _ hrest.symm
  have hmod : behind? "pub mod ".toList (line.dropWhile Text.isBlank) = none := hbehind _
  have hconst : behind? "pub const ".toList (line.dropWhile Text.isBlank) = none := hbehind _
  rw [step?, hmod]
  simp only [hconst]

/-- A line that does not start with `p` behind its indentation is skipped. -/
theorem step?_skip {w : Width} (r : Reader) (depth : Nat) {c : Char}
    (hc : Text.isBlank c = false) (hp : c ≠ 'p') (cs : List Char) :
    r.step? w ((indent depth).toList ++ c :: cs) = some r := by
  apply step?_of_head_ne
  intro rest hrest
  rw [(behind_indent depth hc cs).2] at hrest
  exact hp (List.cons.inj hrest).1

/-- A line that opens a module is read as such. -/
theorem step?_start {w : Width} (r : Reader) (depth : Nat) {name : String}
    (h : AllWordChars name) :
    r.step? w (Line.start depth name).text.toList = r.advance? (.start depth name) := by
  obtain ⟨hdepth, hrest⟩ := behind_indent depth (c := 'p') (by decide)
    ("ub mod ".toList ++ (name.toList ++ " \x7b".toList))
  -- the mark is taken apart after its first character
  have hcons : 'p' :: ("ub mod ".toList ++ (name.toList ++ " \x7b".toList))
      = "pub mod ".toList ++ (name.toList ++ " \x7b".toList) := rfl
  rw [hcons] at hdepth hrest
  rw [Line.toList_text_start, step?, hdepth, hrest, behind?_append]
  simp only [moduleName_word h, advance?]

/-- The name and the value of a constant are read from its declaration. -/
theorem constant?_declaration {w : Width} {name : String} (hname : AllWordChars name)
    {literal : Literal} (hvalue : literal.value ≤ w.maxValue) :
    constant? w (name.toList ++ ((": " ++ w.typeName ++ " = ").toList
      ++ (literal.text.toList ++ ";".toList))) = some (name, literal.value) := by
  -- the name ends at the first colon, since it has none itself
  have hcolon : ':' ∉ name.toList := fun hmem => absurd (hname ':' hmem) (by decide)
  -- what fits the width fits a word, so that the value is read
  have hlimit : w.maxValue < Word.limit := by
    cases w <;> decide
  have hmark : (": " ++ w.typeName ++ " = ").toList
      = ':' :: (" ".toList ++ (w.typeName.toList ++ " = ".toList)) := by
    simp only [String.toList_append, List.append_assoc]
    rfl
  rw [constant?, hmark, until?_append hcolon]
  simp only [Option.bind_eq_bind, Option.bind_some, String.ofList_toList,
    dropSemicolons_append literal.isLiteral_text.isWordChar,
    Literal.value?_text (Nat.lt_of_le_of_lt hvalue hlimit), Option.pure_def]

/-- A line that declares a constant is read as such. -/
theorem step?_constant {w : Width} (r : Reader) (depth : Nat) {name : String}
    (hname : AllWordChars name) {literal : Literal} (hvalue : literal.value ≤ w.maxValue) :
    r.step? w (Line.constant depth name w literal).text.toList
      = r.advance? (.constant depth name w literal) := by
  have htext : (Line.constant depth name w literal).text.toList
      = (indent depth).toList ++ ("pub const ".toList ++ (name.toList
        ++ ((": " ++ w.typeName ++ " = ").toList ++ (literal.text.toList ++ ";".toList)))) := by
    simp only [Line.text, declaration, String.toList_append, List.append_assoc]
  -- the rest of the line is read on its own
  generalize hrest : name.toList ++ ((": " ++ w.typeName ++ " = ").toList
    ++ (literal.text.toList ++ ";".toList)) = rest at htext
  have hread : constant? w rest = some (name, literal.value) :=
    hrest ▸ constant?_declaration hname hvalue
  obtain ⟨hdepth, hbehind⟩ := behind_indent depth (c := 'p') (by decide) ("ub const ".toList ++ rest)
  have hcons : 'p' :: ("ub const ".toList ++ rest) = "pub const ".toList ++ rest := rfl
  have hmod : behind? "pub mod ".toList ("pub const ".toList ++ rest) = none := rfl
  rw [hcons] at hdepth hbehind
  rw [htext, step?, hdepth, hbehind, hmod, behind?_append]
  simp only [hread, Option.bind_eq_bind, Option.bind_some, advance?]

/-- The reader takes a line for what it was written for. -/
theorem step?_text {w : Width} {line : Line} (h : line.WellFormed w) (r : Reader) :
    r.step? w line.text.toList = r.advance? line := by
  -- a comment starts with a slash
  have hcomment : line.isComment = true → r.step? w line.text.toList = some r := by
    intro hline
    obtain ⟨depth, cs, htext⟩ := Line.exists_text_of_isComment hline
    rw [htext]
    exact step?_skip r depth (by decide) (by decide) _
  cases line with
  | blank => exact step?_of_head_ne fun cs => (List.cons_ne_nil 'p' cs).symm
  | start depth name => exact step?_start r depth h
  | stop depth =>
    rw [Line.toList_text_stop]
    exact step?_skip r depth (by decide) (by decide) _
  | constant depth name type literal =>
    obtain ⟨hname, htype, hvalue⟩ := h
    subst htype
    exact step?_constant r depth hname hvalue
  | _ => exact hcomment rfl

/-- A text is read as the lines that it was written from. -/
theorem foldlM_step?_text {w : Width} {ls : List Line} (h : ∀ line ∈ ls, line.WellFormed w)
    (r : Reader) :
    (Text.lines (Text.unlines (ls.map fun line => line.text.toList))).foldlM (step? w) r
      = ls.foldlM advance? r := by
  rw [lines_unlines_text h]
  -- the reader is generalized, as each line changes it
  induction ls generalizing r with
  | nil => rfl
  | cons line ls ih =>
    obtain ⟨hline, hls⟩ := List.forall_mem_cons.1 h
    rw [List.map_cons, List.foldlM_cons, List.foldlM_cons, step?_text hline]
    simp only [ih hls]

example : entries? .w32 "pub mod uart \x7b\n    pub const CR: u32 = 0x10;\n\x7d\n"
    = some [⟨"uart", "CR", 16⟩] := by decide +kernel

end Reader
end RegisterMap.Listing
