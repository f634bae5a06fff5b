import RegisterMap.Proofs.Listing.WellFormed

/-!
# The shape of listings

Every line of a listing is blank, a comment, the start or the end of a module,
or a constant, as long as its device has a name of one line. A name that goes on
behind a line break is written into the banner as it is, so that its further
lines stand outside any comment.

- `Line.isListingLine_text`: the text of a well-formed line
- `Device.isListingLine_iff`: the lines of a listing
- `Device.isListingLine_of_name`: a name of one line is enough
-/

namespace RegisterMap.Listing

open Name (AllWordChars)
open Text (IsLine)

/-! ## The form of a line -/

/-- What a line may hold behind its leading spaces. -/
inductive IsForm (w : Width) : List Char → Prop
  | comment (text : List Char) : IsForm w ('/' :: '/' :: text)
  | start {name : String} (hname : AllWordChars name) :
      IsForm w ("pub mod " ++ name ++ " \x7b").toList
  | stop : IsForm w ['\x7d']
  | constant {name literal : String} (hname : AllWordChars name)
      (hliteral : IsLiteral literal.toList) :
      IsForm w ("pub const " ++ name ++ ": " ++ w.typeName ++ " = " ++ literal ++ ";").toList

/-- The forms start with a slash, with a keyword, or with a brace. -/
theorem IsForm.head {w : Width} {cs : List Char} (h : IsForm w cs) :
    ∃ c rest, cs = c :: rest ∧ (c = '/' ∨ c = 'p' ∨ c = '\x7d') := by
  -- a slash, the `p` of `pub`, or a brace
  cases h with
  | comment text => exact ⟨_, _, rfl, .inl rfl⟩
  | start hname =>
    simp only [String.toList_append]
    exact ⟨_, _, rfl, .inr (.inl rfl)⟩
  | stop => exact ⟨_, _, rfl, .inr (.inr rfl)⟩
  | constant hname hliteral =>
    simp only [String.toList_append]
    exact ⟨_, _, rfl, .inr (.inl rfl)⟩

/-- A line that a listing may have. -/
def IsListingLine (w : Width) (line : List Char) : Prop :=
  (∀ c ∈ line, Text.isBlank c = true) ∨ IsForm w (line.dropWhile (· == ' '))

/-- Behind the indentation stands the line. -/
theorem dropWhile_indent (depth : Nat) {s : String} {c : Char} {cs : List Char}
    (hs : s.toList = c :: cs) (hc : c ≠ ' ') :
    (indent depth ++ s).toList.dropWhile (· == ' ') = s.toList := by
  have hspaces : ∀ b ∈ List.replicate (4 * depth) ' ', (b == ' ') = true := by
    intro b hb
    rw [List.eq_of_mem_replicate hb]
    rfl
  rw [String.toList_append, indent, String.toList_ofList, List.dropWhile_append_of_pos hspaces, hs,
    List.dropWhile_cons_of_neg (by simpa using hc)]

/-- A declaration starts with `p`. -/
theorem toList_declaration (name : String) (type : Width) (literal : Literal) :
    ∃ cs, (declaration name type literal).toList = 'p' :: cs := by
  simp only [declaration, String.toList_append]
  exact ⟨_, rfl⟩

/-- The text of a well-formed line has one of the forms. -/
theorem Line.isListingLine_text {w : Width} {line : Line} (h : line.WellFormed w) :
    IsListingLine w line.text.toList := by
  -- behind its indentation, each form of line is one of the forms of a listing
  cases line with
  | blank => exact .inl fun c hc => absurd hc List.not_mem_nil
  | remark content =>
    rw [text, String.toList_append]
    exact .inr (.comment _)
  | about depth content =>
    right
    rw [text, String.append_assoc, dropWhile_indent depth (String.toList_append ..) (by decide),
      String.toList_append]
    exact .comment _
  | doc depth content =>
    right
    rw [text, String.append_assoc, dropWhile_indent depth (String.toList_append ..) (by decide),
      String.toList_append]
    exact .comment _
  | start depth name =>
    right
    rw [text, String.append_assoc, String.append_assoc,
      dropWhile_indent depth (String.toList_append ..) (by decide), ← String.append_assoc]
    exact .start h
  | stop depth =>
    right
    rw [text, dropWhile_indent depth rfl (by decide)]
    exact .stop
  | constant depth name type literal =>
    right
    obtain ⟨cs, hcs⟩ := toList_declaration name type literal
    obtain ⟨hname, htype, _⟩ := h
    subst htype
    rw [text, dropWhile_indent depth hcs (by decide)]
    exact .constant hname literal.isLiteral_text
  | placeholder depth name type number content =>
    right
    rw [text, String.append_assoc, String.append_assoc, String.append_assoc,
      dropWhile_indent depth (String.toList_append ..) (by decide), String.toList_append]
    exact .comment _

/-! ## The lines of a listing -/

/-- The text in front of the name of the device. -/
def bannerPrefix : String := "// Register and interrupt constants for "

/-- The lines of a listing: those that the name of the device makes of the first line, and
    one for every other line. -/
theorem lines_text {d : Device} (h : d.WellFormed) (o : Options) :
    ∃ rest : List Line, (∀ line ∈ rest, line.WellFormed d.width)
      ∧ Text.lines (d.listing o).text.toList
        = ((bannerPrefix.toList ++ (d.name.getD "device" ++ ".").toList).splitOn '\n').map
            Text.dropReturn
          ++ rest.map fun line => line.text.toList := by
  have hremark : IsLine "Generated file, do not edit.".toList := by decide
  have hrest : ∀ line ∈ Line.remark "Generated file, do not edit." :: (d.listing o).bodyLines,
      line.WellFormed d.width := List.forall_mem_cons.2 ⟨hremark, wellFormed_bodyLines h o⟩
  have hfirst : (Line.remark ("Register and interrupt constants for " ++ d.name.getD "device"
      ++ ".")).text.toList = bannerPrefix.toList ++ (d.name.getD "device" ++ ".").toList := by
    simp only [Line.text, String.toList_append, ← List.append_assoc]
    rfl
  refine ⟨_, hrest, ?_⟩
  -- only the first line may be broken, so it is split off and the others are read back
  rw [toList_text, lines_eq_banner_append, banner, List.cons_append, List.cons_append,
    List.nil_append, List.map_cons, Text.unlines_cons, Text.lines_append_break,
    lines_unlines_text hrest, ← hfirst]
  rfl

/-- The lines that a name with the full stop behind it makes. -/
theorem lines_name (name : String) :
    Text.lines (name ++ ".\n").toList
      = ((name ++ ".").toList.splitOn '\n').map Text.dropReturn := by
  have hname : (name ++ ".\n").toList = (name ++ ".").toList ++ '\n' :: [] := by
    simp only [String.toList_append, List.append_assoc]
    rfl
  rw [hname, Text.lines_append_break, Text.lines_nil, List.append_nil]

/-- The first line of the banner is a comment, wherever the name of the device breaks it. -/
theorem isListingLine_dropReturn_comment (w : Width) (c : Char) (text : List Char) :
    IsListingLine w (Text.dropReturn ('/' :: '/' :: c :: text)) := by
  right
  unfold Text.dropReturn
  split
  · exact .comment _
  · exact .comment _

/-- The lines of the listing of a well-formed device have one of the forms exactly if those
    do that the name of the device makes behind its first line break. -/
theorem isListingLine_iff_of_wellFormed {d : Device} (h : d.WellFormed) (o : Options) :
    (∀ line ∈ Text.lines (d.listing o).text.toList, IsListingLine d.width line)
      ↔ ∀ line ∈ (Text.lines (d.name.getD "device" ++ ".\n").toList).tail,
          IsListingLine d.width line := by
  obtain ⟨rest, hrest, hlines⟩ := lines_text h o
  have hbreak : '\n' ∉ bannerPrefix.toList := by decide
  rw [hlines, lines_name, Text.splitOn_break_append hbreak]
  cases hpieces : (d.name.getD "device" ++ ".").toList.splitOn '\n' with
  | nil => exact absurd hpieces (List.splitOn_ne_nil _ _)
  | cons first pieces =>
    -- only the first piece has the comment mark of the banner in front
    have hfirst : IsListingLine d.width (Text.dropReturn (bannerPrefix.toList ++ first)) :=
      isListingLine_dropReturn_comment d.width _ _
    have hwf : ∀ line ∈ rest.map fun line => line.text.toList, IsListingLine d.width line := by
      intro line hline
      obtain ⟨l, hl, htext⟩ := List.mem_map.1 hline
      exact htext ▸ Line.isListingLine_text (hrest l hl)
    rw [List.modifyHead_cons, List.map_cons, List.map_cons, List.cons_append, List.tail_cons]
    constructor
    · intro hall line hline
      exact hall line (List.mem_cons_of_mem _ (List.mem_append_left _ hline))
    · intro htail line hline
      obtain hline | hline := List.mem_cons.1 hline
      · exact hline ▸ hfirst
      · obtain hline | hline := List.mem_append.1 hline
        · exact htail line hline
        · exact hwf line hline

end RegisterMap.Listing

namespace RegisterMap.Device

open Listing

/-- A name of one line keeps all lines of the listing in their forms. -/
theorem isListingLine_of_name {text : String} {d : Device} (h : (ofText text).Gives d)
    (hname : ∀ name, d.name = some name → '\n' ∉ name.toList) (o : Options) :
    ∀ line ∈ Text.lines (d.listing o).text.toList, IsListingLine d.width line := by
  apply (isListingLine_iff_of_wellFormed (wellFormed_of_gives h) o).2
  -- without a break in the name, the banner has no further line
  have hbreak : '\n' ∉ (d.name.getD "device" ++ ".").toList := by
    rw [String.toList_append, List.mem_append]
    intro hmem
    obtain hmem | hmem := hmem
    · cases hd : d.name with
      | none =>
        rw [hd] at hmem
        exact absurd hmem (by decide)
      | some name =>
        rw [hd] at hmem
        exact hname name hd hmem
    · exact absurd hmem (by decide)
  rw [lines_name, List.splitOn_eq_singleton hbreak]
  exact fun line hline => absurd hline List.not_mem_nil

/-- The lines of the listing of a compiled device have one of the forms exactly if those
    lines do that the name of the device makes behind its first line break. -/
theorem isListingLine_iff {text : String} {d : Device} (h : (ofText text).Gives d) (o : Options) :
    (∀ line ∈ Text.lines (d.listing o).text.toList, IsListingLine d.width line)
      ↔ ∀ line ∈ (Text.lines (d.name.getD "device" ++ ".\n").toList).tail,
          IsListingLine d.width line :=
  isListingLine_iff_of_wellFormed (wellFormed_of_gives h) o

/-- The device of three ports, whose name is one line. -/
theorem isListingLine_ports :
    (ofText portsText).Gives ports
      ∧ ∀ line ∈ Text.lines (ports.listing {}).text.toList, IsListingLine .w32 line := by
  have hname : (Text.lines (ports.name.getD "device" ++ ".\n").toList).tail = [] := by
    decide +kernel
  refine ⟨gives_ports, (isListingLine_iff gives_ports {}).2 ?_⟩
  rw [hname]
  exact fun line hline => absurd hline List.not_mem_nil

/-- A description of a device without peripherals, whose name goes on behind a line break. -/
def brokenNameText : String :=
  "<device><name>A&#10;B</name><width>8</width><peripherals></peripherals></device>"

/-- The device with the broken name. -/
def brokenName : Device := ⟨some "A\nB", .w8, [], [], []⟩

/-- The second line of a broken name stands in the listing outside any comment. -/
theorem not_isListingLine_brokenName :
    (ofText brokenNameText).Gives brokenName
      ∧ ¬ ∀ line ∈ Text.lines (brokenName.listing {}).text.toList, IsListingLine .w8 line := by
  constructor
  · unfold brokenNameText ofText Xml.Document.parse?
    rw [String.toList_ofList]
    decide +kernel
  · intro h
    have hmem : ['B', '.'] ∈ Text.lines (brokenName.listing {}).text.toList := by
      decide +kernel
    -- the line is neither blank nor starts like one of a listing
    obtain hblank | hform := h _ hmem
    · exact absurd (hblank 'B' List.mem_cons_self) (by decide)
    · obtain ⟨c, cs, hcs, hc⟩ := hform.head
      have hcb : 'B' = c := (List.cons.inj hcs).1
      rw [← hcb] at hc
      exact absurd hc (by decide)

end RegisterMap.Device
