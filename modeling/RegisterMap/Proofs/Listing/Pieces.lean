import RegisterMap.Proofs.Listing.RoundTrip
import RegisterMap.Proofs.Listing.Shape

/-!
# The pieces of a listing

Below its banner a listing is made of pieces: the module of the groups, one module
for each peripheral, and the module of the interrupts. The options of a listing
say which pieces are there and whether descriptions are. If no two pieces want
the same name, this is all they do: every listing of a device is the one that
shows everything, less the pieces that are not kept and less the lines of the
descriptions.

- `Line.isDocText_text`: a description is known by its text
- `Device.PiecesApart.bodyLines_eq`: the lines of a listing, piece by piece
- `Device.listing_deletes_pieces`: the text of a listing
-/

namespace RegisterMap.Listing

open Text (IsLine)

/-! ## Descriptions among the lines of a text -/

/-- Whether a line of a text is a description: behind its leading spaces it starts with three
    slashes. -/
def isDocText (line : List Char) : Bool := ['/', '/', '/'].isPrefixOf (line.dropWhile (· == ' '))

/-- The indentation does not hide that a line is a doc comment, and does not make it one. -/
theorem isDocText_indent (depth : Nat) {s : String} {c : Char} {cs : List Char}
    (hs : s.toList = c :: cs) (hc : c ≠ ' ') :
    isDocText (indent depth ++ s).toList = ['/', '/', '/'].isPrefixOf s.toList := by
  rw [isDocText, dropWhile_indent depth hs hc]

/-- A description is known by its text. -/
theorem Line.isDocText_text (line : Line) : isDocText line.text.toList = line.isDoc := by
  -- only a doc comment has three slashes behind the indentation
  cases line with
  | blank => rfl
  | remark content =>
    rw [text, String.toList_append]
    rfl
  | about depth content =>
    rw [text, String.append_assoc, isDocText_indent depth (String.toList_append ..) (by decide),
      String.toList_append]
    rfl
  | doc depth content =>
    rw [text, String.append_assoc, isDocText_indent depth (String.toList_append ..) (by decide),
      String.toList_append]
    rfl
  | start depth name =>
    rw [text, String.append_assoc, String.append_assoc,
      isDocText_indent depth (String.toList_append ..) (by decide), String.toList_append]
    rfl
  | stop depth =>
    rw [text, isDocText_indent depth rfl (by decide)]
    rfl
  | constant depth name type literal =>
    obtain ⟨cs, hcs⟩ := toList_declaration name type literal
    rw [text, isDocText_indent depth hcs (by decide), hcs]
    rfl
  | placeholder depth name type number content =>
    rw [text, String.append_assoc, String.append_assoc, String.append_assoc,
      isDocText_indent depth (String.toList_append ..) (by decide), String.toList_append]
    rfl

/-! ## The depth of lines -/

namespace Line

/-- How many modules a line stands in. -/
def depth : Line → Nat
  | blank => 0
  | remark _ => 0
  | about depth _ => depth
  | doc depth _ => depth
  | start depth _ => depth
  | stop depth => depth
  | constant depth _ _ _ => depth
  | placeholder depth _ _ _ _ => depth

/-- An indented line starts with a blank. -/
theorem head?_indent {depth : Nat} (h : 0 < depth) (s : String) :
    (indent depth ++ s).toList.head? = some ' ' := by
  obtain ⟨n, rfl⟩ := Nat.exists_eq_add_of_lt h
  rw [String.toList_append, indent, String.toList_ofList]
  rfl

/-- A line in a module is indented. -/
theorem head?_text {line : Line} (h : 0 < line.depth) : line.text.toList.head? = some ' ' := by
  -- the two forms without a depth are excluded by the hypothesis
  cases line with
  | blank => cases h
  | remark content => cases h
  | about depth content =>
    rw [text, String.append_assoc]
    exact head?_indent h _
  | doc depth content =>
    rw [text, String.append_assoc]
    exact head?_indent h _
  | start depth name =>
    rw [text, String.append_assoc, String.append_assoc]
    exact head?_indent h _
  | stop depth => exact head?_indent h _
  | constant depth name type literal => exact head?_indent h _
  | placeholder depth name type number content =>
    rw [text, String.append_assoc, String.append_assoc, String.append_assoc]
    exact head?_indent h _

end Line

/-- The lines of a description stand at the depth of what they describe. -/
theorem depth_of_mem_docLines {depth : Nat} {description : Option String} {line : Line}
    (h : line ∈ docLines depth description) : line.depth = depth := by
  cases description with
  | none => exact absurd h List.not_mem_nil
  | some s => rw [List.mem_singleton.1 h, Line.depth]

/-- The lines of a constant stand at its depth. -/
theorem Constant.depth_of_mem_lines {w : Width} {depth : Nat} {c : Constant} {line : Line}
    (h : line ∈ c.lines w depth) : line.depth = depth := by
  obtain h | h := List.mem_append.1 h
  · exact depth_of_mem_docLines h
  · rw [List.mem_singleton.1 h, Line.depth]

/-- The lines of a table stand at its depth or deeper. -/
theorem Table.le_depth_of_mem_lines {w : Width} {depth : Nat} {t : Table} {line : Line}
    (h : line ∈ t.lines w depth) : depth ≤ line.depth := by
  rw [lines, enclose, List.cons_append, List.mem_cons, List.mem_append, List.mem_singleton] at h
  -- the head and the end stand at the depth, what is inside one step deeper
  obtain rfl | h | rfl := h
  · exact Nat.le_refl depth
  · obtain ⟨c, _, hline⟩ := mem_flatMap_lines.1 h
    have hdepth := Constant.depth_of_mem_lines hline
    omega
  · exact Nat.le_refl depth

/-- The lines of a register are indented. -/
theorem RegisterEntry.depth_pos_of_mem_lines {w : Width} {e : RegisterEntry} {line : Line}
    (h : line ∈ e.lines w) : 0 < line.depth := by
  obtain h | h := List.mem_append.1 h
  · obtain ⟨c, _, hline⟩ := Verdict.mem_lines.1 h
    have hdepth := Constant.depth_of_mem_lines hline
    omega
  · obtain ⟨fields, _, hline⟩ := Verdict.mem_lines.1 h
    obtain ⟨t, _, hline⟩ := List.mem_flatMap.1 hline
    exact Table.le_depth_of_mem_lines hline

/-- The lines of a vector are indented. -/
theorem Vector.depth_pos_of_mem_lines {w : Width} {v : Vector} {line : Line}
    (h : line ∈ v.lines w) : 0 < line.depth := by
  cases v with
  | constant c =>
    have hdepth := Constant.depth_of_mem_lines h
    omega
  | placeholder name number description =>
    rw [List.mem_singleton.1 h]
    exact Nat.zero_lt_one

/-! ## Pieces -/

/-- A piece of a listing below its banner. -/
inductive Piece where
  | groups
  | peripheral (p : Peripheral)
  | interrupts
  deriving Repr, DecidableEq

namespace Piece

/-- The name of the module that a piece is. -/
def moduleName : Piece → String
  | groups => "groups"
  | peripheral p => Name.toModule p.name
  | interrupts => "interrupts"

/-- The description above the module. -/
def description : Piece → Option String
  | groups => none
  | peripheral p => p.description
  | interrupts => none

/-- Whether a listing with some options keeps a piece. -/
def isKept (o : Options) : Piece → Bool
  | groups => o.groups
  | peripheral p => o.selection.admits p.name
  | interrupts => true

/-- The lines inside the module. -/
def inner (d : Device) : Piece → List Line
  | groups =>
    .about 1 "Register offsets relative to the base address of each peripheral."
      :: (claim [] (d.groups.map (groupItem d.width))).flatMap
        (Verdict.lines (Table.lines d.width 1))
  | peripheral p =>
    let m := PeripheralModule.ofPeripheral d.width p (d.registersOf p.group)
    m.base.lines (Constant.lines d.width 1) ++ m.registers.flatMap (RegisterEntry.lines d.width)
  | interrupts =>
    (claim [] (d.interrupts.map (interruptItem d.width))).flatMap
      (Verdict.lines (Vector.lines d.width))

/-- The lines of a piece: a blank line, the description, and the module. -/
def lines (d : Device) (p : Piece) : List Line :=
  .blank :: docLines 0 p.description ++ enclose 0 p.moduleName (p.inner d)

/-- The lines of a piece, as they are written. -/
def block (d : Device) (p : Piece) : List (List Char) :=
  (p.lines d).map fun line => line.text.toList

/-- What the lines of a piece look like in a text: a blank line, the description if there is one,
    and the module, in which every line is indented. -/
structure IsBlock (p : Piece) (ls : List (List Char)) : Prop where
  isLine : ∀ l ∈ ls, IsLine l
  form : ∃ inner : List (List Char), (∀ l ∈ inner, l.head? = some ' ')
    ∧ ls = [] :: p.description.toList.map (fun s => ("/// " ++ s).toList)
      ++ ("pub mod " ++ p.moduleName ++ " \x7b").toList :: inner ++ [['\x7d']]

/-- All that stands between the head and the end of a piece is indented. -/
theorem depth_pos_of_mem_inner {d : Device} {p : Piece} {line : Line} (h : line ∈ p.inner d) :
    0 < line.depth := by
  -- a remark and the tables, the constants of a peripheral, or the vectors
  cases p with
  | groups =>
    obtain rfl | h := List.mem_cons.1 h
    · exact Nat.zero_lt_one
    · obtain ⟨t, _, hline⟩ := mem_flatMap_lines.1 h
      exact Table.le_depth_of_mem_lines hline
  | peripheral p =>
    obtain h | h := List.mem_append.1 h
    · obtain ⟨c, _, hline⟩ := Verdict.mem_lines.1 h
      have hdepth := Constant.depth_of_mem_lines hline
      omega
    · obtain ⟨e, _, hline⟩ := List.mem_flatMap.1 h
      exact RegisterEntry.depth_pos_of_mem_lines hline
  | interrupts =>
    obtain ⟨v, _, hline⟩ := mem_flatMap_lines.1 h
    exact Vector.depth_pos_of_mem_lines hline

/-- The block of a piece is a block of it, if its lines are well formed. -/
theorem isBlock_block {d : Device} {p : Piece}
    (h : ∀ line ∈ p.lines d, line.WellFormed d.width) : p.IsBlock (p.block d) where
  isLine := by
    intro l hl
    obtain ⟨line, hline, rfl⟩ := List.mem_map.1 hl
    exact Line.isLine_text (h line hline)
  form := by
    refine ⟨(p.inner d).map fun line => line.text.toList, ?_, ?_⟩
    · intro l hl
      obtain ⟨line, hline, rfl⟩ := List.mem_map.1 hl
      exact Line.head?_text (depth_pos_of_mem_inner hline)
    · -- at depth zero nothing stands in front of a line
      have hindent : indent 0 = "" := rfl
      cases hp : p.description with
      | none => simp [block, lines, hp, docLines, enclose, Line.text, hindent]
      | some s => simp [block, lines, hp, docLines, enclose, Line.text, hindent]

end Piece

end RegisterMap.Listing

namespace RegisterMap.Device

open Listing

/-- The pieces of the listing that shows everything, in order. -/
def pieces (d : Device) : List Piece :=
  (if d.groups.isEmpty then [] else [.groups]) ++ d.peripherals.map .peripheral
    ++ if d.interrupts.isEmpty then [] else [.interrupts]

/-- No two pieces want the same name: those of the peripherals are different, and none is that of
    another piece. -/
structure PiecesApart (d : Device) : Prop where
  nodup : (d.peripherals.map fun p => Name.toModule p.name).Nodup
  groups : ∀ p ∈ d.peripherals, Name.toModule p.name ≠ "groups"
  interrupts : ∀ p ∈ d.peripherals, Name.toModule p.name ≠ "interrupts"

variable {d : Device} {o : Options}

/-- No selected peripheral is left out. -/
theorem PiecesApart.contents_peripherals (h : d.PiecesApart) (o : Options) :
    contents (d.listing o).peripherals
      = (d.peripherals.filter fun p => o.selection.admits p.name).map fun p =>
          PeripheralModule.ofPeripheral d.width p (d.registersOf p.group) := by
  -- no two of the selected peripherals share a module, so each is the first of its name
  have hnodup : (((d.peripherals.filter fun p => o.selection.admits p.name).map fun p =>
      PeripheralModule.ofPeripheral d.width p (d.registersOf p.group)).map
        PeripheralModule.name).Nodup := by
    rw [List.map_map]
    exact h.nodup.sublist (List.filter_sublist.map _)
  rw [Listing.contents_peripherals, FirstWins.firsts_of_nodup hnodup, List.filter_eq_self]
  intro m hm
  obtain ⟨p, hp, rfl⟩ := List.mem_map.1 hm
  have hmem : p ∈ d.peripherals := List.mem_of_mem_filter hp
  have hfree : Name.toModule p.name ∉ reservedModules d o := by
    intro hreserved
    -- whatever the options reserve, it is one of the two names
    obtain hreserved | hreserved := List.mem_append.1 hreserved
    · split at hreserved
      · exact h.groups p hmem (List.mem_singleton.1 hreserved)
      · cases hreserved
    · split at hreserved
      · cases hreserved
      · exact h.interrupts p hmem (List.mem_singleton.1 hreserved)
  simpa using hfree

/-- The module of the groups is there if there are groups and the options keep it. -/
theorem flatMap_groups (d : Device) (o : Options) :
    (d.listing o).groups.toList.flatMap (fun groups => .blank :: groupLines d.width groups)
      = ((if d.groups.isEmpty then [] else [.groups]).filter (Piece.isKept o)).flatMap
          (Piece.lines d) := by
  -- a device without groups has no piece of them to keep
  cases hd : d.groups.isEmpty with
  | true => simp [Device.listing, hd]
  | false =>
    cases ho : o.groups with
    | true =>
      have hlisting : (d.listing o).groups
          = some (claim [] (d.groups.map (groupItem d.width))) := by
        simp [Device.listing, hd, ho]
      have hkept : Piece.isKept o .groups = true := ho
      rw [hlisting, if_neg Bool.false_ne_true, List.filter_cons_of_pos hkept]
      rfl
    | false => simp [Device.listing, hd, ho, Piece.isKept]

/-- The modules of the peripherals are those that the options keep. -/
theorem PiecesApart.flatMap_peripherals (h : d.PiecesApart) (o : Options) :
    (contents (d.listing o).peripherals).flatMap (fun m => .blank :: m.lines d.width)
      = ((d.peripherals.map .peripheral).filter (Piece.isKept o)).flatMap (Piece.lines d) := by
  rw [h.contents_peripherals, List.filter_map, List.flatMap_map, List.flatMap_map]
  rfl

/-- The module of the interrupts is there if there are interrupts. -/
theorem flatMap_interrupts (d : Device) (o : Options) :
    (d.listing o).interrupts.toList.flatMap
        (fun vectors => .blank :: interruptLines d.width vectors)
      = ((if d.interrupts.isEmpty then [] else [.interrupts]).filter (Piece.isKept o)).flatMap
          (Piece.lines d) := by
  cases hd : d.interrupts.isEmpty with
  | true => simp [Device.listing, hd]
  | false =>
    -- no option leaves the interrupts out
    have hlisting : (d.listing o).interrupts
        = some (claim [] (d.interrupts.map (interruptItem d.width))) := by
      simp [Device.listing, hd]
    rw [hlisting]
    rfl

/-- The lines of a listing below its banner are those of the pieces that are kept, less the
    descriptions if they are not wanted. -/
theorem PiecesApart.bodyLines_eq (h : d.PiecesApart) (o : Options) :
    (d.listing o).bodyLines
      = ((d.pieces.filter (Piece.isKept o)).flatMap (Piece.lines d)).filter
          fun line => o.descriptions || !line.isDoc := by
  -- the pieces stand in the order of the listing
  have hkept : (d.pieces.filter (Piece.isKept o)).flatMap (Piece.lines d)
      = (d.listing o).groups.toList.flatMap (fun groups => .blank :: groupLines d.width groups)
        ++ (contents (d.listing o).peripherals).flatMap (fun m => .blank :: m.lines d.width)
        ++ (d.listing o).interrupts.toList.flatMap
          (fun vectors => .blank :: interruptLines d.width vectors) := by
    rw [pieces, List.filter_append, List.filter_append, List.flatMap_append, List.flatMap_append,
      ← flatMap_groups, ← h.flatMap_peripherals, ← flatMap_interrupts]
  rw [hkept, bodyLines, flatMap_lines]
  rfl

/-- The listing that shows everything keeps every piece. -/
theorem filter_isKept_default (d : Device) : d.pieces.filter (Piece.isKept {}) = d.pieces := by
  refine List.filter_eq_self.2 fun p _ => ?_
  cases p <;> rfl

/-- The pieces of a well-formed device are blocks of lines. -/
theorem PiecesApart.isBlock (h : d.PiecesApart) (hd : d.WellFormed) {p : Piece}
    (hp : p ∈ d.pieces) : p.IsBlock (p.block d) := by
  refine Piece.isBlock_block fun line hline => wellFormed_bodyLines hd {} line ?_
  rw [h.bodyLines_eq, filter_isKept_default]
  exact List.mem_filter.2 ⟨List.mem_flatMap.2 ⟨p, hp, hline⟩, rfl⟩

/-- The text of a listing, piece by piece. -/
theorem PiecesApart.text_eq (h : d.PiecesApart) (o : Options) :
    (d.listing o).text
      = bannerText d.name ++ String.ofList (Text.unlines
          (((d.pieces.filter (Piece.isKept o)).flatMap (Piece.block d)).filter
            fun l => o.descriptions || !isDocText l)) := by
  -- to filter the lines is to filter their texts
  have hlines : ∀ ls : List Line,
      (ls.filter fun line => o.descriptions || !line.isDoc).map (fun line => line.text.toList)
        = (ls.map fun line => line.text.toList).filter fun l => o.descriptions || !isDocText l := by
    intro ls
    rw [List.filter_map]
    congr 2
    funext line
    exact congrArg (fun b => o.descriptions || !b) line.isDocText_text.symm
  rw [text_eq_banner_append, bodyText, h.bodyLines_eq, hlines, List.map_flatMap]
  rfl

/-- If no two pieces want the same name, then every listing of a compiled device is the one that
    shows everything, less the blocks of the pieces that its options do not keep, and less all
    lines that are descriptions if it shows none. -/
theorem listing_deletes_pieces {text : String} (h : (ofText text).Gives d)
    (hapart : d.PiecesApart) :
    ∃ block : Piece → List (List Char), (∀ p ∈ d.pieces, p.IsBlock (block p))
      ∧ (d.listing {}).text
        = bannerText d.name ++ String.ofList (Text.unlines (d.pieces.flatMap block))
      ∧ ∀ o : Options, (d.listing o).text
        = bannerText d.name ++ String.ofList (Text.unlines
            (((d.pieces.filter (Piece.isKept o)).flatMap block).filter
              fun l => o.descriptions || !isDocText l)) := by
  refine ⟨Piece.block d, fun p => hapart.isBlock (wellFormed_of_gives h), ?_, hapart.text_eq⟩
  -- the listing that shows everything shows all descriptions
  have hall : ∀ ls : List (List Char),
      ls.filter (fun l => ({} : Options).descriptions || !isDocText l) = ls :=
    fun ls => List.filter_eq_self.2 fun _ _ => rfl
  rw [hapart.text_eq, filter_isKept_default, hall]

/-- Only the first two of the ports and the interrupts, without descriptions. -/
def fewPorts : Options where
  groups := false
  descriptions := false
  selection := Selection.all.withExcluded "Pb"

/-- The device of three ports without its groups and without the peripheral between the two
    others. -/
theorem listing_deletes_pieces_ports :
    (ofText portsText).Gives ports ∧ ports.PiecesApart
      ∧ ∃ block : Piece → List (List Char), (∀ p ∈ ports.pieces, p.IsBlock (block p))
        ∧ (ports.listing fewPorts).text
          = bannerText (some "Ports") ++ String.ofList (Text.unlines
              (([.peripheral ⟨"PA", "PORT", none, 0x40020000, none⟩,
                .peripheral ⟨"PC", "PORT", some "PA", 0x40020800, none⟩,
                .interrupts].flatMap block).filter fun l => !isDocText l)) := by
  have hapart : ports.PiecesApart := by
    constructor <;> decide +kernel
  obtain ⟨block, hblock, _, htext⟩ := listing_deletes_pieces gives_ports hapart
  -- of the five pieces, these three are kept
  have hkept : ports.pieces.filter (Piece.isKept fewPorts)
      = [.peripheral ⟨"PA", "PORT", none, 0x40020000, none⟩,
        .peripheral ⟨"PC", "PORT", some "PA", 0x40020800, none⟩, .interrupts] := by
    decide +kernel
  refine ⟨gives_ports, hapart, block, hblock, ?_⟩
  rw [htext fewPorts, hkept]
  rfl

end RegisterMap.Device
