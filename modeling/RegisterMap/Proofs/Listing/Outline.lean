import RegisterMap.Proofs.Listing.RoundTrip

/-!
# Outlines

A listing is read by its braces: the start of a module opens a scope, a brace
closes the one that was opened last, and a constant is declared in the scope
that is open, with the integer type that stands behind its name. The reader
takes no notice of how far a line is indented, skips blank lines and comments,
and refuses everything else. What it gives is the tree of the scopes
(`Outline.read?`).

- `Outline.sign?_text`: a line is taken for what it was written for
- `Outline.Builds`: some lines declare something in the scope that is open
- `Outline.read?_bodyText`: the outline of a listing
-/

namespace RegisterMap

/-- The width whose integer type has a name. -/
def Width.ofTypeName? (name : List Char) : Option Width :=
  [w8, w16, w32, w64].find? fun w => w.typeName.toList == name

/-- The name of a type determines the width. -/
theorem Width.ofTypeName?_typeName (w : Width) : ofTypeName? w.typeName.toList = some w := by
  cases w <;> decide

namespace Listing

open Name (AllWordChars)
open Reader (behind? behind?_append behind_indent until?_append)

/-! ## The reader -/

/-- A constant with the integer type that is declared for it. -/
structure TypedConstant where
  name : String
  type : Width
  value : Nat
  deriving Repr, DecidableEq

/-- What is declared in a scope: constants, and scopes with their own declarations. -/
inductive Decl where
  | constant (c : TypedConstant)
  | scope (name : String) (inside : List Decl)
  deriving Repr

/-- What a line says. -/
inductive Sign where
  | nothing
  | opens (name : String)
  | closes
  | declares (c : TypedConstant)
  deriving Repr, DecidableEq

/-- A scope that has been opened, with what had been declared around it by then. -/
structure OpenScope where
  name : String
  before : List Decl
  deriving Repr

/-- The scopes that are open, innermost first, and what has been declared in the innermost one. -/
structure Outline where
  scopes : List OpenScope
  decls : List Decl
  deriving Repr

namespace Outline

/-- What the start of a module says, behind its keyword. -/
def opens? (cs : List Char) : Option Sign := do
  let (name, rest) ← Xml.until? " \x7b".toList cs
  if rest = [] then some (.opens (String.ofList name)) else none

/-- What a constant says, behind its keyword. -/
def declares? (cs : List Char) : Option Sign := do
  let (name, cs) ← Xml.until? ": ".toList cs
  let (type, cs) ← Xml.until? " = ".toList cs
  let (value, rest) ← Xml.until? ";".toList cs
  if rest = [] then
    return .declares ⟨String.ofList name, ← Width.ofTypeName? type, ← Literal.value? value⟩
  else none

/-- What a line says, without the blanks in front of it. -/
def signOf? (cs : List Char) : Option Sign :=
  if cs = [] ∨ "//".toList.isPrefixOf cs then some .nothing
  else if cs = "\x7d".toList then some .closes
  else
    match behind? "pub mod ".toList cs with
    | some rest => opens? rest
    | none => (behind? "pub const ".toList cs).bind declares?

/-- What a line says. -/
def sign? (line : List Char) : Option Sign := signOf? (line.dropWhile Text.isBlank)

/-- The outline with one more line. A brace that closes nothing is refused. -/
def step? (o : Outline) : Sign → Option Outline
  | .nothing => some o
  | .opens name => some ⟨⟨name, o.decls⟩ :: o.scopes, []⟩
  | .closes =>
    match o.scopes with
    | [] => none
    | scope :: scopes => some ⟨scopes, scope.before ++ [.scope scope.name o.decls]⟩
  | .declares c => some ⟨o.scopes, o.decls ++ [.constant c]⟩

/-- What is declared in a text. Every scope that it opens has to be closed. -/
def read? (text : String) : Option (List Decl) := do
  let signs ← (Text.lines text.toList).mapM sign?
  let o ← signs.foldlM step? ⟨[], []⟩
  if o.scopes.isEmpty then some o.decls else none

end Outline

/-! ## Lines -/

/-- What a line says, by what it was written for. -/
def Line.sign : Line → Sign
  | start _ name => .opens name
  | stop _ => .closes
  | constant _ name type literal => .declares ⟨name, type, literal.value⟩
  | _ => .nothing

namespace Outline

/-- The sign of a line is that of what follows the indentation. -/
theorem sign?_indent (depth : Nat) {c : Char} (hc : Text.isBlank c = false) (cs : List Char) :
    sign? ((indent depth).toList ++ c :: cs) = signOf? (c :: cs) := by
  rw [sign?, (behind_indent depth hc cs).2]

/-- A comment says nothing to the outline. -/
theorem signOf?_comment (cs : List Char) : signOf? ("//".toList ++ cs) = some .nothing :=
  if_pos (.inr (List.isPrefixOf_iff_prefix.2 (List.prefix_append _ _)))

/-- Behind the keyword of a module stands its name and a brace. -/
theorem signOf?_start {name : String} (h : AllWordChars name) :
    signOf? ("pub mod ".toList ++ (name.toList ++ " \x7b".toList)) = some (.opens name) := by
  -- the name ends at the blank before the brace, as no word has one
  have hblank : ' ' ∉ name.toList := fun hmem => absurd (h ' ' hmem) (by decide)
  have hname : Xml.until? " \x7b".toList (name.toList ++ " \x7b".toList)
      = some (name.toList, []) := until?_append hblank []
  have hsign : signOf? ("pub mod ".toList ++ (name.toList ++ " \x7b".toList))
      = opens? (name.toList ++ " \x7b".toList) := rfl
  rw [hsign, opens?, hname]
  simp

/-- A declaration says its name, its type and its value, if the value fits in the type. -/
theorem signOf?_constant {w : Width} {name : String} (h : AllWordChars name) {literal : Literal}
    (hvalue : literal.value ≤ w.maxValue) :
    signOf? ("pub const ".toList ++ (name.toList ++ (": ".toList ++ (w.typeName.toList
      ++ (" = ".toList ++ (literal.text.toList ++ ";".toList))))))
      = some (.declares ⟨name, w, literal.value⟩) := by
  -- no mark that ends a part of the line stands in that part
  have hcolon : ':' ∉ name.toList := fun hmem => absurd (h ':' hmem) (by decide)
  have hblank : ' ' ∉ w.typeName.toList := by
    cases w <;> decide
  have hstop : ';' ∉ literal.text.toList := fun hmem =>
    absurd (literal.isLiteral_text.isWordChar ';' hmem) (by decide)
  have hlimit : w.maxValue < Word.limit := by
    cases w <;> decide
  have hsign : ∀ cs, signOf? ("pub const ".toList ++ cs) = declares? cs := fun cs => rfl
  have hname : ∀ cs, Xml.until? ": ".toList (name.toList ++ (": ".toList ++ cs))
      = some (name.toList, cs) := fun cs => until?_append hcolon cs
  have htype : ∀ cs, Xml.until? " = ".toList (w.typeName.toList ++ (" = ".toList ++ cs))
      = some (w.typeName.toList, cs) := fun cs => until?_append hblank cs
  have hliteral : Xml.until? ";".toList (literal.text.toList ++ ";".toList)
      = some (literal.text.toList, []) := until?_append hstop []
  rw [hsign, declares?, hname]
  simp only [Option.bind_eq_bind, Option.bind_some, htype, hliteral, ↓reduceIte,
    Width.ofTypeName?_typeName, Literal.value?_text (Nat.lt_of_le_of_lt hvalue hlimit),
    String.ofList_toList, Option.pure_def]

/-- The reader takes a line for what it was written for. -/
theorem sign?_text {w : Width} {line : Line} (h : line.WellFormed w) :
    sign? line.text.toList = some line.sign := by
  -- four forms of line are comments, and those are read in one way
  have hcomment : line.isComment = true → sign? line.text.toList = some .nothing := by
    intro hline
    obtain ⟨depth, cs, htext⟩ := Line.exists_text_of_isComment hline
    rw [htext]
    exact (sign?_indent depth (by decide) _).trans (signOf?_comment cs)
  cases line with
  | blank => rfl
  | start depth name =>
    rw [Line.toList_text_start]
    exact (sign?_indent depth (c := 'p') (by decide) _).trans (signOf?_start h)
  | stop depth =>
    rw [Line.toList_text_stop]
    exact sign?_indent depth (by decide) _
  | constant depth name type literal =>
    obtain ⟨hname, rfl, hvalue⟩ := h
    have htext : (Line.constant depth name type literal).text.toList
        = (indent depth).toList ++ ("pub const ".toList ++ (name.toList ++ (": ".toList
          ++ (type.typeName.toList ++ (" = ".toList ++ (literal.text.toList ++ ";".toList)))))) := by
      simp only [Line.text, declaration, String.toList_append, List.append_assoc]
    rw [htext]
    exact (sign?_indent depth (c := 'p') (by decide) _).trans (signOf?_constant hname hvalue)
  | _ => exact hcomment rfl

/-- Every line of a well-formed listing has a sign. -/
theorem mapM_sign?_text {w : Width} {ls : List Line} (h : ∀ line ∈ ls, line.WellFormed w) :
    (ls.map fun line => line.text.toList).mapM sign? = some (ls.map Line.sign) := by
  induction ls with
  | nil => rfl
  | cons line ls ih =>
    obtain ⟨hline, hls⟩ := List.forall_mem_cons.1 h
    rw [List.map_cons, List.mapM_cons, sign?_text hline, ih hls]
    rfl

/-! ## Parts of a listing -/

/-- Some lines declare `ds` in the scope that is open. All scopes that they open are closed. -/
def Builds (ls : List Line) (ds : List Decl) : Prop :=
  ∀ o : Outline, (ls.map Line.sign).foldlM step? o = some ⟨o.scopes, o.decls ++ ds⟩

namespace Builds

variable {ls ms : List Line} {ds es : List Decl}

/-- No lines build an empty outline. -/
theorem nil : Builds [] [] := by
  intro o
  rw [List.append_nil]
  rfl

/-- Two texts build their outlines one after the other. -/
theorem append (hls : Builds ls ds) (hms : Builds ms es) : Builds (ls ++ ms) (ds ++ es) := by
  intro o
  rw [List.map_append, List.foldlM_append, hls o, ← List.append_assoc]
  exact hms _

/-- Pieces that build their declarations build them together. -/
theorem flatMap {α : Type} {as : List α} {lines : α → List Line} {decls : α → List Decl}
    (h : ∀ a ∈ as, Builds (lines a) (decls a)) : Builds (as.flatMap lines) (as.flatMap decls) := by
  induction as with
  | nil => exact nil
  | cons a as ih =>
    obtain ⟨ha, has⟩ := List.forall_mem_cons.1 h
    rw [List.flatMap_cons, List.flatMap_cons]
    exact ha.append (ih has)

/-- Items that declare one thing each. -/
theorem map {α : Type} {as : List α} {lines : α → List Line} {decl : α → Decl}
    (h : ∀ a ∈ as, Builds (lines a) [decl a]) : Builds (as.flatMap lines) (as.map decl) := by
  rw [List.map_eq_flatMap]
  exact flatMap h

/-- A line that says nothing. -/
theorem skip {line : Line} (h : line.sign = .nothing) : Builds [line] [] := by
  intro o
  rw [List.map_singleton, h, List.append_nil]
  rfl

/-- A module is a scope with what is declared inside it. -/
theorem enclose (h : Builds ls ds) (depth : Nat) (name : String) :
    Builds (enclose depth name ls) [.scope name ds] := by
  intro o
  have hinside := h ⟨⟨name, o.decls⟩ :: o.scopes, []⟩
  rw [Listing.enclose, List.cons_append, List.map_cons, List.map_append, List.foldlM_cons]
  -- the first line opens the scope, and the last one finds it as the innermost one
  show (ls.map Line.sign ++ [Line.stop depth].map Line.sign).foldlM step?
    ⟨⟨name, o.decls⟩ :: o.scopes, []⟩ = _
  rw [List.foldlM_append, hinside]
  rfl

/-- Descriptions may be left out. -/
theorem filter_isDoc (h : Builds ls ds) (descriptions : Bool) :
    Builds (ls.filter fun line => descriptions || !line.isDoc) ds := by
  intro o
  rw [← h o]
  clear h
  induction ls generalizing o with
  | nil => rfl
  | cons line ls ih =>
    rw [List.filter_cons, List.map_cons, List.foldlM_cons]
    split
    · rw [List.map_cons, List.foldlM_cons]
      simp only [ih]
    · next hdrop =>
      -- only a description is dropped, and it says nothing
      cases line with
      | doc depth text => exact ih o
      | _ => simp [Line.isDoc] at hdrop

end Builds

/-- The lines of a description build nothing. -/
theorem builds_docLines (depth : Nat) (description : Option String) :
    Builds (docLines depth description) [] := by
  cases description with
  | none => exact .nil
  | some s => exact .skip rfl

end Outline

open Outline (Builds builds_docLines)

/-! ## The outline of a listing -/

/-- A constant of the integer type of a width. -/
def Constant.typed (w : Width) (c : Constant) : TypedConstant := ⟨c.name, w, c.literal.value⟩

/-- Some constants as declarations. -/
def constantDecls (w : Width) (cs : List Constant) : List Decl :=
  cs.map fun c => .constant (c.typed w)

/-- What is declared in a module of constants. -/
def Table.decls (w : Width) (t : Table) : List Decl := constantDecls w (contents t.constants)

/-- Some modules of constants as declarations. -/
def tableDecls (w : Width) (ts : List Table) : List Decl := ts.map fun t => .scope t.name (t.decls w)

/-- What a register declares: its address and the scope of its fields. -/
def RegisterEntry.decls (w : Width) (e : RegisterEntry) : List Decl :=
  constantDecls w (contents [e.address])
    ++ tableDecls w ((contents [e.fields]).flatMap Option.toList)

/-- What is declared in the module of a peripheral. -/
def PeripheralModule.decls (w : Width) (m : PeripheralModule) : List Decl :=
  constantDecls w (contents [m.base]) ++ m.registers.flatMap (RegisterEntry.decls w)

/-- The constant of an interrupt vector. A placeholder is none. -/
def Vector.constant? : Vector → Option Constant
  | constant c => some c
  | placeholder _ _ _ => none

/-- What is declared in a listing. -/
def decls (l : Listing) : List Decl :=
  l.groups.toList.map (fun groups => .scope "groups" (tableDecls l.width (contents groups)))
    ++ (contents l.peripherals).map (fun m => .scope m.name (m.decls l.width))
    ++ l.interrupts.toList.map fun vectors =>
      .scope "interrupts" (constantDecls l.width ((contents vectors).filterMap Vector.constant?))

/-- A constant builds its declaration. -/
theorem Constant.builds (w : Width) (depth : Nat) (c : Constant) :
    Builds (c.lines w depth) [.constant (c.typed w)] :=
  (builds_docLines depth c.description).append fun _ => rfl

/-- A table builds a scope with its constants. -/
theorem Table.builds (w : Width) (depth : Nat) (t : Table) :
    Builds (t.lines w depth) [.scope t.name (t.decls w)] := by
  refine .enclose ?_ depth t.name
  rw [flatMap_lines]
  exact .map fun c _ => c.builds w (depth + 1)

/-- What is written of a constant builds its declaration, what is omitted nothing. -/
theorem builds_constant? (w : Width) (depth : Nat) (v : Verdict Constant) :
    Builds (v.lines (Constant.lines w depth)) (constantDecls w (contents [v])) := by
  cases v with
  | written c => exact c.builds w depth
  | omitted n => exact .nil

/-- A register builds its address and the scope of its fields. -/
theorem RegisterEntry.builds (w : Width) (e : RegisterEntry) : Builds (e.lines w) (e.decls w) := by
  refine (builds_constant? w 1 e.address).append ?_
  -- the module of the fields may be omitted or absent
  cases e.fields with
  | omitted n => exact .nil
  | written fields =>
    cases fields with
    | none => exact .nil
    | some t =>
      rw [Verdict.lines, Option.toList_some, List.flatMap_singleton]
      exact t.builds w 1

/-- A peripheral builds one scope. -/
theorem PeripheralModule.builds (w : Width) (m : PeripheralModule) :
    Builds (m.lines w) [.scope m.name (m.decls w)] := by
  refine (builds_docLines 0 m.description).append (.enclose ?_ 0 m.name)
  exact (builds_constant? w 1 m.base).append (.flatMap fun e _ => e.builds w)

/-- A vector builds a constant, a placeholder nothing. -/
theorem Vector.builds (w : Width) (v : Vector) :
    Builds (v.lines w) (constantDecls w v.constant?.toList) := by
  cases v with
  | constant c => exact c.builds w 1
  | placeholder name number description => exact .skip rfl

/-- The lines of a listing below its banner declare what the listing holds. -/
theorem builds_bodyLines (l : Listing) : Builds l.bodyLines l.decls := by
  have hblank : Builds [Line.blank] [] := .skip rfl
  -- the descriptions build nothing, so the option for them does not matter
  refine .filter_isDoc ?_ l.descriptions
  refine .append (.append (.map fun groups _ => ?_) ?_) (.map fun vectors _ => ?_)
  · refine hblank.append (.enclose ?_ 0 "groups")
    have habout : Builds [.about 1
        "Register offsets relative to the base address of each peripheral."] [] := .skip rfl
    rw [flatMap_lines]
    exact habout.append (.map fun t _ => t.builds l.width 1)
  · rw [flatMap_lines]
    exact .map fun m _ => hblank.append (m.builds l.width)
  · refine hblank.append (.enclose ?_ 0 "interrupts")
    rw [flatMap_lines, List.filterMap_eq_flatMap_toList, constantDecls, List.map_flatMap]
    exact .flatMap fun v _ => v.builds l.width

/-- The text of a listing below its banner is read as what the listing declares. -/
theorem Outline.read?_bodyText {d : Device} (h : d.WellFormed) (o : Options) :
    Outline.read? (d.listing o).bodyText = some (d.listing o).decls := by
  have hwf := wellFormed_bodyLines h o
  rw [read?, bodyText, String.toList_ofList, lines_unlines_text hwf, mapM_sign?_text hwf]
  simp [builds_bodyLines (d.listing o) ⟨[], []⟩]

/-- Braces have to close what they open. -/
example : (Outline.read? "pub mod a \x7b\n    pub const B: u8 = 0x10;\n").isNone := by decide +kernel

end Listing
end RegisterMap
