import RegisterMap.Listing.Constant

/-!
# Lines of a listing

The lines that a listing consists of, each at its depth in the nesting of
modules. A line of a module stands four blanks further right than the line that
opens the module.
-/

namespace RegisterMap.Listing

/-- A line of a listing. -/
inductive Line where
  /-- An empty line, which parts two modules at the top. -/
  | blank
  /-- A remark for the reader of the listing. -/
  | remark (text : String)
  /-- A remark on the module around it. -/
  | about (depth : Nat) (text : String)
  /-- The description of what the next line declares. -/
  | doc (depth : Nat) (text : String)
  /-- The start of a module. -/
  | start (depth : Nat) (name : String)
  /-- The end of a module. -/
  | stop (depth : Nat)
  /-- A constant of the integer type of a width. -/
  | constant (depth : Nat) (name : String) (type : Width) (literal : Literal)
  /-- An unused interrupt vector, as a constant that is commented out. -/
  | placeholder (depth : Nat) (name : String) (type : Width) (number : Nat) (text : String)
  deriving Repr, DecidableEq

/-- The blanks in front of a line at a depth. -/
def indent (depth : Nat) : String := String.ofList (List.replicate (4 * depth) ' ')

/-- The declaration of a constant. -/
def declaration (name : String) (type : Width) (literal : Literal) : String :=
  "pub const " ++ name ++ ": " ++ type.typeName ++ " = " ++ literal.text ++ ";"

namespace Line

/-- Whether a line is a description. -/
def isDoc : Line → Bool
  | doc _ _ => true
  | _ => false

/-- The text of a line, without the line break at its end. -/
def text : Line → String
  | blank => ""
  | remark content => "// " ++ content
  | about depth content => indent depth ++ "//! " ++ content
  | doc depth content => indent depth ++ "/// " ++ content
  | start depth name => indent depth ++ "pub mod " ++ name ++ " \x7b"
  | stop depth => indent depth ++ "\x7d"
  | constant depth name type literal => indent depth ++ declaration name type literal
  | placeholder depth name type number content =>
    indent depth ++ "// " ++ declaration name type (.number number) ++ " // " ++ content

end Line
end RegisterMap.Listing
