/-!
# Names

Which names a description may declare (`isWord`), and what they become in a
listing: the name of a constant (`toConstant`) and the name of a module
(`toModule`). Both conversions read and write the case of ASCII letters only
and copy every other character.
-/

namespace RegisterMap.Name

/-! ## Words -/

/-- A character that names may hold: an ASCII letter, an ASCII digit or an underscore. -/
def isWordChar (c : Char) : Bool := c.isAlphanum || c == '_'

/-- A non-empty name of letters, digits and underscores. -/
def isWord (s : String) : Bool := !s.toList.isEmpty && s.toList.all isWordChar

/-! ## Constants -/

/-- Whether a name starts with a digit, so that no item can have it as it is. -/
def startsWithDigit : List Char → Bool
  | [] => false
  | c :: _ => c.isDigit

/-- The name of a constant: upper case, with an underscore in front of a digit. -/
def toConstant (s : String) : String :=
  let cs := s.toList.map Char.toUpper
  String.ofList (if startsWithDigit cs then '_' :: cs else cs)

/-! ## Modules -/

/-- Words that cannot name a module. -/
def reserved : List String :=
  ["as", "break", "const", "continue", "crate", "else", "enum", "extern", "false", "fn", "for",
   "if", "impl", "in", "let", "loop", "match", "mod", "move", "mut", "pub", "ref", "return",
   "self", "static", "struct", "super", "trait", "true", "type", "unsafe", "use", "where",
   "while", "async", "await", "dyn", "abstract", "become", "box", "do", "final", "macro",
   "override", "priv", "typeof", "unsized", "virtual", "yield", "try"]

/-- The characters of a name in lower case, with an underscore where an upper-case
    letter follows a lower-case one and none where an underscore follows another.
    `prev` is the character before; at the start it is an underscore, so that the
    underscores in front of the name are dropped. -/
def humps (prev : Char) : List Char → List Char
  | [] => []
  | c :: cs =>
    if c = '_' then
      if prev = '_' then humps '_' cs else '_' :: humps '_' cs
    else if prev.isLower && c.isUpper then '_' :: c.toLower :: humps c cs
    else c.toLower :: humps c cs

/-- The characters without the underscores at their end. -/
def trimUnderscores (cs : List Char) : List Char := (cs.reverse.dropWhile (· == '_')).reverse

/-- The name of a module: lower case, words parted by single underscores, with an
    underscore in front of a name that starts with a digit and behind a reserved word. -/
def toModule (s : String) : String :=
  let cs := humps '_' s.toList
  let name := String.ofList (trimUnderscores (if startsWithDigit s.toList then '_' :: cs else cs))
  if reserved.contains name then name ++ "_" else name

end RegisterMap.Name
