import RegisterMap.Text.Case

/-!
# Descriptions

Free text is reduced to one line that starts with a capital. Blank text counts
as no description, and so does the lone letter A, which stands in some
descriptions where nothing was written.
-/

namespace RegisterMap.Description

/-- The characters with the first one in upper case. -/
def capitalize : List Char → List Char
  | [] => []
  | c :: cs => Text.upper c ++ cs

/-- A free text as one line: blanks collapsed, the first character in upper case. -/
def normalize (text : String) : Option String :=
  match capitalize (Text.collapse text.toList) with
  | [] => none
  | ['A'] => none
  | cs => some (String.ofList cs)

end RegisterMap.Description
