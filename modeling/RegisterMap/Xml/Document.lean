import RegisterMap.Xml.Element
import RegisterMap.Xml.Reference

/-!
# Documents

The second stage of reading a document: its tokens as a tree. Tags have to
match, labels have to be bound to a name space, and no element has two
attributes of one name. `Document.parse?` joins the stages: it gives the root
element of a well-formed document, and nothing for any other text.
-/

namespace RegisterMap.Xml

/-! ## Name spaces -/

/-- The name space that the label `xml` is bound to, and no other label may be. -/
def xmlSpace : String := "http://www.w3.org/XML/1998/namespace"

/-- The name space of the labels themselves, which nothing may be bound to. -/
def labelSpace : String := "http://www.w3.org/2000/xmlns/"

/-- Labels with the name spaces they are bound to, the nearest binding first. -/
abbrev Scope := List (String × String)

/-- Whether an attribute binds a label or the default name space. -/
def QName.binds (q : QName) : Bool := q.label == "xmlns" || q.name == "xmlns"

/-- The labels an element binds, after one more binding attribute. The label `xml` can
    only be bound to what it stands for anyway, and a label only once. -/
def Scope.bind? (own : Scope) (q : QName) (value : String) : Option Scope :=
  if value = labelSpace then none
  else if q.label = "xmlns" then
    if q.name = "xml" then if value = xmlSpace then some own else none
    else if value = xmlSpace ∨ (own.lookup q.name).isSome then none
    else some (own ++ [(q.name, value)])
  else if value = xmlSpace then none
  else some own

/-- The name space of an attribute, absent for one without a label; nothing if its
    label is not bound. -/
def Scope.attributeSpace? (scope : Scope) (label : String) : Option (Option String) :=
  if label = "" then some none
  else if label = "xml" then some (some xmlSpace)
  else (scope.lookup label).map some

/-- Whether an element may have a label. -/
def Scope.admits (scope : Scope) (label : String) : Bool :=
  label == "" || (label != "xmlns" && (scope.lookup label).isSome)

/-- The attributes with resolved values and names, no two of which may be the same. -/
def Scope.attributes? (scope : Scope) : List (QName × String) → Option (List Attribute)
  | [] => some []
  | (q, value) :: rest =>
    (scope.attributeSpace? q.label).bind fun space =>
      (scope.attributes? rest).bind fun others =>
        if others.any fun a => a.space == space && a.name == q.name then none
        else some (⟨space, q.name, value⟩ :: others)

/-! ## Building the tree -/

/-- An element whose end has not been reached, with its content so far, the last part
    first. `scope` holds the labels bound inside it. -/
structure Pending where
  tag : QName
  attributes : List Attribute
  scope : Scope
  content : List Node

/-- The document as far as it has been read: the root, once it is complete, and the
    elements that are still open, the innermost first. -/
structure Partial where
  root : Option Element
  pending : List Pending

/-- The start of an element, whose labels are bound in `outer` or by itself. -/
def Pending.begin? (outer : Scope) (tag : QName) (raws : List RawAttribute) : Option Pending := do
  let written ← raws.mapM fun r => (attributeValue? r.value).map fun v => (r.tag, v)
  let (binding, ordinary) := written.partition (·.1.binds)
  let own ← binding.foldlM (fun own (q, value) => Scope.bind? own q value) []
  let scope : Scope := own ++ outer
  let attributes ← scope.attributes? ordinary
  if scope.admits tag.label then some ⟨tag, attributes, scope, []⟩ else none

/-- The finished element. -/
def Pending.element (p : Pending) : Element := ⟨p.tag.name, p.attributes, p.content.reverse⟩

/-- One more text: texts that touch are one. -/
def Pending.addText (p : Pending) (content : String) : Pending :=
  match p.content with
  | .text before :: rest => { p with content := .text (before ++ content) :: rest }
  | parts => { p with content := .text content :: parts }

/-- One more part. -/
def Pending.add (p : Pending) (part : Node) : Pending := { p with content := part :: p.content }

/-- The end of an element, given those around it. -/
def Partial.close (d : Partial) (e : Element) (outer : List Pending) : Partial :=
  match outer with
  | [] => { d with root := some e, pending := [] }
  | parent :: rest => { d with pending := parent.add e.node :: rest }

/-- The document after one more token. Outside the root there are only white space and
    remarks. -/
def Partial.step? (d : Partial) (t : Token) : Option Partial :=
  match d.pending, t with
  | [], .text raw => if raw.all isSpace then some d else none
  | [], .remark => some d
  | [], .start tag raws empty =>
    if d.root.isSome then none
    else (Pending.begin? [] tag raws).map fun p =>
      if empty then d.close p.element [] else { d with pending := [p] }
  | [], .cdata _ => none
  | [], .stop _ => none
  | top :: outer, .text raw =>
    (textContent? raw).map fun content => { d with pending := top.addText content :: outer }
  | top :: outer, .cdata raw => some { d with pending := top.addText (cdataContent raw) :: outer }
  | top :: outer, .remark => some { d with pending := top.add .remark :: outer }
  | top :: outer, .start tag raws empty =>
    (Pending.begin? top.scope tag raws).map fun p =>
      if empty then d.close p.element (top :: outer) else { d with pending := p :: top :: outer }
  | top :: outer, .stop tag => if tag = top.tag then some (d.close top.element outer) else none

/-- The root element that a list of tokens makes up. -/
def Element.ofTokens? (ts : List Token) : Option Element := do
  let d ← ts.foldlM Partial.step? ⟨none, []⟩
  if d.pending.isEmpty then d.root else none

/-! ## The declaration -/

/-- The text without the gap in front of it: white space, which may be absent only
    before the end of the declaration. -/
def gap? (cs : List Char) : Option (List Char) :=
  if startsWithSpace cs || ['?', '>'].isPrefixOf cs then some (skipSpace cs) else none

/-- The text behind an attribute whose name starts with a given word. -/
def declared? (word : String) (cs : List Char) : Option (List Char) :=
  if word.toList.isPrefixOf cs then (RawAttribute.read? cs).map (·.2) else none

/-- The text behind an attribute whose name starts with a given word, and the gap; the
    text itself if there is no such attribute. -/
def declaredOptionally? (word : String) (cs : List Char) : Option (List Char) :=
  if word.toList.isPrefixOf cs then (declared? word cs).bind gap? else some cs

/-- The text behind the declaration at its very start, if it has one: a version, an
    encoding and a mark for standing alone, of which the first is required. -/
def skipDeclaration? (cs : List Char) : Option (List Char) :=
  match cs with
  | '<' :: '?' :: 'x' :: 'm' :: 'l' :: ' ' :: rest => do
    let rest ← declared? "version" (skipSpace rest)
    let rest ← gap? rest
    let rest ← declaredOptionally? "encoding" rest
    let rest ← if "standalone".toList.isPrefixOf rest then declared? "standalone" rest else some rest
    match skipSpace rest with
    | '?' :: '>' :: rest => some rest
    | _ => none
  | _ => some cs

/-! ## Reading a document -/

/-- The text without the byte order mark in front of it. -/
def skipMark : List Char → List Char
  | '\uFEFF' :: cs => cs
  | cs => cs

/-- The root element of a well-formed document. -/
def Document.parse? (s : String) : Option Element := do
  let cs := skipMark s.toList
  if cs.all isCharacter then
    let ts ← (skipDeclaration? cs).bind tokens?
    Element.ofTokens? ts
  else none

end RegisterMap.Xml
