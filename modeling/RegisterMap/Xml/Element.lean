import RegisterMap.Text.Blank

/-!
# Elements

A document as a tree. An element is known by its local name; the name space it
belongs to plays no part. Its text is its first child if that is a text, so
that an element whose first child is a comment or another element has none.
-/

namespace RegisterMap.Xml

/-! ## The tree -/

/-- An attribute with the name space of its name, if it has one. -/
structure Attribute where
  space : Option String
  name : String
  value : String
  deriving Repr, DecidableEq

/-- A part of an element. Comments and processing instructions are remarks. -/
inductive Node where
  | element (name : String) (attributes : List Attribute) (children : List Node)
  | text (content : String)
  | remark
  deriving Repr

/-- An element of a document. -/
structure Element where
  name : String
  attributes : List Attribute
  children : List Node
  deriving Repr

/-! ## Equality -/

mutual

/-- Whether two parts are the same. -/
def Node.decEq : (m n : Node) → Decidable (m = n)
  | .element s as ms, .element t bs ns =>
    have := Node.decEqAll ms ns
    decidable_of_iff (s = t ∧ as = bs ∧ ms = ns) (by simp)
  | .text s, .text t => decidable_of_iff (s = t) (by simp)
  | .remark, .remark => isTrue rfl
  | .element _ _ _, .text _ => isFalse (by simp)
  | .element _ _ _, .remark => isFalse (by simp)
  | .text _, .element _ _ _ => isFalse (by simp)
  | .text _, .remark => isFalse (by simp)
  | .remark, .element _ _ _ => isFalse (by simp)
  | .remark, .text _ => isFalse (by simp)

/-- Whether two lists of parts are the same. -/
def Node.decEqAll : (ms ns : List Node) → Decidable (ms = ns)
  | [], [] => isTrue rfl
  | m :: ms, n :: ns =>
    have := Node.decEq m n
    have := Node.decEqAll ms ns
    decidable_of_iff (m = n ∧ ms = ns) (by simp)
  | [], _ :: _ => isFalse (by simp)
  | _ :: _, [] => isFalse (by simp)

end

instance : DecidableEq Node := Node.decEq

deriving instance DecidableEq for Element

/-! ## Elements as parts -/

/-- The element that a node is. -/
def Node.element? : Node → Option Element
  | .element name attributes children => some ⟨name, attributes, children⟩
  | .text _ => none
  | .remark => none

/-- An element as a part of another one. -/
def Element.node (e : Element) : Node := .element e.name e.attributes e.children

/-- The node of an element holds that element. -/
@[simp] theorem Element.element?_node (e : Element) : e.node.element? = some e := rfl

/-! ## Looking into an element -/

namespace Element

/-- The child elements with a name, in order. -/
def childrenNamed (e : Element) (tag : String) : List Element :=
  (e.children.filterMap Node.element?).filter (·.name == tag)

/-- The first child element with a name. -/
def child? (e : Element) (tag : String) : Option Element := (e.childrenNamed tag).head?

/-- The text of an element: its first child, if that is a text. -/
def text? (e : Element) : Option String :=
  match e.children with
  | .text content :: _ => some content
  | _ => none

/-- The text of the first child element with a name, without blanks at its ends. -/
def childText? (e : Element) (tag : String) : Option String :=
  ((e.child? tag).bind text?).map Text.trim

/-- The elements with a name inside the first child element named `container`. -/
def nested (e : Element) (container tag : String) : List Element :=
  match e.child? container with
  | some c => c.childrenNamed tag
  | none => []

/-- The value of the attribute with an unqualified name, without blanks at its ends. -/
def attribute? (e : Element) (name : String) : Option String :=
  (e.attributes.find? fun a => a.space == none && a.name == name).map (Text.trim ·.value)

end Element
end RegisterMap.Xml
