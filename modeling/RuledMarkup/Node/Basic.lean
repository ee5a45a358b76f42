import RuledMarkup.Style.Provider

/-!
# Nodes

A parsed document is a forest of nodes.  Each node has a kind, which decides how it is rendered, and
an ordered list of children.

## Main definitions

* `Kind` : what a node is.
* `Node` : a kind with children.
* `Node.content?` : the text that a node carries itself.
* `Node.size`, `Forest.size` : the number of nodes.
-/

namespace RuledMarkup

/-- What a node is.  `R` is the context of a rendering and `T` the type of styles. -/
inductive Kind (R T : Type) where
  /-- Nothing but its children. -/
  | parent
  /-- A piece of text. -/
  | text (content : String)
  /-- Styles over everything its children render. -/
  | style (styles : List T)
  /-- A piece of text with styles known when it is rendered. -/
  | styledText (content : String) (provider : StyleProvider R T)
  /-- A piece of code.  The tokens of a known language are its children. -/
  | code (language : Option String) (body : String) (styles : StyleProvider R T)
  /-- A background over a piece of code. -/
  | inlineCode (background : StyleProvider R T)
  /-- A defining keyword and the name it defines. -/
  | definition
  /-- The head of a function. -/
  | function
  /-- A keyword that declares a variable, and its name. -/
  | field
  /-- A tag: what stands in its opening brackets, the name in its closing ones if there are any,
  the styles of its name and brackets, and the styles of its attributes. -/
  | tag (opening : String) (closing : Option String) (name attributes : StyleProvider R T)
  /-- An item of a list, with the styles of its first character. -/
  | listItem (bullet : StyleProvider R T)
  /-- A mention of something whose name is known when it is rendered. -/
  | mention (key : String) (resolve : R → Option String)

/-- A kind with an ordered list of children. -/
inductive Node (R T : Type) where
  | mk (kind : Kind R T) (children : List (Node R T))

/-- The text that a kind carries itself, if it carries any. -/
def Kind.content? {R T : Type} : Kind R T → Option String
  | .text content => some content
  | .styledText content _ => some content
  | .code _ body _ => some body
  | _ => none

/-- Are two kinds the same, apart from the styles known only when they are rendered? -/
def Kind.same {R T : Type} [BEq T] : Kind R T → Kind R T → Bool
  | .parent, .parent => true
  | .text a, .text b => a == b
  | .style a, .style b => a == b
  | .styledText a _, .styledText b _ => a == b
  | .code l a _, .code m b _ => l == m && a == b
  | .inlineCode _, .inlineCode _ => true
  | .definition, .definition => true
  | .function, .function => true
  | .field, .field => true
  | .tag a c _ _, .tag b d _ _ => a == b && c == d
  | .listItem _, .listItem _ => true
  | .mention a _, .mention b _ => a == b
  | _, _ => false

namespace Node

variable {R T : Type}

/-- What the node is. -/
def kind : Node R T → Kind R T
  | mk kind _ => kind

/-- The children of the node, in document order. -/
def children : Node R T → List (Node R T)
  | mk _ children => children

@[simp] theorem kind_mk (kind : Kind R T) (children : List (Node R T)) :
    (mk kind children).kind = kind := rfl

@[simp] theorem children_mk (kind : Kind R T) (children : List (Node R T)) :
    (mk kind children).children = children := rfl

/-- A node without children. -/
def leaf (kind : Kind R T) : Node R T := mk kind []

/-- A node that holds its children together. -/
def parent (children : List (Node R T)) : Node R T := mk .parent children

/-- A piece of text. -/
def text (content : String) : Node R T := leaf (.text content)

/-- Styles over children. -/
def style (styles : List T) (children : List (Node R T)) : Node R T := mk (.style styles) children

/-- A piece of text with styles known when it is rendered. -/
def styledText (content : String) (provider : StyleProvider R T) : Node R T :=
  leaf (.styledText content provider)

/-- The node with more children after the ones it has. -/
def addChildren (node : Node R T) (more : List (Node R T)) : Node R T :=
  mk node.kind (node.children ++ more)

/-- The text that a node carries itself, if it carries any. -/
def content? (node : Node R T) : Option String := node.kind.content?

@[simp] theorem kind_addChildren (node : Node R T) (more : List (Node R T)) :
    (node.addChildren more).kind = node.kind := rfl

@[simp] theorem children_addChildren (node : Node R T) (more : List (Node R T)) :
    (node.addChildren more).children = node.children ++ more := rfl

end Node

mutual

/-- The number of nodes of a tree. -/
def Node.size {R T : Type} : Node R T → Nat
  | .mk _ children => 1 + Forest.size children

/-- The number of nodes of a forest. -/
def Forest.size {R T : Type} : List (Node R T) → Nat
  | [] => 0
  | node :: forest => node.size + Forest.size forest

end

theorem Node.size_eq {R T : Type} (node : Node R T) :
    node.size = 1 + Forest.size node.children := by
  cases node
  rw [Node.size, Node.children_mk]

theorem Node.size_pos {R T : Type} (node : Node R T) : 0 < node.size := by
  rw [Node.size_eq]
  omega

@[simp] theorem Forest.size_nil {R T : Type} : Forest.size ([] : List (Node R T)) = 0 := by
  rw [Forest.size]

@[simp] theorem Forest.size_cons {R T : Type} (node : Node R T) (forest : List (Node R T)) :
    Forest.size (node :: forest) = node.size + Forest.size forest := by
  rw [Forest.size]

@[simp] theorem Forest.size_append {R T : Type} (a b : List (Node R T)) :
    Forest.size (a ++ b) = Forest.size a + Forest.size b := by
  induction a with
  | nil => simp
  | cons node a ih => simp [ih, Nat.add_assoc]

end RuledMarkup
