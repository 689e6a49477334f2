import MessageCatalog.Markup.Attribute

/-!
# Document trees

What a document is about, before it is written down: elements with attributes, text, sections that
stand for themselves, and comments. A tree is rendered in one way, an element without children as an
empty-element tag.

Rendering is faithful for trees that are well formed: names have no characters that end a name,
the keys of an element are distinct, and neither a section nor a comment holds its own end.
-/

namespace MessageCatalog.Markup

/-- A node of a document tree. -/
inductive Node
  | text (content : String)
  /-- A `CDATA` section. -/
  | verbatim (content : String)
  | comment (content : String)
  | element (name : String) (attributes : List Attribute) (children : List Node)
  deriving Repr, Inhabited

/-! ## Rendering -/

def Attribute.render (a : Attribute) : List Char :=
  ' ' :: a.key.toList ++ "=\"".toList ++ escape a.value.toList ++ ['"']

/-- The content of a start tag. -/
def renderTag (name : String) (attributes : List Attribute) : List Char :=
  name.toList ++ attributes.flatMap Attribute.render

mutual

def Node.render : Node → List Char
  | .text content => escape content.toList
  | .verbatim content => "<![CDATA[".toList ++ content.toList ++ "]]>".toList
  | .comment content => "<!--".toList ++ content.toList ++ "-->".toList
  | .element name attributes [] => '<' :: renderTag name attributes ++ "/>".toList
  | .element name attributes (child :: children) =>
    '<' :: renderTag name attributes ++ '>' :: child.render ++ renderAll children
      ++ "</".toList ++ name.toList ++ ['>']

def renderAll : List Node → List Char
  | [] => []
  | node :: rest => node.render ++ renderAll rest

end

/-! ## Well-formed trees -/

def occursIn (word : List Char) : List Char → Bool
  | [] => word.isEmpty
  | c :: cs => word.isPrefixOf (c :: cs) || occursIn word cs

/-- Whether a character may stand in a name. -/
def isNameChar (c : Char) : Bool :=
  !isBlank c && c ∉ ['<', '>', '/', '=', '"', '\'', '!', '?', '&']

/-- Whether a text is a name. -/
def isName (name : String) : Bool :=
  name ≠ "" && name.toList.all isNameChar

/-- Whether the attributes of an element have names, no two the same. -/
def areAttributes (attributes : List Attribute) : Bool :=
  attributes.all (fun a ↦ isName a.key) && decide (attributes.map (·.key)).Nodup

mutual

/-- Whether a node can be rendered faithfully. -/
def Node.isWellFormed : Node → Bool
  | .text _ => true
  | .verbatim content => !occursIn "]]>".toList content.toList
  | .comment content => !occursIn "--".toList content.toList
  | .element name attributes children =>
    isName name && areAttributes attributes && (name ≠ "byte" || children.isEmpty)
      && areWellFormed children

/-- Whether all nodes can be rendered faithfully. -/
def areWellFormed : List Node → Bool
  | [] => true
  | node :: rest => node.isWellFormed && areWellFormed rest

end

end MessageCatalog.Markup
