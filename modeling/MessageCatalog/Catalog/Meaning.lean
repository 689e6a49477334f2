import MessageCatalog.Catalog.Reader
import MessageCatalog.Markup.Tree

/-!
# What a document tree means

The catalog that a tree describes, said of the tree: an element's parts are what its direct children
contribute, and of parts of one kind the last counts, except for those that form a list. Everything
else in the tree, to any depth, means nothing.

Faults are met in document order, as in reading. Apart from them nothing of reading is used here:
the names of elements and marks, and what the number of a character is, are said once more.
-/

namespace MessageCatalog

open Markup

/-- The value of an attribute. -/
def attribute? (attributes : List Attribute) (key : String) : Option String :=
  (attributes.find? (·.key = key)).map (·.value)

/-! ## Text elements -/

/-- The number that one or more digits of a base denote by their places. -/
def placeValue? (base : Nat) (digits : List Char) : Option Nat :=
  if digits = [] then none
  else (digits.mapM (Text.digit? base)).map (·.foldl (fun n d ↦ base * n + d) 0)

/-- The number that digits denote, which a plus sign may precede. -/
def plusValue? (base : Nat) : List Char → Option Nat
  | '+' :: digits => placeValue? base digits
  | digits => placeValue? base digits

/-- The number of a character: hexadecimal after an `x`, otherwise decimal. -/
def codeOf? (value : String) : Option Nat :=
  match value.toList with
  | 'x' :: digits => plusValue? 16 digits
  | digits => plusValue? 10 digits

/-- The character that a `byte` element stands for. -/
def byteOf (attributes : List Attribute) : Except FormatFault Char :=
  match attribute? attributes "value" with
  | none => .error .byteWithoutValue
  | some value =>
    match (codeOf? value).filter (·.isValidChar) with
    | some code => .ok (Char.ofNat code)
    | none => .error (.invalidByte value)

/-- What a node contributes to the text of the element that it is in. -/
def textOfNode : Node → Except FormatFault (List Char)
  | .text content | .verbatim content => .ok content.toList
  | .comment _ => .ok []
  | .element name attributes _ => if name = "byte" then (byteOf attributes).map ([·]) else .ok []

/-- The text of an element with these children. -/
def textOf (children : List Node) : Except FormatFault String :=
  (children.mapM textOfNode).map fun pieces ↦ String.ofList pieces.flatten

/-! ## Translations -/

/-- What a child contributes to a translation. -/
inductive TranslationPart
  | text (piece : List Char)
  | form (text : String)
  deriving DecidableEq, Repr

/-- What a node contributes to the translation that it is in. -/
def translationPart (node : Node) : Except FormatFault TranslationPart :=
  match node with
  | .element name _ children =>
    if name = "numerusform" then (textOf children).map .form else (textOfNode node).map .text
  | _ => (textOfNode node).map .text

def formsOfParts (parts : List TranslationPart) : List String :=
  parts.filterMap fun part ↦ match part with
    | .form text => some text
    | .text _ => none

def textOfParts (parts : List TranslationPart) : String :=
  String.ofList (parts.flatMap fun part ↦ match part with
    | .form _ => []
    | .text piece => piece)

/-- The status that an element's attributes state. -/
def statusOf (attributes : List Attribute) : Status :=
  match attribute? attributes "type" with
  | some "unfinished" => .unfinished
  | some "obsolete" => .obsolete
  | some "vanished" => .vanished
  | _ => .finished

/-- The translation that an element describes, of a message that may depend on a count. -/
def translationOf (numerus : Bool) (attributes : List Attribute) (children : List Node) :
    Except FormatFault Translation := do
  let parts ← children.mapM translationPart
  let forms := formsOfParts parts
  let wording :=
    if numerus ∨ forms ≠ [] then Wording.plural forms else .single (textOfParts parts)
  return { status := statusOf attributes, wording }

/-! ## Messages -/

/-- What a child contributes to a message. -/
inductive MessagePart
  | location (location : Location)
  | source (text : String)
  | field (field : Field) (text : String)
  | translation (translation : Translation)
  | nothing
  deriving DecidableEq, Repr

/-- The location that an element's attributes describe. -/
def locationOf (attributes : List Attribute) : Location :=
  ⟨attribute? attributes "filename", attribute? attributes "line"⟩

/-- The text of a message that elements with a name hold, apart from its source. -/
def fieldNamed? : (name : String) → Option Field
  | "oldsource" => some .oldSource
  | "comment" => some .comment
  | "oldcomment" => some .oldComment
  | "extracomment" => some .extraComment
  | "translatorcomment" => some .translatorComment
  | _ => none

/-- What a node contributes to the message that it is in. -/
def messagePart (numerus : Bool) : Node → Except FormatFault MessagePart
  | .element name attributes children =>
    if name = "location" then .ok (.location (locationOf attributes))
    else if name = "translation" then
      (translationOf numerus attributes children).map .translation
    else if name = "source" then (textOf children).map .source
    else match fieldNamed? name with
      | some f => (textOf children).map (.field f)
      | none => .ok .nothing
  | _ => .ok .nothing

/-- The last value that parts contribute. -/
def lastOf {α β : Type} (value? : α → Option β) (parts : List α) : Option β :=
  (parts.filterMap value?).getLast?

/-- The last text of a field among the parts of a message. -/
def fieldOf (f : Field) : List MessagePart → Option String :=
  lastOf fun part ↦ match part with
    | .field g text => if g = f then some text else none
    | _ => none

/-- The message that parts make up, without its source text and translation. -/
def messageOfParts (attributes : List Attribute) (numerus : Bool) (parts : List MessagePart) :
    Message where
  id := attribute? attributes "id"
  numerus
  locations := parts.filterMap fun part ↦ match part with
    | .location l => some l
    | _ => none
  oldSource := fieldOf .oldSource parts
  comment := fieldOf .comment parts
  oldComment := fieldOf .oldComment parts
  extraComment := fieldOf .extraComment parts
  translatorComment := fieldOf .translatorComment parts

/-- The message that an element describes, in a context whose name, as far as it is known by then,
is `context`. -/
def messageOf (context : Option String) (attributes : List Attribute) (children : List Node) :
    Except FormatFault Message := do
  let numerus : Bool := attribute? attributes "numerus" = some "yes"
  let parts ← children.mapM (messagePart numerus)
  let source? := lastOf (fun part ↦ match part with
    | .source text => some text
    | _ => none) parts
  let translation? := lastOf (fun part ↦ match part with
    | .translation t => some t
    | _ => none) parts
  match source? with
  | none => throw (.messageWithoutSource (context.getD ""))
  | some source =>
    let translation := translation?.getD { status := .unfinished, wording := .blank numerus }
    return { messageOfParts attributes numerus parts with source, translation }

/-! ## Contexts and catalogs -/

/-- Adds what nodes describe to a context, whose name may be known already. -/
def contextOf (name comment : Option String) (messages : List Message) :
    List Node → Except FormatFault Context
  | [] =>
    match name with
    | none => .error .contextWithoutName
    | some name => .ok ⟨name, comment, messages⟩
  | .element tag attributes children :: rest =>
    if tag = "name" then do contextOf (some (← textOf children)) comment messages rest
    else if tag = "comment" then do contextOf name (some (← textOf children)) messages rest
    else if tag = "message" then do
      contextOf name comment (messages ++ [← messageOf name attributes children]) rest
    else contextOf name comment messages rest
  | _ :: rest => contextOf name comment messages rest

/-- The contexts that the children of the root element describe. -/
def contextsOf : List Node → Except FormatFault (List Context)
  | [] => .ok []
  | .element tag _ children :: rest =>
    if tag = "context" then do
      let k ← contextOf none none [] children
      return k :: (← contextsOf rest)
    else contextsOf rest
  | _ :: rest => contextsOf rest

/-- The catalog that a root element with these attributes and children describes. -/
def Catalog.ofTree (attributes : List Attribute) (children : List Node) :
    Except FormatFault Catalog := do
  return {
    version := attribute? attributes "version"
    language := attribute? attributes "language"
    sourceLanguage := attribute? attributes "sourcelanguage"
    contexts := ← contextsOf children }

end MessageCatalog
