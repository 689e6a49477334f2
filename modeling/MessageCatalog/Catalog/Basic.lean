/-!
# Message catalogs

A catalog holds the translations of one program into one language. Its messages are grouped into
contexts, one for each dialog or other component of the program. A message is identified within
its context by its source text and a disambiguation comment; an absent comment and an empty one are
the same key.

A message whose source text depends on a count carries the *numerus* flag, and its translation has
one form for each plural category of the target language.

Messages that the program no longer uses stay in the catalog, for translators only: they are not
*live*.
-/

namespace MessageCatalog

/-! ## Translations -/

/-- How far a translation has come. -/
inductive Status
  | finished
  | unfinished
  /-- The message is no longer used. -/
  | obsolete
  /-- The message is no longer used, and its source is gone. -/
  | vanished
  deriving DecidableEq, Repr, Inhabited

namespace Status

def name : Status → String
  | finished => "finished"
  | unfinished => "unfinished"
  | obsolete => "obsolete"
  | vanished => "vanished"

def all : List Status := [finished, unfinished, obsolete, vanished]

def ofName? (s : String) : Option Status :=
  all.find? (·.name = s)

/-- The mark of a status in a document; a finished translation has none. -/
def mark? : Status → Option String
  | finished => none
  | s => some s.name

def ofMark? (mark : String) : Option Status :=
  all.find? (·.mark? = some mark)

/-- Whether messages of this status are in use. -/
def isLive : Status → Bool
  | finished | unfinished => true
  | obsolete | vanished => false

end Status

/-- What a translation says: one text, or one text for each numerus form. -/
inductive Wording
  | single (text : String)
  | plural (forms : List String)
  deriving DecidableEq, Repr, Inhabited

namespace Wording

def forms : Wording → List String
  | single text => [text]
  | plural forms => forms

/-- Whether a wording has one text for each numerus form. -/
def isPlural : Wording → Bool
  | single _ => false
  | plural _ => true

/-- Whether no form carries any text. -/
def isEmpty (w : Wording) : Bool :=
  w.forms.all (·.isEmpty)

/-- The wording without any text. -/
def blank (numerus : Bool) : Wording :=
  if numerus then plural [] else single ""

end Wording

/-- A translation of one message. -/
structure Translation where
  status : Status := .finished
  wording : Wording := .single ""
  deriving DecidableEq, Repr, Inhabited

/-! ## Messages -/

/-- A place in the program's source that a message was taken from. Both parts are kept as written;
a location without a file name lies in the same file as the one before it. -/
structure Location where
  filename : Option String := none
  line : Option String := none
  deriving DecidableEq, Repr, Inhabited

/-- The optional texts of a message. -/
inductive Field
  | oldSource
  | comment
  | oldComment
  | extraComment
  | translatorComment
  deriving DecidableEq, Repr

/-- A translatable unit. -/
structure Message where
  id : Option String := none
  numerus : Bool := false
  locations : List Location := []
  source : String := ""
  oldSource : Option String := none
  /-- The disambiguation comment. -/
  comment : Option String := none
  oldComment : Option String := none
  extraComment : Option String := none
  translatorComment : Option String := none
  translation : Translation := {}
  deriving DecidableEq, Repr, Inhabited

namespace Field

/-- The optional texts in the order in which documents list them. -/
def all : List Field := [oldSource, comment, oldComment, extraComment, translatorComment]

/-- The name of the element that holds a text. -/
def element : Field → String
  | oldSource => "oldsource"
  | comment => "comment"
  | oldComment => "oldcomment"
  | extraComment => "extracomment"
  | translatorComment => "translatorcomment"

/-- The text that an element of this name holds. -/
def ofElement? (name : String) : Option Field :=
  all.find? (·.element = name)

end Field

namespace Message

def field (m : Message) : Field → Option String
  | .oldSource => m.oldSource
  | .comment => m.comment
  | .oldComment => m.oldComment
  | .extraComment => m.extraComment
  | .translatorComment => m.translatorComment

def setField (m : Message) (text : String) : Field → Message
  | .oldSource => { m with oldSource := some text }
  | .comment => { m with comment := some text }
  | .oldComment => { m with oldComment := some text }
  | .extraComment => { m with extraComment := some text }
  | .translatorComment => { m with translatorComment := some text }

/-- The message with a source text and a translation. It depends on a count if the translation has
numerus forms. -/
def ofTranslation (source : String) (translation : Translation) : Message :=
  { source, translation, numerus := translation.wording.isPlural }

/-- The disambiguation comment, empty when absent. -/
def commentKey (m : Message) : String :=
  m.comment.getD ""

/-- The status of the message's translation. -/
def status (m : Message) : Status :=
  m.translation.status

def forms (m : Message) : List String :=
  m.translation.wording.forms

/-- Whether the program still uses the message. -/
def isLive (m : Message) : Bool :=
  m.status.isLive

@[simp] theorem isLive_iff {m : Message} :
    m.isLive = true ↔ m.status = .finished ∨ m.status = .unfinished := by
  rw [isLive]
  cases m.status <;> simp [Status.isLive]

end Message

/-! ## Contexts and catalogs -/

/-- A named group of messages. -/
structure Context where
  name : String := ""
  comment : Option String := none
  messages : List Message := []
  deriving DecidableEq, Repr, Inhabited

/-- The first live message of a context with a source text and a disambiguation comment. -/
def Context.find? (k : Context) (source comment : String) : Option Message :=
  k.messages.find? fun m ↦ m.isLive && m.source = source && m.commentKey = comment

/-- The translations of a program into one language. -/
structure Catalog where
  /-- The version of the document format. -/
  version : Option String := none
  /-- The target language. -/
  language : Option String := none
  sourceLanguage : Option String := none
  contexts : List Context := []
  deriving DecidableEq, Repr, Inhabited

namespace Catalog

/-- The catalog for a language, without contexts, in the current version of the format. -/
def ofLanguage (language : String) : Catalog :=
  { version := some "2.1", language := some language }

/-- The first context with a name. -/
def context? (c : Catalog) (name : String) : Option Context :=
  c.contexts.find? (·.name = name)

/-- All messages, each with the name of its context. -/
def messages (c : Catalog) : List (String × Message) :=
  c.contexts.flatMap fun k ↦ k.messages.map fun m ↦ (k.name, m)

/-- The number of messages. -/
def size (c : Catalog) : Nat :=
  c.messages.length

def isEmpty (c : Catalog) : Bool :=
  c.size = 0

/-- The catalog with one more context at the end. -/
def addContext (c : Catalog) (k : Context) : Catalog :=
  { c with contexts := c.contexts ++ [k] }

/-- The catalog with one more message at the end of its last context, if it has one. -/
def addMessage? (c : Catalog) (m : Message) : Option Catalog :=
  match c.contexts.getLast? with
  | none => none
  | some k =>
    some { c with
      contexts := c.contexts.dropLast ++ [{ k with messages := k.messages ++ [m] }] }

/-- The message at a position of the context at a position. -/
def message? (c : Catalog) (context message : Nat) : Option Message :=
  c.contexts[context]?.bind fun k ↦ k.messages[message]?

/-- The catalog with the message at a position changed. -/
def modifyMessage (c : Catalog) (context message : Nat) (f : Message → Message) : Catalog :=
  { c with
    contexts := c.contexts.modify context fun k ↦
      { k with messages := k.messages.modify message f } }

end Catalog

end MessageCatalog
