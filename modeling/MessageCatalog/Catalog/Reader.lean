import MessageCatalog.Catalog.Basic
import MessageCatalog.Catalog.Fault
import MessageCatalog.Markup.Scanner
import MessageCatalog.Notice

/-!
# Reading catalogs

A document is read token by token. The reader knows in which element it is, and has a draft of
what that element describes; a draft holds the draft that it will be added to when its element
ends.

```text
TS (version, language, sourcelanguage)
  context
    name, comment
    message (id, numerus)
      location (filename, line)
      source, oldsource, comment, oldcomment, extracomment, translatorcomment
      translation (type)
        numerusform
```

Elements outside this structure are skipped with all they contain. Where an element may occur once,
the last one counts. Text elements may hold `<byte value="x1b"/>` for a character that cannot be
written otherwise.

The first fault in document order ends the reading. What has not been read by then can be read
on from there, as the rest of a reading that reached the end of the root element can
(`Reading.resume`).
-/

namespace MessageCatalog

open Markup

/-! ## Drafts -/

/-- A context of which some children have been read. -/
structure ContextDraft where
  catalog : Catalog
  name : Option String := none
  comment : Option String := none
  messages : List Message := []
  deriving DecidableEq, Repr

/-- A message of which some children have been read; its source text and translation are kept apart
until its end. -/
structure MessageDraft where
  context : ContextDraft
  message : Message
  source : Option String := none
  translation : Option Translation := none
  deriving DecidableEq, Repr

/-- A translation of which some children have been read. -/
structure TranslationDraft where
  message : MessageDraft
  status : Status
  text : List Char := []
  forms : List String := []
  deriving DecidableEq, Repr

/-- Where the text of a text element belongs. -/
inductive Slot
  | contextName (context : ContextDraft)
  | contextComment (context : ContextDraft)
  | source (message : MessageDraft)
  | field (message : MessageDraft) (field : Field)
  | form (translation : TranslationDraft)
  deriving DecidableEq, Repr

/-- The element that is being read. -/
inductive Place
  /-- Outside the root element. -/
  | outside
  | root (catalog : Catalog)
  | context (context : ContextDraft)
  | message (message : MessageDraft)
  | translation (translation : TranslationDraft)
  /-- An element whose content is text. -/
  | text (slot : Slot) (read : List Char)
  /-- An element that is skipped, `depth` levels above the current one. -/
  | skipped (name : String) (depth : Nat) (back : Place)
  deriving DecidableEq, Repr

/-! ## Completing drafts -/

def ContextDraft.complete (k : ContextDraft) : Except Fault Place :=
  match k.name with
  | none => .error (.format .contextWithoutName)
  | some name => .ok (.root (k.catalog.addContext ⟨name, k.comment, k.messages⟩))

/-- The fault of a message without source in a context. -/
def ContextDraft.sourceMissing (k : ContextDraft) : Fault :=
  .format (.messageWithoutSource (k.name.getD ""))

/-- The place after a message. A message without a translation is unfinished. -/
def MessageDraft.complete (m : MessageDraft) : Except Fault Place :=
  match m.source with
  | none => .error m.context.sourceMissing
  | some source =>
    let translation :=
      m.translation.getD { status := .unfinished, wording := .blank m.message.numerus }
    let message := { m.message with source, translation }
    .ok (.context { m.context with messages := m.context.messages ++ [message] })

/-- The wording of a translation: its forms if it has any or its message depends on a count, and
otherwise its text. -/
def TranslationDraft.wording (t : TranslationDraft) : Wording :=
  if t.message.message.numerus ∨ t.forms ≠ [] then .plural t.forms
  else .single (String.ofList t.text)

def TranslationDraft.complete (t : TranslationDraft) : Place :=
  .message { t.message with translation := some { status := t.status, wording := t.wording } }

/-- The place after a text element with this text. -/
def Slot.fill (text : String) : Slot → Place
  | .contextName k => .context { k with name := some text }
  | .contextComment k => .context { k with comment := some text }
  | .source m => .message { m with source := some text }
  | .field m f => .message { m with message := m.message.setField text f }
  | .form t => .translation { t with forms := t.forms ++ [text] }

/-! ## Attributes -/

/-- The attributes of a tag that ends at a position. -/
def attributesAt (position : Nat) (tag : Tag) : Except Fault (List Attribute) :=
  tag.attributes.mapError fun fault ↦ .markup position (.attribute fault)

/-- The text of a piece of character data, with its references resolved. -/
def decodeAt (position : Nat) (raw : List Char) : Except Fault (List Char) :=
  (decode raw).mapError fun fault ↦ .markup position (.reference fault)

/-- The notices about the attributes of an element that say nothing to the reader. -/
def ignoredAttributes (element : String) (known : List String) (attributes : List Attribute) :
    List Notice :=
  (attributes.filter fun a ↦ a.key ∉ known).map fun a ↦
    .debug s!"Ignoring <{element}> attribute '{a.key}'"

def Catalog.withAttribute (c : Catalog) (a : Attribute) : Catalog :=
  if a.key = "version" then { c with version := some a.value }
  else if a.key = "language" then { c with language := some a.value }
  else if a.key = "sourcelanguage" then { c with sourceLanguage := some a.value }
  else c

/-- The catalog that the attributes of the root element begin. -/
def readRoot (attributes : List Attribute) : Catalog × List Notice :=
  (attributes.foldl Catalog.withAttribute {},
    ignoredAttributes "TS" ["version", "language", "sourcelanguage"] attributes)

def Message.withAttribute (m : Message) (a : Attribute) : Message :=
  if a.key = "id" then { m with id := some a.value }
  else if a.key = "numerus" then { m with numerus := a.value = "yes" }
  else m

/-- The message that the attributes of its element begin. -/
def readMessage (attributes : List Attribute) : Message × List Notice :=
  (attributes.foldl Message.withAttribute {},
    ignoredAttributes "message" ["id", "numerus"] attributes)

def Location.withAttribute (l : Location) (a : Attribute) : Location :=
  if a.key = "filename" then { l with filename := some a.value }
  else if a.key = "line" then { l with line := some a.value }
  else l

/-- The location that the attributes of its element describe. -/
def readLocation (attributes : List Attribute) : Location × List Notice :=
  (attributes.foldl Location.withAttribute {},
    ignoredAttributes "location" ["filename", "line"] attributes)

/-- The status that the attributes of a translation state. An unknown one counts as finished. -/
def readStatus (attributes : List Attribute) : Status × List Notice :=
  let marks := (attributes.filter (·.key = "type")).map (·.value)
  (marks.foldl (fun _ mark ↦ (Status.ofMark? mark).getD .finished) .finished,
    (marks.filter fun mark ↦ Status.ofMark? mark = none).map fun mark ↦
      .warn s!"Unknown translation type '{mark}', treating as finished")

/-- The number of a character: hexadecimal after an `x`, otherwise decimal. -/
def byteCode? (value : String) : Option Nat :=
  match value.toList with
  | 'x' :: hex => Text.unsigned? 16 Text.maxWord32 hex
  | decimal => Text.unsigned? 10 Text.maxWord32 decimal

/-- The character that a `byte` element stands for. -/
def readByte (position : Nat) (tag : Tag) : Except Fault Char := do
  match (← attributesAt position tag).find? (·.key = "value") with
  | none => throw (.format .byteWithoutValue)
  | some a =>
    match (byteCode? a.value).filter (·.isValidChar) with
    | some code => pure (Char.ofNat code)
    | none => throw (.format (.invalidByte a.value))

/-! ## Reading tokens -/

/-- What a token leads to: another place, or the end of the root element. -/
inductive Move
  | go (place : Place)
  | done (catalog : Catalog)
  deriving DecidableEq, Repr

/-- The effect of reading a token: a move with the notices that it leaves. -/
abbrev Effect := Except Fault (Move × List Notice)

/-- Goes to a place without a notice. -/
def goTo (place : Place) : Effect :=
  .ok (.go place, [])

/-- Skips the element of a start tag. -/
def skip (tag : Tag) (back : Place) : Effect :=
  .ok (.go (.skipped tag.name 0 back), [.debug s!"Skipping <{tag.name}>"])

/-- Skips the empty element of a tag. -/
def skipEmpty (tag : Tag) (parent : String) (back : Place) : Effect :=
  .ok (.go back, [.debug s!"Skipping empty <{tag.name}> in <{parent}>"])

/-- Reads a token before or after the root element. -/
def readOutside (token : Token) : Effect :=
  match token.piece with
  | .opening tag =>
    if tag.name = "TS" then do
      let (catalog, notices) := readRoot (← attributesAt token.position tag)
      pure (.go (.root catalog), notices)
    else .error (.format (.wrongRoot tag.name))
  | .empty tag =>
    if tag.name = "TS" then do
      let (catalog, notices) := readRoot (← attributesAt token.position tag)
      pure (.done catalog, notices)
    else .error (.format (.wrongRoot tag.name))
  | .fault fault => .error (.markup token.position fault)
  | .text _ | .verbatim _ | .closing | .aside => goTo .outside

def readInRoot (c : Catalog) (token : Token) : Effect :=
  match token.piece with
  | .opening tag =>
    if tag.name = "context" then goTo (.context { catalog := c }) else skip tag (.root c)
  | .empty tag =>
    if tag.name = "context" then .error (.format .contextWithoutName) else goTo (.root c)
  | .closing => .ok (.done c, [])
  | .fault fault => .error (.markup token.position fault)
  | .text _ | .verbatim _ | .aside => goTo (.root c)

def readInContext (k : ContextDraft) (token : Token) : Effect :=
  match token.piece with
  | .opening tag =>
    if tag.name = "name" then goTo (.text (.contextName k) [])
    else if tag.name = "comment" then goTo (.text (.contextComment k) [])
    else if tag.name = "message" then do
      let (message, notices) := readMessage (← attributesAt token.position tag)
      pure (.go (.message { context := k, message }), notices)
    else skip tag (.context k)
  | .empty tag =>
    if tag.name = "name" then goTo (Slot.fill "" (.contextName k))
    else if tag.name = "comment" then goTo (Slot.fill "" (.contextComment k))
    else if tag.name = "message" then .error k.sourceMissing
    else skipEmpty tag "context" (.context k)
  | .closing => do goTo (← k.complete)
  | .fault fault => .error (.markup token.position fault)
  | .text _ | .verbatim _ | .aside => goTo (.context k)

/-- The place of the text element with a name in a message. -/
def MessageDraft.slot? (m : MessageDraft) (name : String) : Option Slot :=
  if name = "source" then some (.source m) else (Field.ofElement? name).map (.field m)

/-- The draft with one more location, as the attributes of a tag describe it. -/
def MessageDraft.locate (m : MessageDraft) (token : Token) (tag : Tag) :
    Except Fault (MessageDraft × List Notice) := do
  let (location, notices) := readLocation (← attributesAt token.position tag)
  let message := { m.message with locations := m.message.locations ++ [location] }
  pure ({ m with message }, notices)

def readInMessage (m : MessageDraft) (token : Token) : Effect :=
  match token.piece with
  | .opening tag =>
    if tag.name = "location" then do
      let (m, notices) ← m.locate token tag
      let (move, more) ← skip tag (.message m)
      pure (move, notices ++ more)
    else if tag.name = "translation" then do
      let (status, notices) := readStatus (← attributesAt token.position tag)
      pure (.go (.translation { message := m, status }), notices)
    else match m.slot? tag.name with
      | some slot => goTo (.text slot [])
      | none => skip tag (.message m)
  | .empty tag =>
    if tag.name = "location" then do
      let (m, notices) ← m.locate token tag
      pure (.go (.message m), notices)
    else if tag.name = "translation" then do
      let (status, notices) := readStatus (← attributesAt token.position tag)
      let t : TranslationDraft := { message := m, status }
      pure (.go t.complete, notices)
    else match m.slot? tag.name with
      | some slot => goTo (slot.fill "")
      | none => skipEmpty tag "message" (.message m)
  | .closing => do goTo (← m.complete)
  | .fault fault => .error (.markup token.position fault)
  | .text _ | .verbatim _ | .aside => goTo (.message m)

def readInTranslation (t : TranslationDraft) (token : Token) : Effect :=
  match token.piece with
  | .text raw => do
    let text ← decodeAt token.position raw
    goTo (.translation { t with text := t.text ++ text })
  | .verbatim content => goTo (.translation { t with text := t.text ++ content })
  | .opening tag =>
    if tag.name = "numerusform" then goTo (.text (.form t) []) else skip tag (.translation t)
  | .empty tag =>
    if tag.name = "numerusform" then goTo (Slot.fill "" (.form t))
    else if tag.name = "byte" then do
      let c ← readByte token.position tag
      goTo (.translation { t with text := t.text ++ [c] })
    else goTo (.translation t)
  | .closing => goTo t.complete
  | .fault fault => .error (.markup token.position fault)
  | .aside => goTo (.translation t)

def readInText (slot : Slot) (read : List Char) (token : Token) : Effect :=
  match token.piece with
  | .text raw => do
    let text ← decodeAt token.position raw
    goTo (.text slot (read ++ text))
  | .verbatim content => goTo (.text slot (read ++ content))
  | .opening tag => skip tag (.text slot read)
  | .empty tag =>
    if tag.name = "byte" then do
      let c ← readByte token.position tag
      goTo (.text slot (read ++ [c]))
    else goTo (.text slot read)
  | .closing => goTo (slot.fill (String.ofList read))
  | .fault fault => .error (.markup token.position fault)
  | .aside => goTo (.text slot read)

/-- Reads a token in a skipped element. -/
def readSkipped (name : String) (depth : Nat) (back : Place) (token : Token) : Effect :=
  match token.piece with
  | .opening _ => goTo (.skipped name (depth + 1) back)
  | .closing =>
    match depth with
    | 0 => goTo back
    | depth + 1 => goTo (.skipped name depth back)
  | .fault fault => .error (.markup token.position fault)
  | .text _ | .verbatim _ | .empty _ | .aside => goTo (.skipped name depth back)

/-- Reads a token. -/
def Place.read (token : Token) : Place → Effect
  | .outside => readOutside token
  | .root c => readInRoot c token
  | .context k => readInContext k token
  | .message m => readInMessage m token
  | .translation t => readInTranslation t token
  | .text slot read => readInText slot read token
  | .skipped name depth back => readSkipped name depth back token

/-- The fault of a document that ends at a place. -/
def Place.cutShort : Place → FormatFault
  | .outside => .missingRoot
  | .root _ => .endInside "TS"
  | .context _ => .endInside "context"
  | .message _ => .endInside "message"
  | .translation _ => .endInside "translation"
  | .text _ _ => .endInside "text element"
  | .skipped name _ _ => .endInside name

/-! ## Readings -/

/-- What comes of reading a document. -/
structure Reading where
  result : Except Fault Catalog
  notices : List Notice
  /-- The tokens that were not read. -/
  rest : List Token

/-- Reads on from a place, up to the end of the root element or the first fault. -/
def Place.run (place : Place) : List Token → Reading
  | [] => ⟨.error (.format place.cutShort), [], []⟩
  | token :: rest =>
    match place.read token with
    | .error fault => ⟨.error fault, [], rest⟩
    | .ok (.done catalog, notices) => ⟨.ok catalog, notices, rest⟩
    | .ok (.go next, notices) =>
      let reading := next.run rest
      { reading with notices := notices ++ reading.notices }

/-- Reads the next catalog of a document from where a reading ended. -/
def Reading.resume (r : Reading) : Reading :=
  Place.outside.run r.rest

/-- Reads a document. -/
def Catalog.read (document : String) : Reading :=
  Place.outside.run (tokens document)

/-- The catalog in a document. -/
def Catalog.parse (document : String) : Except Fault Catalog :=
  (Catalog.read document).result

/-- The outcomes of reading `times` catalogs one after another. -/
def Reading.sequence (r : Reading) : (times : Nat) → List Reading
  | 0 => []
  | times + 1 => r :: r.resume.sequence times

end MessageCatalog
