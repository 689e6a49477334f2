import MessageCatalog.Markup.Reference

/-!
# Attributes of a tag

The attributes are what stands after the name in a start or empty-element tag. They are read one
character at a time, in order; the first fault ends the reading, so that a fault later in the tag
goes unnoticed. Offsets count bytes from the start of the tag's content, its name included.

A value is decoded as soon as its closing quote is met, before the next key is looked at, whereas a
repeated key is noticed at its `=` sign, before its value is looked at.
-/

namespace MessageCatalog.Markup

open Text

def isBlank (c : Char) : Bool :=
  c = ' ' || c = '\t' || c = '\r' || c = '\n'

/-- An attribute with its value decoded. -/
structure Attribute where
  key : String
  value : String
  deriving DecidableEq, Repr, Inhabited

/-- Why the attributes of a tag cannot be read. -/
inductive AttributeFault
  /-- The key is not followed by an equals sign; one is missing at this offset. -/
  | missingEquals (offset : Nat)
  /-- The key at this offset occurred before. -/
  | repeatedKey (offset previous : Nat)
  /-- The value at this offset is not in quotes. -/
  | unquotedValue (offset : Nat)
  /-- The tag ends at this offset, after an equals sign. -/
  | missingValue (offset : Nat)
  /-- The tag ends at this offset, inside a value opened by `quote`. -/
  | openQuote (offset : Nat) (quote : Char)
  /-- A value holds a reference that cannot be resolved. -/
  | reference (fault : ReferenceFault)
  deriving DecidableEq, Repr

/-- Where the reader of attributes stands. Texts are held last character first. -/
inductive AttributePlace
  /-- Before a key. -/
  | gap
  /-- Inside the key that began at `start`. -/
  | key (start : Nat) (name : List Char)
  /-- After a key and white space, before its equals sign. -/
  | afterKey (start : Nat) (name : List Char)
  /-- After an equals sign. -/
  | beforeValue (name : List Char)
  /-- Inside a value. -/
  | value (name : List Char) (quote : Char) (text : List Char)
  deriving DecidableEq, Repr

/-- The keys met so far, with their offsets. -/
abbrev SeenKeys := List (Nat × List Char)

/-- What one character of a tag leads to: the next place, with a key that is complete now or an
attribute that is complete now. -/
inductive AttributeStep
  | go (place : AttributePlace)
  | keyDone (start : Nat) (name : List Char)
  | valueDone (name text : List Char)
  | fault (fault : AttributeFault)
  deriving DecidableEq, Repr

/-- The effect of the character at offset `pos`. -/
def AttributePlace.step (pos : Nat) (c : Char) : AttributePlace → AttributeStep
  | .gap => if isBlank c then .go .gap else .go (.key pos [c])
  | .key start name =>
    if c = '=' then .keyDone start name
    else if isBlank c then .go (.afterKey start name)
    else .go (.key start (c :: name))
  | .afterKey start name =>
    if isBlank c then .go (.afterKey start name)
    else if c = '=' then .keyDone start name
    else .fault (.missingEquals pos)
  | .beforeValue name =>
    if isBlank c then .go (.beforeValue name)
    else if c = '"' ∨ c = '\'' then .go (.value name c [])
    else .fault (.unquotedValue pos)
  | .value name quote text =>
    if c = quote then .valueDone name text else .go (.value name quote (c :: text))

/-- The fault, if any, when the tag ends at offset `pos`. -/
def AttributePlace.finish (pos : Nat) : AttributePlace → Option AttributeFault
  | .gap => none
  | .key _ _ | .afterKey _ _ => some (.missingEquals pos)
  | .beforeValue _ => some (.missingValue pos)
  | .value _ quote _ => some (.openQuote pos quote)

/-- The attribute with a key and a stored value, both last character first. -/
def Attribute.ofStored (name text : List Char) : Except AttributeFault Attribute :=
  match decode text.reverse with
  | .ok value => .ok ⟨String.ofList name.reverse, String.ofList value⟩
  | .error e => .error (.reference e)

/-- Reads the attributes in the rest of a tag, from offset `pos` on. -/
def attributesFrom (seen : SeenKeys) :
    AttributePlace → Nat → List Char → Except AttributeFault (List Attribute)
  | place, pos, [] =>
    match place.finish pos with
    | none => .ok []
    | some e => .error e
  | place, pos, c :: cs =>
    match place.step pos c with
    | .go place => attributesFrom seen place (pos + c.utf8Size) cs
    | .keyDone start name =>
      match seen.find? (·.2 = name) with
      | some (previous, _) => .error (.repeatedKey start previous)
      | none => attributesFrom (seen ++ [(start, name)]) (.beforeValue name) (pos + c.utf8Size) cs
    | .valueDone name text =>
      (Attribute.ofStored name text).bind fun a ↦
        (attributesFrom seen .gap (pos + c.utf8Size) cs).map (a :: ·)
    | .fault e => .error e

/-- A start or empty-element tag: its name, and what stands between the name and the end. -/
structure Tag where
  name : String
  body : List Char
  deriving DecidableEq, Repr, Inhabited

/-- The attributes of a tag, in order. -/
def Tag.attributes (tag : Tag) : Except AttributeFault (List Attribute) :=
  attributesFrom [] .gap (byteWidth tag.name.toList) tag.body

end MessageCatalog.Markup
