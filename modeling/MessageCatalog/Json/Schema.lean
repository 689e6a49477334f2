import MessageCatalog.Json.Document

/-!
# Taking values from JSON documents

A record is written as an object, in which the order of the members does not matter and unknown ones
are ignored, or as an array of its fields. A choice is written as its name, or as an object with the
name as its only key.

Faults come in the order of the text. A member that repeats another is a fault as soon as its key is
read, and a missing member only at the end of the object.
-/

namespace MessageCatalog.Json

namespace Document

/-- The fault of a value that is not of the expected kind: its own, if it has one. -/
def unexpected : Document → Fault
  | absent => .endOfText
  | scalar (.error fault) _ | text (.error fault) _ => fault
  | scalar (.ok _) _ | text (.ok _) _ | array _ _ | object _ _ => .mismatch

def takeText : Document → Except Fault String
  | text said _ => said
  | d => .error d.unexpected

def takeText? : Document → Except Fault (Option String)
  | scalar (.ok .null) _ => .ok none
  | d => d.takeText.map some

def takeBool : Document → Except Fault Bool
  | scalar (.ok (.bool b)) _ => .ok b
  | d => .error d.unexpected

def takeNull : Document → Except Fault Unit
  | scalar (.ok .null) _ => .ok ()
  | d => .error d.unexpected

def takeList {α : Type} (item : Document → Except Fault α) : Document → Except Fault (List α)
  | array items stop => do
    let taken ← items.mapM item
    match stop with
    | none => pure taken
    | some fault => throw fault
  | d => .error d.unexpected

/-- Takes a key of an object, which has to be a string. -/
def takeKey : Document → Except Fault String
  | text said _ => said
  | absent => .error .endOfText
  | _ => .error .malformed

/-- Takes a choice, by its name alone or by its name and a value. -/
def takeChoice {α : Type} (byName : String → Except Fault α)
    (byValue : String → Document → Except Fault α) : Document → Except Fault α
  | absent => .error .endOfText
  | scalar _ _ | array _ _ => .error .malformed
  | text said _ => said.bind byName
  | object [] stop => .error (stop.getD .malformed)
  | object ((key, value) :: rest) stop => do
    let taken ← byValue (← key.takeKey) value
    match rest, stop with
    | [], none => pure taken
    | [], some fault => throw fault
    | _ :: _, _ => throw .malformed

end Document

/-- A field of a record of type `α`: how its value is put into the record. -/
structure RecordField (α : Type) where
  name : String
  required : Bool
  put : α → Document → Except Fault α

/-- Takes the members of an object, `seen` being the names of those before. -/
def takeMembers {α : Type} (fields : List (RecordField α)) (stop : Option Fault) :
    (seen : List String) → α → List (Document × Document) → Except Fault α
  | seen, record, [] =>
    match stop with
    | some fault => .error fault
    | none =>
      if fields.all fun f ↦ !f.required || f.name ∈ seen then .ok record else .error .mismatch
  | seen, record, (key, value) :: rest => do
    let name ← key.takeKey
    match fields.find? (·.name = name) with
    | none =>
      match value.skipFault with
      | some fault => throw fault
      | none => takeMembers fields stop seen record rest
    | some field =>
      if name ∈ seen then throw .mismatch
      else takeMembers fields stop (name :: seen) (← field.put record value) rest

/-- Takes the items of an array, one for each field. -/
def takeItems {α : Type} (stop : Option Fault) :
    List (RecordField α) → α → List Document → Except Fault α
  | [], record, [] =>
    match stop with
    | some fault => .error fault
    | none => .ok record
  | [], _, _ :: _ => .error .malformed
  | _ :: _, _, [] => .error (stop.getD .mismatch)
  | field :: fields, record, item :: items =>
    (field.put record item).bind fun record ↦ takeItems stop fields record items

/-- Takes a record that has the given fields, starting from a blank one. -/
def Document.takeRecord {α : Type} (fields : List (RecordField α)) (blank : α) :
    Document → Except Fault α
  | .array items stop => takeItems stop fields blank items
  | .object members stop => takeMembers fields stop [] blank members
  | d => .error d.unexpected

/-- Takes a value from a whole text. -/
def takeFrom {α : Type} (value : Document → Except Fault α) (s : String) : Except Fault α :=
  let (document, trailing) := Document.ofText s
  (value document).bind fun a ↦ if trailing then .error .malformed else .ok a

end MessageCatalog.Json
