import MessageCatalog.Catalog.Basic
import MessageCatalog.Json.Printer
import MessageCatalog.Json.Schema

/-!
# Catalogs as JSON

A catalog is dumped with all its fields, absent texts as `null`. When it is loaded, absent texts may
be left out.
-/

namespace MessageCatalog

open Json

/-! ## Dumping -/

/-- A wording as JSON: its kind, with its text or texts. -/
def Wording.toJson : Wording → Value
  | .single text => .object [("single", .text text)]
  | .plural forms => .object [("plural", .array (forms.map .text))]

def Translation.toJson (t : Translation) : Value :=
  .object [("status", .text t.status.name), ("text", t.wording.toJson)]

def Location.toJson (l : Location) : Value :=
  .object [("filename", .ofText? l.filename), ("line", .ofText? l.line)]

def Message.toJson (m : Message) : Value :=
  .object [
    ("id", .ofText? m.id),
    ("numerus", .bool m.numerus),
    ("locations", .array (m.locations.map Location.toJson)),
    ("source", .text m.source),
    ("oldsource", .ofText? m.oldSource),
    ("comment", .ofText? m.comment),
    ("oldcomment", .ofText? m.oldComment),
    ("extracomment", .ofText? m.extraComment),
    ("translatorcomment", .ofText? m.translatorComment),
    ("translation", m.translation.toJson)]

def Context.toJson (k : Context) : Value :=
  .object [
    ("name", .text k.name),
    ("comment", .ofText? k.comment),
    ("messages", .array (k.messages.map Message.toJson))]

/-- A catalog as JSON. -/
def Catalog.toJson (c : Catalog) : Value :=
  .object [
    ("version", .ofText? c.version),
    ("language", .ofText? c.language),
    ("source_language", .ofText? c.sourceLanguage),
    ("contexts", .array (c.contexts.map Context.toJson))]

/-- A catalog as a JSON text. -/
def Catalog.dump (c : Catalog) : String :=
  c.toJson.pretty

/-! ## Loading -/

/-- Takes a status, given by its name. -/
def takeStatus : Document → Except Json.Fault Status :=
  let named (name : String) : Except Json.Fault Status :=
    match Status.ofName? name with
    | some status => .ok status
    | none => .error .mismatch
  Document.takeChoice named fun name value ↦ do
    let status ← named name
    value.takeNull
    pure status

/-- Takes a wording; its kind alone is not enough. -/
def takeWording : Document → Except Json.Fault Wording :=
  Document.takeChoice (fun _ ↦ .error .mismatch) fun name value ↦
    if name = "single" then value.takeText.map .single
    else if name = "plural" then (value.takeList Document.takeText).map .plural
    else .error .mismatch

def takeTranslation : Document → Except Json.Fault Translation :=
  Document.takeRecord [
    ⟨"status", true, fun t d ↦ do return { t with status := ← takeStatus d }⟩,
    ⟨"text", true, fun t d ↦ do return { t with wording := ← takeWording d }⟩] {}

def takeLocation : Document → Except Json.Fault Location :=
  Document.takeRecord [
    ⟨"filename", false, fun l d ↦ do return { l with filename := ← d.takeText? }⟩,
    ⟨"line", false, fun l d ↦ do return { l with line := ← d.takeText? }⟩] {}

def takeMessage : Document → Except Json.Fault Message :=
  Document.takeRecord [
    ⟨"id", false, fun m d ↦ do return { m with id := ← d.takeText? }⟩,
    ⟨"numerus", true, fun m d ↦ do return { m with numerus := ← d.takeBool }⟩,
    ⟨"locations", true, fun m d ↦ do return { m with locations := ← d.takeList takeLocation }⟩,
    ⟨"source", true, fun m d ↦ do return { m with source := ← d.takeText }⟩,
    ⟨"oldsource", false, fun m d ↦ do return { m with oldSource := ← d.takeText? }⟩,
    ⟨"comment", false, fun m d ↦ do return { m with comment := ← d.takeText? }⟩,
    ⟨"oldcomment", false, fun m d ↦ do return { m with oldComment := ← d.takeText? }⟩,
    ⟨"extracomment", false, fun m d ↦ do return { m with extraComment := ← d.takeText? }⟩,
    ⟨"translatorcomment", false, fun m d ↦ do
      return { m with translatorComment := ← d.takeText? }⟩,
    ⟨"translation", true, fun m d ↦ do return { m with translation := ← takeTranslation d }⟩] {}

def takeContext : Document → Except Json.Fault Context :=
  Document.takeRecord [
    ⟨"name", true, fun k d ↦ do return { k with name := ← d.takeText }⟩,
    ⟨"comment", false, fun k d ↦ do return { k with comment := ← d.takeText? }⟩,
    ⟨"messages", true, fun k d ↦ do return { k with messages := ← d.takeList takeMessage }⟩] {}

def takeCatalog : Document → Except Json.Fault Catalog :=
  Document.takeRecord [
    ⟨"version", false, fun c d ↦ do return { c with version := ← d.takeText? }⟩,
    ⟨"language", false, fun c d ↦ do return { c with language := ← d.takeText? }⟩,
    ⟨"source_language", false, fun c d ↦ do return { c with sourceLanguage := ← d.takeText? }⟩,
    ⟨"contexts", true, fun c d ↦ do return { c with contexts := ← d.takeList takeContext }⟩] {}

/-- The catalog in a JSON text. -/
def Catalog.ofJson (s : String) : Except Json.Fault Catalog :=
  takeFrom takeCatalog s

end MessageCatalog
