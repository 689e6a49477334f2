import MessageCatalog.Catalog.Basic
import MessageCatalog.Markup.Reference

/-!
# Writing catalogs

A catalog is written in one layout, with one element on a line, so that equal catalogs are equal
documents. Absent texts are left out; empty ones are written. Nothing is added to text content, so
that it reads back as it was.
-/

namespace MessageCatalog

open Markup

/-- An attribute, if it has a value. -/
def renderAttribute (key : String) : Option String → List Char
  | none => []
  | some value => ' ' :: key.toList ++ "=\"".toList ++ encode value.toList ++ ['"']

/-- A line with a text element. -/
def renderElement (indent : Nat) (name text : String) : List Char :=
  List.replicate indent ' ' ++ '<' :: name.toList ++ '>' :: encode text.toList
    ++ "</".toList ++ name.toList ++ ">\n".toList

/-- A line with a text element, if there is a text. -/
def renderOptional (indent : Nat) (name : String) : Option String → List Char
  | none => []
  | some text => renderElement indent name text

def Location.render (l : Location) : List Char :=
  "        <location".toList ++ renderAttribute "filename" l.filename
    ++ renderAttribute "line" l.line ++ "/>\n".toList

/-- The content of a translation's element. -/
def Wording.render : Wording → List Char
  | .single text => encode text.toList
  | .plural [] => []
  | .plural forms =>
    '\n' :: forms.flatMap (renderElement 12 "numerusform") ++ List.replicate 8 ' '

def Translation.render (t : Translation) : List Char :=
  "        <translation".toList ++ renderAttribute "type" t.status.mark? ++ '>' :: t.wording.render
    ++ "</translation>\n".toList

def Message.render (m : Message) : List Char :=
  "    <message".toList ++ renderAttribute "id" m.id
    ++ renderAttribute "numerus" (if m.numerus then some "yes" else none) ++ ">\n".toList
    ++ m.locations.flatMap Location.render
    ++ renderElement 8 "source" m.source
    ++ Field.all.flatMap (fun f ↦ renderOptional 8 f.element (m.field f))
    ++ m.translation.render
    ++ "    </message>\n".toList

def Context.render (k : Context) : List Char :=
  "<context>\n".toList ++ renderElement 4 "name" k.name ++ renderOptional 4 "comment" k.comment
    ++ k.messages.flatMap Message.render ++ "</context>\n".toList

/-- The characters of a catalog's document. -/
def Catalog.render (c : Catalog) : List Char :=
  "<?xml version=\"1.0\" encoding=\"utf-8\"?>\n<!DOCTYPE TS>\n<TS".toList
    ++ renderAttribute "version" c.version ++ renderAttribute "language" c.language
    ++ renderAttribute "sourcelanguage" c.sourceLanguage ++ ">\n".toList
    ++ c.contexts.flatMap Context.render ++ "</TS>\n".toList

/-- The document of a catalog. -/
def Catalog.write (c : Catalog) : String :=
  String.ofList c.render

end MessageCatalog
