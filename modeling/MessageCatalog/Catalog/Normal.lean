import MessageCatalog.Catalog.Basic

/-!
# Catalogs as documents can hold them

A document cannot hold every catalog. Its characters exclude U+0000. And since the elements of a
translation alone say whether it has numerus forms, two shapes of messages are not told apart from
others: a message that depends on a count cannot have a single text, and one that does not cannot
have an empty list of forms.

`Catalog.normal` brings these shapes to those that a document holds in their place, and changes
nothing else.
-/

namespace MessageCatalog

/-! ## Normal shapes -/

/-- The wording that a document holds for a message, which may depend on a count. -/
def Wording.normal (numerus : Bool) : Wording → Wording
  | single text => if numerus then plural [] else single text
  | plural [] => blank numerus
  | plural (form :: forms) => plural (form :: forms)

/-- The message that a document holds. -/
def Message.normal (m : Message) : Message :=
  { m with
    translation := { m.translation with wording := m.translation.wording.normal m.numerus } }

def Context.normal (k : Context) : Context :=
  { k with messages := k.messages.map Message.normal }

/-- The catalog that a document holds. -/
def Catalog.normal (c : Catalog) : Catalog :=
  { c with contexts := c.contexts.map Context.normal }

/-- Whether a message has one of the shapes that a document holds. -/
def Message.isNormal (m : Message) : Bool :=
  match m.translation.wording with
  | .single _ => !m.numerus
  | .plural forms => m.numerus || !forms.isEmpty

/-! ## Stored texts -/

def Location.texts (l : Location) : List String :=
  l.filename.toList ++ l.line.toList

def Message.texts (m : Message) : List String :=
  m.id.toList ++ m.locations.flatMap Location.texts ++ [m.source]
    ++ Field.all.flatMap (fun f ↦ (m.field f).toList) ++ m.forms

def Context.texts (k : Context) : List String :=
  k.name :: k.comment.toList ++ k.messages.flatMap Message.texts

def Catalog.texts (c : Catalog) : List String :=
  c.version.toList ++ c.language.toList ++ c.sourceLanguage.toList
    ++ c.contexts.flatMap Context.texts

/-- Whether a document can hold a text. -/
def isStorable (text : String) : Bool :=
  '\x00' ∉ text.toList

/-- Whether a document can hold all texts of a catalog. -/
def Catalog.isStorable (c : Catalog) : Bool :=
  c.texts.all MessageCatalog.isStorable

end MessageCatalog
