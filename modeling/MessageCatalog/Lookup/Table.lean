import MessageCatalog.Catalog.Basic
import MessageCatalog.Catalog.Fault
import MessageCatalog.Index
import MessageCatalog.Notice
import MessageCatalog.Plural.RuleSet

/-!
# Looking up translations

A running program looks up a source text in a table built from a catalog once. The table groups
entries by context, then by source text; within a group an entry is identified by its disambiguation
comment. Of messages with the same key the first usable one counts, also when they are spread over
several contexts of the same name.

A message is usable if its translation is finished, or unfinished and such translations are wanted,
and some form has text. A lookup that finds nothing for a comment is retried without one, and
whoever finds nothing at all shows the source text.
-/

namespace MessageCatalog.Lookup

open Plural

/-! ## Tables -/

/-- What a table keeps of a message. -/
structure Entry where
  comment : String
  numerus : Bool
  forms : List String
  deriving DecidableEq, Repr

def Entry.ofMessage (m : Message) : Entry :=
  ⟨m.commentKey, m.numerus, m.forms⟩

/-- A table of translations. -/
structure Table where
  language : Option String := none
  rules : Option RuleSet := none
  /-- The entries, by context and source text. -/
  entries : Index (Index (List Entry)) := []
  /-- The number of entries. -/
  size : Nat := 0
  deriving Repr, Inhabited

/-- Whether a table may hold a message. -/
def isUsable (includeUnfinished : Bool) (m : Message) : Bool :=
  (m.status = .finished || (includeUnfinished && m.status = .unfinished))
    && !m.translation.wording.isEmpty

namespace Table

/-- The entries for a source text in a context. -/
def group (t : Table) (context source : String) : List Entry :=
  ((t.entries.get? context).bind fun sources ↦ sources.get? source).getD []

/-- The entry for a source text in a context with a comment. -/
def find? (t : Table) (context source comment : String) : Option Entry :=
  (t.group context source).find? (·.comment = comment)

/-- Whether a table has an entry for the key of a message of a context. -/
def holds (t : Table) (context : String) (m : Message) : Bool :=
  (t.find? context m.source m.commentKey).isSome

/-- The table with a message of a context, unless its key is taken. -/
def add (t : Table) (context : String) (m : Message) : Table :=
  if t.holds context m then t
  else
    { t with
      entries := t.entries.update []
        (Index.update [] (· ++ [Entry.ofMessage m]) m.source) context
      size := t.size + 1 }

/-- The table without entries for a language. -/
def empty (language : Option String) : Table where
  language
  rules := RuleSet.ofLanguage? language

/-- The messages of a catalog that a table may hold, each with the name of its context. -/
def usable (includeUnfinished : Bool) (c : Catalog) : List (String × Message) :=
  c.messages.filter fun (_, m) ↦ isUsable includeUnfinished m

/-- The table of a catalog. -/
def ofCatalog (c : Catalog) (includeUnfinished : Bool) : Table :=
  (usable includeUnfinished c).foldl (fun t (context, m) ↦ t.add context m) (empty c.language)

/-- The notice about a language without plural rules. -/
def languageNotices (language : Option String) : List Notice :=
  match language with
  | none => []
  | some name =>
    match RuleSet.ofLocale name with
    | .ok _ => []
    | .error reason =>
      [.warn s!"No plural rules for catalog language: {(Fault.locale name reason).message}"]

/-- The notices about messages whose keys are taken. -/
def duplicateNotices (t : Table) : List (String × Message) → List Notice
  | [] => []
  | (context, m) :: rest =>
    (if t.holds context m then
      [.debug s!"Duplicate message '{m.source}' in context '{context}', keeping the first"]
    else []) ++ duplicateNotices (t.add context m) rest

/-- The notices that building the table of a catalog leaves. -/
def notices (c : Catalog) (includeUnfinished : Bool) : List Notice :=
  languageNotices c.language
    ++ (empty c.language).duplicateNotices (usable includeUnfinished c)

def isEmpty (t : Table) : Bool :=
  t.size = 0

end Table

/-! ## Lookups -/

/-- What a program asks for. -/
structure Query where
  context : String
  source : String
  comment : String := ""
  count : Option Nat := none
  deriving DecidableEq, Repr

namespace Table

/-- The entry that answers a query. -/
def answer? (t : Table) (q : Query) : Option Entry :=
  (t.find? q.context q.source q.comment).or
    (if q.comment = "" then none else t.find? q.context q.source "")

/-- The index of the form of an entry that a count selects. -/
def formIndex (t : Table) (e : Entry) (count : Option Nat) : Nat :=
  match count, t.rules with
  | some count, some rules => if e.numerus then rules.select count else 0
  | _, _ => 0

/-- The text at an index of an entry's forms, or the last one if there are not as many. An empty
form is no text. -/
def formAt? (e : Entry) (index : Nat) : Option String :=
  (e.forms[index]?.or e.forms.getLast?).filter (· ≠ "")

/-- The translation that a query asks for. -/
def translate? (t : Table) (q : Query) : Option String :=
  (t.answer? q).bind fun e ↦ formAt? e (t.formIndex e q.count)

/-- The text to show for a query. -/
def translate (t : Table) (q : Query) : String :=
  (t.translate? q).getD q.source

/-- The notice that a query leaves if its source text is shown. -/
def fallbackNotices (t : Table) (q : Query) : List Notice :=
  match t.translate? q with
  | some _ => []
  | none =>
    [.debug s!"No translation for '{q.source}' in context '{q.context}', using source text"]

end Table

end MessageCatalog.Lookup
