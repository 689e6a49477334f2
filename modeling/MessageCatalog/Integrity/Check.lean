import MessageCatalog.Catalog.Basic
import MessageCatalog.Integrity.Issue
import MessageCatalog.Integrity.Placeholder
import MessageCatalog.Plural.RuleSet

/-!
# Checking catalogs

A catalog is sound if a program can use it: no two messages answer to one key, every finished
translation has a text for every form that its language needs, and translations take the arguments
of their sources. Messages that are not live are not checked.

Issues are listed in document order. What is wrong with an unfinished translation's placeholders is
a warning, and so is a language that is missing or unknown; everything else is an error.
-/

namespace MessageCatalog.Integrity

open Plural

def languageIssues (c : Catalog) : List Issue :=
  match c.language with
  | none => [⟨.warning, .missingLanguage, none, none⟩]
  | some language =>
    match RuleSet.ofLocale language with
    | .ok _ => []
    | .error _ => [⟨.warning, .unknownLanguage language, none, none⟩]

/-- What is wrong with the number of a message's forms. -/
def formIssues (rules : Option RuleSet) (m : Message) : List Kind :=
  if m.numerus ≠ m.translation.wording.isPlural then [.numerusMismatch]
  else match rules with
    | none => []
    | some rules =>
      if m.numerus && !rules.accepts m.forms.length then
        [.formCount rules.formCount m.forms.length]
      else []

/-- Whether a finished message lacks a text. -/
def isEmptyFinished (m : Message) : Bool :=
  m.status = .finished && (m.forms.isEmpty || m.forms.any (·.isEmpty))

/-- The placeholders of a message's source, and those of the first form with text that has others.
-/
def placeholderMismatch? (m : Message) : Option (List String × List String) :=
  let expected := references m.source m.numerus
  let found := (m.forms.filter fun form ↦ !form.isEmpty).map fun form ↦ references form m.numerus
  (found.find? (· ≠ expected)).map fun other ↦ (expected, other)

/-- The severity of a mismatch of placeholders in a message. -/
def placeholderSeverity (m : Message) : Severity :=
  if m.status = .finished then .error else .warning

/-- What is wrong with a message by itself. -/
def messageIssues (rules : Option RuleSet) (m : Message) : List (Severity × Kind) :=
  (formIssues rules m).map (fun kind ↦ (.error, kind))
    ++ (if isEmptyFinished m then [(.error, .emptyFinished)] else [])
    ++ match placeholderMismatch? m with
      | none => []
      | some (expected, found) =>
        [(placeholderSeverity m,
          .placeholderMismatch (expected.map ("%" ++ ·)) (found.map ("%" ++ ·)))]

/-- What a live message is identified by in its context. -/
def messageKey (m : Message) : String × String :=
  (m.source, m.commentKey)

/-- The issues with messages of the context with a name, `seen` being the keys of those before. -/
def issuesInMessages (rules : Option RuleSet) (context : String) :
    (seen : List (String × String)) → List Message → List Issue
  | _, [] => []
  | seen, m :: rest =>
    (if messageKey m ∈ seen then [⟨.error, .duplicateMessage, some context, some m.source⟩] else [])
      ++ (messageIssues rules m).map (fun (severity, kind) ↦
        ⟨severity, kind, some context, some m.source⟩)
      ++ issuesInMessages rules context (messageKey m :: seen) rest

/-- The issues with contexts, `seen` being the names of those before. -/
def issuesInContexts (rules : Option RuleSet) : (seen : List String) → List Context → List Issue
  | _, [] => []
  | seen, k :: rest =>
    (if k.name ∈ seen then [⟨.error, .duplicateContext, some k.name, none⟩] else [])
      ++ issuesInMessages rules k.name [] (k.messages.filter (·.isLive))
      ++ issuesInContexts rules (k.name :: seen) rest

/-- The issues with a catalog, in document order. -/
def issues (c : Catalog) : List Issue :=
  languageIssues c ++ issuesInContexts (RuleSet.ofLanguage? c.language) [] c.contexts

/-! ## Reports -/

def errors (issues : List Issue) : List Issue :=
  issues.filter (·.severity = .error)

def warnings (issues : List Issue) : List Issue :=
  issues.filter (·.severity = .warning)

/-- Whether there is an error among issues. -/
def hasErrors (issues : List Issue) : Bool :=
  issues.any (·.severity = .error)

/-- One line for each issue, with the file that it was found in. -/
def report (file : String) (issues : List Issue) : String :=
  String.join (issues.map fun i ↦ s!"{file}: {i.line}\n")

def reportJson (issues : List Issue) : Json.Value :=
  .object [("issues", .array (issues.map Issue.toJson))]

end MessageCatalog.Integrity
