import MessageCatalog.Json.Value

/-!
# Issues

What the check of a catalog finds, its wording, and its form in JSON.
-/

namespace MessageCatalog.Integrity

open Json

/-- How bad an issue is. -/
inductive Severity
  | warning
  | error
  deriving DecidableEq, Repr

def Severity.name : Severity → String
  | .warning => "warning"
  | .error => "error"

/-- What can be wrong with a catalog. -/
inductive Kind
  /-- A context with the name of an earlier one. -/
  | duplicateContext
  /-- A message with the source and comment of an earlier one in its context. -/
  | duplicateMessage
  /-- A finished translation with a form that has no text, or with no form. -/
  | emptyFinished
  /-- A number of forms that does not fit the language. -/
  | formCount (expected found : Nat)
  /-- The numerus flag and the translation do not agree. -/
  | numerusMismatch
  /-- Other placeholders in the translation than in the source. -/
  | placeholderMismatch (expected found : List String)
  | missingLanguage
  /-- A language without plural rules. -/
  | unknownLanguage (language : String)
  deriving DecidableEq, Repr

def Kind.message : Kind → String
  | .duplicateContext => "duplicate context"
  | .duplicateMessage => "duplicate message"
  | .emptyFinished => "finished translation is empty"
  | .formCount expected found => s!"expected {expected} numerus form(s), found {found}"
  | .numerusMismatch => "numerus flag does not match translation forms"
  | .placeholderMismatch expected found =>
    "format specifiers differ: source has [" ++ ", ".intercalate expected
      ++ "], translation has [" ++ ", ".intercalate found ++ "]"
  | .missingLanguage => "catalog has no language attribute"
  | .unknownLanguage language => s!"no plural rules for language '{language}'"

/-- One thing that is wrong with a catalog, and where. -/
structure Issue where
  severity : Severity
  kind : Kind
  /-- The name of the context. -/
  context : Option String := none
  /-- The source text of the message. -/
  source : Option String := none
  deriving DecidableEq, Repr

/-- The line that reports an issue. -/
def Issue.line (i : Issue) : String :=
  let context := match i.context with
    | some name => s!" in context '{name}'"
    | none => ""
  let source := match i.source with
    | some text => s!" for \"{text}\""
    | none => ""
  s!"{i.severity.name}: {i.kind.message}" ++ context ++ source

def Kind.toJson : Kind → Value
  | .duplicateContext => .text "duplicate_context"
  | .duplicateMessage => .text "duplicate_message"
  | .emptyFinished => .text "empty_finished_translation"
  | .formCount expected found =>
    .object [("numerus_form_count",
      .object [("expected", .count expected), ("found", .count found)])]
  | .numerusMismatch => .text "numerus_mismatch"
  | .placeholderMismatch expected found =>
    .object [("format_specifier_mismatch",
      .object [("expected", .array (expected.map .text)), ("found", .array (found.map .text))])]
  | .missingLanguage => .text "missing_language"
  | .unknownLanguage language => .object [("unknown_language", .text language)]

def Issue.toJson (i : Issue) : Value :=
  .object [
    ("severity", .text i.severity.name),
    ("kind", i.kind.toJson),
    ("context", .ofText? i.context),
    ("source", .ofText? i.source)]

end MessageCatalog.Integrity
