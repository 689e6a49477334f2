import MessageCatalog.Locale.Tag
import MessageCatalog.Markup.Fault
import MessageCatalog.Storage.Cause

/-!
# Faults of catalogs

Everything that can keep a catalog from being loaded, saved or understood, and the wording of
each fault.
-/

namespace MessageCatalog

/-- What is wrong with a document that is well-formed markup but not a catalog. -/
inductive FormatFault
  | missingRoot
  /-- The root element has another name. -/
  | wrongRoot (name : String)
  | contextWithoutName
  /-- A message without a source text, in the context with this name. -/
  | messageWithoutSource (context : String)
  /-- The document ends inside an element. -/
  | endInside (element : String)
  | byteWithoutValue
  | invalidByte (value : String)
  deriving DecidableEq, Repr

def FormatFault.message : FormatFault → String
  | .missingRoot => "missing <TS> root element"
  | .wrongRoot name => s!"expected <TS> root element, found <{name}>"
  | .contextWithoutName => "<context> without <name>"
  | .messageWithoutSource context => s!"<message> without <source> in context '{context}'"
  | .endInside element => s!"unexpected end of document inside <{element}>"
  | .byteWithoutValue => "<byte> without value"
  | .invalidByte value => s!"invalid <byte> value '{value}'"

/-- Why an operation on a catalog fails. -/
inductive Fault
  /-- A file cannot be read or written. -/
  | io (path : String) (cause : Storage.Cause)
  /-- The document is not well-formed markup. -/
  | markup (position : Nat) (fault : Markup.Fault)
  /-- The document is not a catalog. -/
  | format (fault : FormatFault)
  /-- A text names no locale with plural rules. -/
  | locale (name : String) (reason : Locale.Reason)
  | directoryNotFound (path : String)
  | notADirectory (path : String)
  deriving DecidableEq, Repr

/-- The wording of a fault. -/
def Fault.message : Fault → String
  | .io path cause => s!"Failed to read '{path}': {cause.message}"
  | .markup position fault => s!"XML error at byte {position}: {fault.message}"
  | .format fault => s!"Invalid TS document: {fault.message}"
  | .locale name reason => s!"Invalid locale '{name}': {reason.message}"
  | .directoryNotFound path => s!"Directory not found: {path}"
  | .notADirectory path => s!"Path is not a directory: {path}"

end MessageCatalog
