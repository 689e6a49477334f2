import MessageCatalog.Markup.Attribute
import MessageCatalog.Text.Literal

/-!
# Faults of a document's markup

Everything that can be wrong with a document as markup, whatever it is about, and the wording of
each fault.
-/

namespace MessageCatalog.Markup

open Text

/-- The constructs that the end of the document can cut short. -/
inductive Construct
  | bang
  | comment
  | verbatim
  | doctype
  | instruction
  | element
  deriving DecidableEq, Repr

def Construct.name : Construct → String
  | .bang => "Bang"
  | .comment => "Comment"
  | .verbatim => "CData"
  | .doctype => "DOCTYPE"
  | .instruction => "XmlDecl"
  | .element => "Element"

/-- What is wrong with a document as markup. -/
inductive Fault
  /-- A construct has no end, or turns out to be none of its kind. -/
  | unexpectedEnd (construct : Construct)
  /-- After `<!`, a character that begins no construct. -/
  | strayBang (c : Char)
  /-- A document type declaration without content. -/
  | emptyDoctype
  /-- An end tag that does not close the innermost open element. -/
  | mismatchedEnd (expected found : String)
  /-- The attributes of a tag cannot be read. -/
  | attribute (fault : AttributeFault)
  /-- A reference in text cannot be resolved. -/
  | reference (fault : ReferenceFault)
  deriving DecidableEq, Repr

def ReferenceFault.message : ReferenceFault → String
  | .unterminated start stop =>
    s!"Error while escaping character at range {start}..{stop}: Cannot find ';' after '&'"
  | .unknownName start stop name =>
    s!"Error while escaping character at range {start}..{stop}: "
      ++ "Unrecognized escape symbol: " ++ literal name
  | .null start stop =>
    s!"Error while escaping character at range {start}..{stop}: "
      ++ "Null character entity not allowed"
  | .longHexadecimal => "Cannot convert hexadecimal to utf8"
  | .badHexadecimal c => s!"'{c}' is not a valid hexadecimal character"
  | .longDecimal => "Cannot convert decimal to utf8"
  | .badDecimal c => s!"'{c}' is not a valid decimal character"
  | .notScalar code => s!"'{code}' is not a valid codepoint"

def AttributeFault.message : AttributeFault → String
  | .missingEquals offset =>
    s!"position {offset}: attribute key must be directly followed by `=` or space"
  | .repeatedKey offset previous =>
    s!"position {offset}: duplicated attribute, previous declaration at position {previous}"
  | .unquotedValue offset =>
    s!"position {offset}: attribute value must be enclosed in `\"` or `'`"
  | .missingValue offset =>
    s!"position {offset}: `=` must be followed by an attribute value"
  | .openQuote offset quote =>
    s!"position {offset}: missing closing quote `{quote}` in attribute value"
  | .reference fault => fault.message

def Fault.message : Fault → String
  | .unexpectedEnd construct => s!"Unexpected EOF during reading {construct.name}"
  | .strayBang c =>
    "Only Comment (`--`), CDATA (`[CDATA[`) and DOCTYPE (`DOCTYPE`) nodes can start with a '!', "
      ++ s!"but symbol `{c}` found"
  | .emptyDoctype => "DOCTYPE declaration must not be empty"
  | .mismatchedEnd expected found => s!"Expecting </{expected}> found </{found}>"
  | .attribute fault => fault.message
  | .reference fault => fault.message

end MessageCatalog.Markup
