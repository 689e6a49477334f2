import MessageCatalog.Text.Numeral
import MessageCatalog.Text.Unprintable

/-!
# Quoted literals

Messages show a piece of a document as a literal in double quotes, so that a line break or an
invisible character in it can be seen.
-/

namespace MessageCatalog.Text

/-- One character inside a literal: the usual backslash escapes, and the code point in braces for
what cannot be printed. -/
def literalChar (c : Char) : List Char :=
  if c = '\x00' then ['\\', '0']
  else if c = '\t' then ['\\', 't']
  else if c = '\r' then ['\\', 'r']
  else if c = '\n' then ['\\', 'n']
  else if c = '\\' then ['\\', '\\']
  else if c = '"' then ['\\', '"']
  else if isUnprintable c then ['\\', 'u', '\x7b'] ++ hexDigits c.toNat ++ ['\x7d']
  else [c]

/-- A text as a literal in double quotes. -/
def literal (cs : List Char) : String :=
  String.ofList ('"' :: cs.flatMap literalChar ++ ['"'])

end MessageCatalog.Text
