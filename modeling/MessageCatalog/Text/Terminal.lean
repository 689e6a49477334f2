import MessageCatalog.Text.Numeral

/-!
# Text for a terminal

A terminal takes some control characters as commands, so a text from elsewhere that is shown on one
may move the cursor or change what is shown already. Those characters are shown by their codes.
Line breaks, tabs and the control characters that do no such thing are left alone.
-/

namespace MessageCatalog.Text

/-- The control characters below U+0080 that a terminal takes as commands: bell, backspace, form
feed, escape and delete, with their codes as they are shown. -/
def terminalControls : List (Char × String) := [
  ('\x07', "\\x07"),
  ('\x08', "\\x08"),
  ('\x0c', "\\x0c"),
  ('\x1b', "\\x1b"),
  ('\x7f', "\\x7f")]

def terminalChar (c : Char) : List Char :=
  match terminalControls.lookup c with
  | some code => code.toList
  | none =>
    if 0x80 ≤ c.toNat ∧ c.toNat ≤ 0x9F then ['\\', 'u', '\x7b'] ++ hexDigits c.toNat ++ ['\x7d']
    else [c]

/-- A text as it is shown on a terminal. -/
def terminalText (s : String) : String :=
  String.ofList (s.toList.flatMap terminalChar)

end MessageCatalog.Text
