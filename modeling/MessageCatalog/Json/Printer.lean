import MessageCatalog.Json.Value
import MessageCatalog.Text.Numeral

/-!
# Printing JSON

Values are printed with one item or member on a line, indented by two spaces for each level. Inside
strings only the quote, the backslash and the control characters below the space are escaped.
-/

namespace MessageCatalog.Json

/-- One character inside a string. -/
def printChar (c : Char) : List Char :=
  if c = '"' then ['\\', '"']
  else if c = '\\' then ['\\', '\\']
  else if c = '\x08' then ['\\', 'b']
  else if c = '\x0c' then ['\\', 'f']
  else if c = '\n' then ['\\', 'n']
  else if c = '\r' then ['\\', 'r']
  else if c = '\t' then ['\\', 't']
  else if c.toNat < 0x20 then
    "\\u00".toList ++ [Nat.digitChar (c.toNat / 16), Nat.digitChar (c.toNat % 16)]
  else [c]

def printText (s : String) : List Char :=
  '"' :: s.toList.flatMap printChar ++ ['"']

/-- A line break, and the indentation of a level. -/
def newLine (level : Nat) : List Char :=
  '\n' :: List.replicate (2 * level) ' '

mutual

/-- A value that stands at a level of indentation. -/
def Value.print (level : Nat) : Value → List Char
  | .null => "null".toList
  | .bool true => "true".toList
  | .bool false => "false".toList
  | .count n => Nat.toDigits 10 n
  | .text s => printText s
  | .array [] => "[]".toList
  | .array (v :: rest) =>
    '[' :: newLine (level + 1) ++ v.print (level + 1) ++ printItems (level + 1) rest
      ++ newLine level ++ [']']
  | .object [] => ['\x7b', '\x7d']
  | .object ((k, v) :: rest) =>
    '\x7b' :: newLine (level + 1) ++ printText k ++ ": ".toList ++ v.print (level + 1)
      ++ printMembers (level + 1) rest ++ newLine level ++ ['\x7d']

/-- The items of an array after the first. -/
def printItems (level : Nat) : List Value → List Char
  | [] => []
  | v :: rest => ',' :: newLine level ++ v.print level ++ printItems level rest

/-- The members of an object after the first. -/
def printMembers (level : Nat) : List (String × Value) → List Char
  | [] => []
  | (k, v) :: rest =>
    ',' :: newLine level ++ printText k ++ ": ".toList ++ v.print level ++ printMembers level rest

end

/-- A value as a document. -/
def Value.pretty (v : Value) : String :=
  String.ofList (v.print 0)

end MessageCatalog.Json
