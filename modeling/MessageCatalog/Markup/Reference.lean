import MessageCatalog.Text.Numeral
import MessageCatalog.Text.Width

/-!
# Character references

Markup characters cannot stand for themselves in text and attribute values; they are written as
references, `&lt;` or `&#x1b;`, and read back from them.

## Writing

`escape` replaces the five markup characters by their names and leaves everything else alone.
`encode` also replaces the control characters that no XML document may hold literally, so that any
text without U+0000 can be stored. Both work character by character, so a reference is never formed
across a boundary (`encode_append`).

## Reading

`decode` is a small machine that reads one character at a time, and is either outside a reference
or inside one that began at a known byte. Ranges in its faults count bytes from the start of the
piece that is being decoded.
-/

namespace MessageCatalog.Markup

open Text

/-! ## Writing -/

/-- The name of a markup character. -/
def escapeChar (c : Char) : List Char :=
  if c = '<' then "&lt;".toList
  else if c = '>' then "&gt;".toList
  else if c = '&' then "&amp;".toList
  else if c = '\'' then "&apos;".toList
  else if c = '"' then "&quot;".toList
  else [c]

/-- The text with its markup characters replaced by their names. -/
def escape (cs : List Char) : List Char :=
  cs.flatMap escapeChar

/-- Whether a character is a control character that is stored by number: those below the space but
for tab, line feed and carriage return. -/
def isStoredByNumber (c : Char) : Bool :=
  c.toNat < 0x20 && c ≠ '\t' && c ≠ '\n' && c ≠ '\r'

/-- The stored form of one character. -/
def encodeChar (c : Char) : List Char :=
  if isStoredByNumber c then "&#x".toList ++ hexDigits c.toNat ++ [';'] else escapeChar c

/-- The stored form of a text, for element content and attribute values alike. -/
def encode (cs : List Char) : List Char :=
  cs.flatMap encodeChar

@[simp] theorem encode_append (a b : List Char) : encode (a ++ b) = encode a ++ encode b :=
  List.flatMap_append

/-! ## Reading -/

/-- Why a reference cannot be resolved. -/
inductive ReferenceFault
  /-- No semicolon follows the ampersand at `start`; the piece ends at `stop`. -/
  | unterminated (start stop : Nat)
  /-- No character has this name. -/
  | unknownName (start stop : Nat) (name : List Char)
  /-- The reference denotes U+0000. -/
  | null (start stop : Nat)
  /-- More than six hexadecimal digits. -/
  | longHexadecimal
  /-- A character that is no hexadecimal digit. -/
  | badHexadecimal (c : Char)
  /-- More than seven decimal digits. -/
  | longDecimal
  /-- A character that is no decimal digit. -/
  | badDecimal (c : Char)
  /-- The number is not the code point of a character. -/
  | notScalar (code : Nat)
  deriving DecidableEq, Repr

/-- The character with a predefined name. -/
def named? (name : List Char) : Option Char :=
  if name = "lt".toList then some '<'
  else if name = "gt".toList then some '>'
  else if name = "amp".toList then some '&'
  else if name = "apos".toList then some '\''
  else if name = "quot".toList then some '"'
  else none

/-- The number that digits of a radix denote (zero when there are none), or the first character
that is no digit. -/
def digitsValue (radix : Nat) : Nat → List Char → Except Char Nat
  | n, [] => .ok n
  | n, c :: cs =>
    match digit? radix c with
    | some d => digitsValue radix (radix * n + d) cs
    | none => .error c

/-- The code point that a numeric reference denotes, from what stands after its `#`. -/
def codePoint (digits : List Char) : Except ReferenceFault Nat :=
  match digits with
  | 'x' :: hex =>
    if 6 < byteWidth hex then .error .longHexadecimal
    else (digitsValue 16 0 hex).mapError fun c ↦ .badHexadecimal (leadByte c)
  | decimal =>
    if 7 < byteWidth decimal then .error .longDecimal
    else (digitsValue 10 0 decimal).mapError fun c ↦ .badDecimal (leadByte c)

/-- The character with a code point, other than U+0000. -/
def scalar (start stop code : Nat) : Except ReferenceFault Char :=
  if code = 0 then .error (.null start stop)
  else if code.isValidChar then .ok (Char.ofNat code)
  else .error (.notScalar code)

/-- The character that a reference denotes, from what stands between its `&` at byte `start` and
its `;`. -/
def resolve (start : Nat) (name : List Char) : Except ReferenceFault Char :=
  match name with
  | '#' :: digits => (codePoint digits).bind (scalar start (start + 1 + byteWidth name))
  | _ =>
    match named? name with
    | some c => .ok c
    | none => .error (.unknownName (start + 1) (start + 1 + byteWidth name) name)

/-- Where the decoder stands: outside references, or inside the one that began at byte `start`,
having read `name` of it, last character first. -/
inductive Decoder
  | outside
  | inside (start : Nat) (name : List Char)
  deriving DecidableEq, Repr

/-- Decodes the rest of a piece that is `total` bytes long, from its byte `pos` on. -/
def decodeFrom (total : Nat) : Decoder → Nat → List Char → Except ReferenceFault (List Char)
  | .outside, _, [] => .ok []
  | .outside, pos, c :: cs =>
    if c = '&' then decodeFrom total (.inside pos []) (pos + 1) cs
    else (decodeFrom total .outside (pos + c.utf8Size) cs).map (c :: ·)
  | .inside start _, _, [] => .error (.unterminated start total)
  | .inside start name, pos, c :: cs =>
    if c = ';' then
      (resolve start name.reverse).bind fun d ↦
        (decodeFrom total .outside (pos + 1) cs).map (d :: ·)
    else if c = '&' then .error (.unterminated start total)
    else decodeFrom total (.inside start (c :: name)) (pos + c.utf8Size) cs

/-- The text that a piece of a document stands for. -/
def decode (cs : List Char) : Except ReferenceFault (List Char) :=
  decodeFrom (byteWidth cs) .outside 0 cs

end MessageCatalog.Markup
