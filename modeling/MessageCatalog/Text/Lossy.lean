/-!
# Bytes shown as text

A sequence of bytes need not be a text in UTF-8. It is shown as far as it is one. Where bytes begin
a character and do not go on with it, the replacement character stands for them, and so it does for
a single byte that begins none.

Bytes are read one by one. What has been begun is known by the bits read so far, and by where the
next byte lies: behind some first bytes not all of the others make a character.
-/

namespace MessageCatalog.Text

/-- The character that stands for what is not text. -/
def replacement : Char := '\uFFFD'

/-- A character of which the first bytes have been read. -/
structure Begun where
  bits : Nat
  /-- The number of bytes that are to come. -/
  missing : Nat
  /-- The least and the greatest next byte. -/
  least : Nat := 0x80
  greatest : Nat := 0xBF
  deriving DecidableEq, Repr

namespace Begun

/-- The character that a byte begins, if it is to have more than one. -/
def ofByte? (byte : Nat) : Option Begun :=
  if byte < 0xC2 then none
  else if byte < 0xE0 then some ⟨byte - 0xC0, 1, 0x80, 0xBF⟩
  else if byte < 0xF0 then
    some ⟨byte - 0xE0, 2, if byte = 0xE0 then 0xA0 else 0x80, if byte = 0xED then 0x9F else 0xBF⟩
  else if byte < 0xF5 then
    some ⟨byte - 0xF0, 3, if byte = 0xF0 then 0x90 else 0x80, if byte = 0xF4 then 0x8F else 0xBF⟩
  else none

def takes (b : Begun) (byte : Nat) : Bool :=
  b.least ≤ byte && byte ≤ b.greatest

/-- The bits of a character with those of one more byte. -/
def bitsWith (b : Begun) (byte : Nat) : Nat :=
  64 * b.bits + (byte - 0x80)

end Begun

/-- What a byte at the beginning of a character shows, and the character that it begins. -/
def firstByte (byte : Nat) : List Char × Option Begun :=
  if byte < 0x80 then ([Char.ofNat byte], none)
  else match Begun.ofByte? byte with
    | some b => ([], some b)
    | none => ([replacement], none)

/-- What a byte behind those of a character shows, and the character of which more is to come. -/
def nextByte (b : Begun) (byte : Nat) : List Char × Option Begun :=
  if b.takes byte then
    if b.missing = 1 then ([Char.ofNat (b.bitsWith byte)], none)
    else ([], some { bits := b.bitsWith byte, missing := b.missing - 1 })
  else
    let (shown, begun) := firstByte byte
    (replacement :: shown, begun)

/-- What is shown of bytes, behind those of a character that has been begun. -/
def shownFrom : Option Begun → List UInt8 → List Char
  | none, [] => []
  | some _, [] => [replacement]
  | none, byte :: rest =>
    let (shown, begun) := firstByte byte.toNat
    shown ++ shownFrom begun rest
  | some b, byte :: rest =>
    let (shown, begun) := nextByte b byte.toNat
    shown ++ shownFrom begun rest

/-- Bytes as they are shown. -/
def lossy (bytes : List UInt8) : String :=
  String.ofList (shownFrom none bytes)

/-- The bytes of a text in UTF-8. -/
def utf8Bytes (s : String) : List UInt8 :=
  s.toList.flatMap String.utf8EncodeChar

example : lossy [0x61, 0xFF, 0x2E] = "a\uFFFD." := by decide +kernel
example : lossy [0xE4, 0xB8, 0x61, 0xF0, 0x9F, 0x8C] = "\uFFFDa\uFFFD" := by decide +kernel

end MessageCatalog.Text
