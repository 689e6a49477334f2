import MessageCatalog.Json.Magnitude
import MessageCatalog.Text.Numeral
import MessageCatalog.Text.Width

/-!
# Reading JSON texts

A JSON text is read into a `Document`, which holds what the text says as far as it can be read,
with each fault at the place where it was met. Whoever takes values from a document goes through it
from left to right, and so meets the fault of a malformed text, or a value of the wrong kind before
it, in the order in which they stand in the text.

## Reading and skipping

A value that nobody asks for is skipped. Skipping only looks for the end of a value, so it is more
lenient than reading: a string may hold a surrogate without its partner, and a number may be too
large. A literal therefore records the outcome of both.
-/

namespace MessageCatalog.Json

open Text

/-- What can be wrong with a JSON text. -/
inductive Fault
  /-- The text ends too soon. -/
  | endOfText
  /-- The text is not JSON. -/
  | malformed
  /-- A value is not of the expected kind. -/
  | mismatch
  deriving DecidableEq, Repr

/-- The name of the kind of a fault. -/
def Fault.category : Fault → String
  | .endOfText => "Eof"
  | .malformed => "Syntax"
  | .mismatch => "Data"

/-- A literal that is no string. -/
inductive Scalar
  | null
  | bool (b : Bool)
  | number
  deriving DecidableEq, Repr

/-- What a JSON text holds. -/
inductive Document
  /-- The text ends where a value was to begin. -/
  | absent
  /-- A literal: what it says, and the fault in skipping it. -/
  | scalar (said : Except Fault Scalar) (skipped : Option Fault)
  /-- A string: what it says, and the fault in skipping it. -/
  | text (said : Except Fault String) (skipped : Option Fault)
  /-- The items of an array, and the fault after them. -/
  | array (items : List Document) (stop : Option Fault)
  /-- The members of an object, and the fault after them. Whatever stands in the place of a key is
  held as one. -/
  | object (members : List (Document × Document)) (stop : Option Fault)

/-- Something that is no value. -/
def Document.broken (fault : Fault) : Document := .scalar (.error fault) (some fault)

/-! ## Literals -/

def isSpace (c : Char) : Bool :=
  c = ' ' || c = '\n' || c = '\t' || c = '\r'

/-- The text after the white space that it begins with. -/
def dropSpace (cs : List Char) : List Char :=
  cs.dropWhile isSpace

/-- A literal as it is scanned: what it says, the fault in skipping it, and the text after it,
unless the literal has no end. -/
structure Scanned (α : Type) where
  said : Except Fault α
  skipped : Option Fault
  rest : Option (List Char)

/-- The rest of a text after the expected letters of a word. -/
def dropWord : List Char → List Char → Except Fault (List Char)
  | [], cs => .ok cs
  | _ :: _, [] => .error .endOfText
  | w :: ws, c :: cs => if w = c then dropWord ws cs else .error .malformed

/-- Scans a word that stands for a value. -/
def scanWord (word : String) (value : Scalar) (cs : List Char) : Scanned Scalar :=
  match dropWord word.toList cs with
  | .ok rest => ⟨.ok value, none, some rest⟩
  | .error fault => ⟨.error fault, some fault, none⟩

/-! ### Numbers -/

def isDigit (c : Char) : Bool :=
  '0' ≤ c && c ≤ '9'

/-- The end of a number that lacks a digit where the text goes on with `cs`. Skipping does not look
whether the text ends there. -/
def digitMissing (cs : List Char) : Scanned Scalar :=
  ⟨.error (if cs.isEmpty then .endOfText else .malformed), some .malformed, none⟩

/-- A number that is complete. -/
def numberDone (magnitude : Magnitude) (rest : List Char) : Scanned Scalar :=
  ⟨if magnitude.isFinite then .ok .number else .error .malformed, none, some rest⟩

/-- Scans what may follow the digits of a number: an exponent. -/
def scanExponent (magnitude : Magnitude) (cs : List Char) : Scanned Scalar :=
  let scanDigits (negative : Bool) (cs : List Char) : Scanned Scalar :=
    match cs.takeWhile isDigit with
    | [] => digitMissing cs
    | digits =>
      let exponent : Int := digitsToNat digits
      numberDone (magnitude.scale (if negative then -exponent else exponent))
        (cs.dropWhile isDigit)
  match cs with
  | 'e' :: '-' :: cs | 'E' :: '-' :: cs => scanDigits true cs
  | 'e' :: '+' :: cs | 'E' :: '+' :: cs => scanDigits false cs
  | 'e' :: cs | 'E' :: cs => scanDigits false cs
  | cs => numberDone magnitude cs

/-- Scans what may follow the integer digits of a number: a fraction, then an exponent. -/
def scanFraction (integer : List Char) (cs : List Char) : Scanned Scalar :=
  match cs with
  | '.' :: cs =>
    match cs.takeWhile isDigit with
    | [] => digitMissing cs
    | digits => scanExponent (.ofDigits integer digits) (cs.dropWhile isDigit)
  | cs => scanExponent (.ofDigits integer []) cs

/-- Scans a number without its sign. -/
def scanUnsigned (cs : List Char) : Scanned Scalar :=
  match cs.takeWhile isDigit with
  | [] => digitMissing cs
  | '0' :: _ :: _ => ⟨.error .malformed, some .malformed, none⟩
  | digits => scanFraction digits (cs.dropWhile isDigit)

/-! ### Strings -/

/-- The value of four hexadecimal digits. -/
def fourDigits? (a b c d : Char) : Option Nat :=
  natural? 16 [a, b, c, d]

/-- The first half of a pair of surrogates. -/
def isHighSurrogate (n : Nat) : Bool := 0xD800 ≤ n && n ≤ 0xDBFF

/-- The second half of a pair of surrogates. -/
def isLowSurrogate (n : Nat) : Bool := 0xDC00 ≤ n && n ≤ 0xDFFF

/-- The character that a pair of surrogates stands for. -/
def pairToChar (high low : Nat) : Char :=
  Char.ofNat (0x10000 + (high - 0xD800) * 0x400 + (low - 0xDC00))

/-- The character that a backslash and a letter stand for. -/
def unescape? (c : Char) : Option Char :=
  if c = '"' then some '"'
  else if c = '\\' then some '\\'
  else if c = '/' then some '/'
  else if c = 'b' then some '\x08'
  else if c = 'f' then some '\x0c'
  else if c = 'n' then some '\n'
  else if c = 'r' then some '\r'
  else if c = 't' then some '\t'
  else none

/-- What a string says so far, last character first, until the first fault in it. -/
abbrev Said := Except Fault (List Char)

def Said.push (c : Char) (said : Said) : Said :=
  said.map (c :: ·)

/-- Adds a fault, unless there is one. -/
def Said.spoil (fault : Fault) (said : Said) : Said :=
  said.bind fun _ ↦ .error fault

/-- Adds the fault of a first surrogate that has no partner, if one is waiting for it. -/
def Said.expectNone (high : Option Nat) (said : Said) : Said :=
  if high.isSome then said.spoil .malformed else said

/-- A string without an end. -/
def textCut (fault : Fault) (said : Said) : Scanned String :=
  ⟨(said.spoil fault).map fun _ ↦ "", some fault, none⟩

/-- Scans the rest of a string after its opening quote, where `high` is a first surrogate waiting
for its partner. -/
def scanText (high : Option Nat) (said : Said) : List Char → Scanned String
  | [] => textCut .endOfText said
  | '"' :: rest =>
    ⟨(said.expectNone high).map fun cs ↦ String.ofList cs.reverse, none, some rest⟩
  | '\\' :: 'u' :: a :: b :: c :: d :: rest =>
    match fourDigits? a b c d with
    | none => textCut .malformed said
    | some n =>
      match high with
      | some h =>
        if isLowSurrogate n then scanText none (said.push (pairToChar h n)) rest
        else scanText none (said.spoil .malformed) rest
      | none =>
        if isHighSurrogate n then scanText (some n) said rest
        else if isLowSurrogate n then scanText none (said.spoil .malformed) rest
        else scanText none (said.push (Char.ofNat n)) rest
  | '\\' :: 'u' :: cs =>
    textCut (if byteWidth cs < 4 then .endOfText else .malformed) said
  | '\\' :: c :: rest =>
    match unescape? c with
    | some c => scanText none ((said.expectNone high).push c) rest
    | none => textCut .malformed said
  | ['\\'] => textCut .endOfText said
  | c :: rest =>
    if c.toNat < 0x20 then textCut .malformed said
    else scanText none ((said.expectNone high).push c) rest

/-! ## Values -/

/-- A document with the text after it, unless the text has no value there. -/
abbrev ScannedDocument := Document × Option (List Char)

/-- A literal as a document. -/
def Scanned.toScalar (s : Scanned Scalar) : ScannedDocument := (.scalar s.said s.skipped, s.rest)

def Scanned.toText (s : Scanned String) : ScannedDocument := (.text s.said s.skipped, s.rest)

mutual

/-- Scans a value. The fuel bounds the number of values and separators on the way into it. -/
def scanValue : (fuel : Nat) → List Char → ScannedDocument
  | 0, _ => (.absent, none)
  | fuel + 1, cs =>
    match dropSpace cs with
    | [] => (.absent, none)
    | '"' :: rest => (scanText none (.ok []) rest).toText
    | '[' :: rest =>
      match dropSpace rest with
      | ']' :: rest => (.array [] none, some rest)
      | [] => (.array [] (some .endOfText), none)
      | rest =>
        let (items, stop, rest) := scanItems fuel rest
        (.array items stop, rest)
    | '\x7b' :: rest =>
      match dropSpace rest with
      | '\x7d' :: rest => (.object [] none, some rest)
      | [] => (.object [] (some .endOfText), none)
      | rest =>
        let (members, stop, rest) := scanMembers fuel rest
        (.object members stop, rest)
    | 'n' :: rest => (scanWord "ull" .null rest).toScalar
    | 't' :: rest => (scanWord "rue" (.bool true) rest).toScalar
    | 'f' :: rest => (scanWord "alse" (.bool false) rest).toScalar
    | '-' :: rest => (scanUnsigned rest).toScalar
    | c :: rest =>
      if isDigit c then (scanUnsigned (c :: rest)).toScalar else (.broken .malformed, none)

/-- Scans one or more items of an array and its end. -/
def scanItems : (fuel : Nat) → List Char → List Document × Option Fault × Option (List Char)
  | 0, _ => ([], some .endOfText, none)
  | fuel + 1, cs =>
    match scanValue fuel cs with
    | (item, none) => ([item], none, none)
    | (item, some rest) =>
      match dropSpace rest with
      | [] => ([item], some .endOfText, none)
      | ']' :: rest => ([item], none, some rest)
      | ',' :: rest =>
        let (items, stop, rest) := scanItems fuel rest
        (item :: items, stop, rest)
      | _ => ([item], some .malformed, none)

/-- Scans one or more members of an object and its end. -/
def scanMembers :
    (fuel : Nat) → List Char → List (Document × Document) × Option Fault × Option (List Char)
  | 0, _ => ([], some .endOfText, none)
  | fuel + 1, cs =>
    match scanValue fuel cs with
    | (key, none) => ([(key, .absent)], none, none)
    | (key, some rest) =>
      match dropSpace rest with
      | [] => ([(key, .absent)], none, none)
      | ':' :: rest =>
        match scanValue fuel rest with
        | (value, none) => ([(key, value)], none, none)
        | (value, some rest) =>
          match dropSpace rest with
          | [] => ([(key, value)], some .endOfText, none)
          | '\x7d' :: rest => ([(key, value)], none, some rest)
          | ',' :: rest =>
            let (members, stop, rest) := scanMembers fuel rest
            ((key, value) :: members, stop, rest)
          | _ => ([(key, value)], some .malformed, none)
      | _ => ([(key, .broken .malformed)], none, none)

end

/-- What a whole JSON text holds, and whether something other than white space follows. -/
def Document.ofText (s : String) : Document × Bool :=
  let cs := s.toList
  let (document, rest) := scanValue (2 * cs.length + 2) cs
  (document, rest.any fun cs ↦ dropSpace cs ≠ [])

/-! ## Skipping -/

mutual

/-- The first fault in skipping a document. -/
def Document.skipFault : Document → Option Fault
  | .absent => some .endOfText
  | .scalar _ skipped => skipped
  | .text _ skipped => skipped
  | .array items stop => (skipItems items).or stop
  | .object members stop => (skipMembers members).or stop

/-- The first fault in skipping the items of an array. -/
def skipItems : List Document → Option Fault
  | [] => none
  | item :: rest => item.skipFault.or (skipItems rest)

/-- The first fault in skipping the members of an object. A key is a string. -/
def skipMembers : List (Document × Document) → Option Fault
  | [] => none
  | (key, value) :: rest =>
    match key with
    | .text _ skipped => skipped.or (value.skipFault.or (skipMembers rest))
    | .absent => some .endOfText
    | _ => some .malformed

end

end MessageCatalog.Json
