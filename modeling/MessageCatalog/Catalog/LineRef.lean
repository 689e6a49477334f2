import MessageCatalog.Catalog.Basic
import MessageCatalog.Text.Blank
import MessageCatalog.Text.Numeral

/-!
# Line references

The line of a location is kept as written. It denotes a line number, or, when it begins with a sign,
a distance in lines from the location before it.
-/

namespace MessageCatalog

open Text

/-- What the line of a location denotes. -/
inductive LineRef
  | absolute (line : Nat)
  | relative (distance : Int)
  deriving DecidableEq, Repr

/-- What a written line denotes, the white space around it left aside: an unsigned number of 32
bits, or a signed one when it begins with a sign. -/
def LineRef.ofText? (line : String) : Option LineRef :=
  match trimChars line.toList with
  | '+' :: cs => (signed? maxInt32 ('+' :: cs)).map .relative
  | '-' :: cs => (signed? maxInt32 ('-' :: cs)).map .relative
  | cs => (unsigned? 10 maxWord32 cs).map .absolute

/-- A line reference as it is written: a distance with its sign. -/
def LineRef.text : LineRef → String
  | absolute line => String.ofList (Nat.toDigits 10 line)
  | relative distance =>
    let sign := if distance < 0 then '-' else '+'
    String.ofList (sign :: Nat.toDigits 10 distance.natAbs)

/-- What the line of a location denotes. -/
def Location.lineRef? (l : Location) : Option LineRef :=
  l.line.bind LineRef.ofText?

end MessageCatalog
