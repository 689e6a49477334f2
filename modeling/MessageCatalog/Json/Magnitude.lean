import MessageCatalog.Number.Binary64
import MessageCatalog.Text.Numeral

/-!
# The size of JSON numbers

A JSON number may have any number of digits, but only as many of them are read as a significand of
64 bits has room for; those after them count by their place alone. The significand is rounded to a
double, and so is the product with the power of ten. A number is too large if that is no double,
which near the largest double depends on how the number is written.
-/

namespace MessageCatalog.Json

open Number Text

/-- The size of a JSON number as it is read: `significand * 10 ^ exponent`. -/
structure Magnitude where
  significand : Nat
  exponent : Int
  deriving DecidableEq, Repr

def digitsToNat (cs : List Char) : Nat :=
  cs.foldl (fun n c ↦ 10 * n + (c.toNat - '0'.toNat)) 0

/-- Appends digits to a significand, as many as it has room for, and counts those left over. -/
def appendDigits (significand : Nat) : List Char → Nat × Nat
  | [] => (significand, 0)
  | c :: cs =>
    let longer := 10 * significand + (c.toNat - '0'.toNat)
    if longer ≤ maxWord64 then appendDigits longer cs else (significand, cs.length + 1)

namespace Magnitude

/-- The size of the number with the given digits before and after its point. -/
def ofDigits (integer fraction : List Char) : Magnitude :=
  let (significand, beforePoint) := appendDigits 0 integer
  let (significand, afterPoint) := appendDigits significand fraction
  ⟨significand, (beforePoint : Int) + afterPoint - fraction.length⟩

/-- The size of a number times a power of ten. -/
def scale (m : Magnitude) (exponent : Int) : Magnitude :=
  { m with exponent := m.exponent + exponent }

/-- Whether a number is not too large for a double. Powers of ten beyond 308 are too large by
themselves. -/
def isFinite (m : Magnitude) : Bool :=
  if m.significand = 0 ∨ m.exponent < 0 then true
  else if 308 < m.exponent then false
  else
    let power := Binary64.ofNat (Nat.pow 10 m.exponent.toNat)
    ((Binary64.ofNat m.significand).mul power).isFinite

end Magnitude

end MessageCatalog.Json
