/-!
# Double precision

Shares of a whole are kept in double precision, and reports show them to one decimal place of a
percentage. The numbers in a JSON text are read in double precision. Here a double is a pair of a
significand and a binary exponent, and every rounding is one integer division, to the nearest result
and to an even one between two.

The exponent has no bounds: there is no subnormal number, and a number that is too large for a
double is told by its exponent. There is no sign either.
-/

namespace MessageCatalog.Number

/-- `num / den` rounded to the nearest natural number, or to the even one of two. -/
def roundDiv (num den : Nat) : Nat :=
  let q := num / den
  let r := num % den
  if den < 2 * r ∨ (den = 2 * r ∧ q % 2 = 1) then q + 1 else q

def twoTo (n : Nat) : Nat :=
  Nat.pow 2 n

/-- The number `significand * 2 ^ exponent`. Unless it is zero, the significand has 53 bits. -/
structure Binary64 where
  significand : Nat
  exponent : Int
  deriving DecidableEq, Repr

namespace Binary64

/-- `num / den * 2 ^ (-exponent)`, as a fraction. -/
def scale (num den : Nat) (exponent : Int) : Nat × Nat :=
  if 0 ≤ exponent then (num, den * twoTo exponent.toNat) else (num * twoTo (-exponent).toNat, den)

/-- The double nearest to `num / den`. -/
def ofFraction (num den : Nat) : Binary64 :=
  if num = 0 then ⟨0, 0⟩
  else
    let guess : Int := Nat.log2 num - Nat.log2 den - 52
    let (a, b) := scale num den guess
    let exponent := if a / b < twoTo 52 then guess - 1 else guess
    let (a, b) := scale num den exponent
    let significand := roundDiv a b
    if significand = twoTo 53 then ⟨twoTo 52, exponent + 1⟩ else ⟨significand, exponent⟩

def ofNat (n : Nat) : Binary64 :=
  ofFraction n 1

/-- The double nearest to the product of two doubles. -/
def mul (x y : Binary64) : Binary64 :=
  if x.significand = 0 ∨ y.significand = 0 then ⟨0, 0⟩
  else
    let product := ofNat (x.significand * y.significand)
    ⟨product.significand, product.exponent + x.exponent + y.exponent⟩

/-- Whether a number is not too large for a double. -/
def isFinite (x : Binary64) : Bool :=
  x.significand = 0 || x.exponent ≤ 971

def bits (x : Binary64) : Nat :=
  if x.significand = 0 then 0
  else (x.exponent + 1075).toNat * twoTo 52 + (x.significand - twoTo 52)

/-- The tenths nearest to a double. -/
def tenths (x : Binary64) : Nat :=
  if 0 ≤ x.exponent then 10 * x.significand * twoTo x.exponent.toNat
  else roundDiv (10 * x.significand) (twoTo (-x.exponent).toNat)

/-- A double to one decimal place. -/
def toDecimal (x : Binary64) : String :=
  s!"{x.tenths / 10}.{x.tenths % 10}"

end Binary64

end MessageCatalog.Number
