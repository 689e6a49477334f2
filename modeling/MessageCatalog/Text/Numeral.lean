/-!
# Numerals

A numeral is one or more digits of a radix, with nothing around them; a sign may stand in front
where the reader of it allows one, and the value has to lie in the range that it states. There is
no other notation: no blanks, no grouping, no prefix.
-/

namespace MessageCatalog.Text

/-- The value of an ASCII digit of the given radix (at most 16), in either case. -/
def digit? (radix : Nat) (c : Char) : Option Nat :=
  let value :=
    if '0' ≤ c ∧ c ≤ '9' then some (c.toNat - '0'.toNat)
    else if 'a' ≤ c ∧ c ≤ 'f' then some (c.toNat - 'a'.toNat + 10)
    else if 'A' ≤ c ∧ c ≤ 'F' then some (c.toNat - 'A'.toNat + 10)
    else none
  value.filter (· < radix)

/-- The value of one or more digits. -/
def natural? (radix : Nat) : List Char → Option Nat
  | [] => none
  | cs => cs.foldlM (fun n c ↦ (digit? radix c).map (radix * n + ·)) 0

/-- An unsigned numeral of at most `bound`; one plus sign may precede the digits. -/
def unsigned? (radix bound : Nat) : List Char → Option Nat
  | '+' :: cs => (natural? radix cs).filter (· ≤ bound)
  | cs => (natural? radix cs).filter (· ≤ bound)

/-- A signed decimal numeral from `-(bound + 1)` to `bound`; one sign may precede the digits. -/
def signed? (bound : Nat) : List Char → Option Int
  | '-' :: cs => ((natural? 10 cs).filter (· ≤ bound + 1)).map fun n ↦ -(n : Int)
  | cs => (unsigned? 10 bound cs).map fun n ↦ (n : Int)

def maxWord32 : Nat := 0xFFFFFFFF

def maxWord64 : Nat := 0xFFFFFFFFFFFFFFFF

def maxInt32 : Nat := 0x7FFFFFFF

/-- A number in lower-case hexadecimal digits, without leading zeros. -/
def hexDigits (n : Nat) : List Char :=
  Nat.toDigits 16 n

end MessageCatalog.Text
