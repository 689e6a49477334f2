import MessageCatalog.Plural.Category

/-!
# Plural rules

The plural rules of a language are data: for each category but `other`, a condition on the operands
of a number. A condition is a disjunction of conjunctions of relations such as `n % 10 = 2..4`. The
category of a number is the first one, in the order of `Category.all`, whose condition holds, and
`other` if none does.

Rules speak about decimal numbers, whose visible fraction counts too. Here the numbers are whole
counts without a fraction, so `n` and `i` are the count and the operands of the fraction and of
the exponent are zero.
-/

namespace MessageCatalog.Plural

/-- What a rule may ask about a number. -/
inductive Operand
  /-- The absolute value. -/
  | n
  /-- The integer digits. -/
  | i
  /-- The number of visible fraction digits. -/
  | v
  /-- The visible fraction digits. -/
  | f
  /-- The visible fraction digits without trailing zeros. -/
  | t
  /-- The exponent of ten in compact notation. -/
  | e
  deriving DecidableEq, Repr

/-- The value of an operand of a whole count. -/
def Operand.value (count : Nat) : Operand → Nat
  | .n | .i => count
  | .v | .f | .t | .e => 0

/-- A relation between an operand and ranges of numbers. -/
structure Relation where
  operand : Operand
  /-- Take the operand modulo this number, unless it is zero. -/
  modulus : Nat
  /-- Whether the number has to lie in one of the ranges, or in none. -/
  inside : Bool
  /-- Ranges of numbers, both ends included. -/
  ranges : List (Nat × Nat)
  deriving DecidableEq, Repr

namespace Operand

/-- The operand lies in one of the ranges. -/
def is (o : Operand) (ranges : List (Nat × Nat)) : Relation := ⟨o, 0, true, ranges⟩

/-- The operand lies in none of the ranges. -/
def isNot (o : Operand) (ranges : List (Nat × Nat)) : Relation := ⟨o, 0, false, ranges⟩

/-- The operand modulo `m` lies in one of the ranges. -/
def modIs (o : Operand) (m : Nat) (ranges : List (Nat × Nat)) : Relation := ⟨o, m, true, ranges⟩

/-- The operand modulo `m` lies in none of the ranges. -/
def modIsNot (o : Operand) (m : Nat) (ranges : List (Nat × Nat)) : Relation :=
  ⟨o, m, false, ranges⟩

end Operand

def Relation.holds (r : Relation) (count : Nat) : Bool :=
  let x := r.operand.value count % r.modulus
  (r.ranges.any fun (a, b) ↦ a ≤ x && x ≤ b) == r.inside

/-- A disjunction of conjunctions of relations. -/
abbrev Condition := List (List Relation)

def Condition.holds (c : Condition) (count : Nat) : Bool :=
  c.any fun relations ↦ relations.all fun r ↦ r.holds count

/-- The plural rules of a language: the categories other than `other`, in order, each with its
condition. -/
abbrev Rules := List (Category × Condition)

/-- The category of a count. -/
def Rules.category (rules : Rules) (count : Nat) : Category :=
  match rules.find? fun rule ↦ Condition.holds rule.2 count with
  | some rule => rule.1
  | none => .other

/-- The categories of a language, those that only fractions reach included. -/
def Rules.categories (rules : Rules) : List Category :=
  rules.map (·.1) ++ [.other]

end MessageCatalog.Plural
