/-!
# Plural categories

Languages tell apart up to six kinds of counts. Their names say little about which counts they hold:
`one` holds 21 in Russian, and `zero` holds 10 in Latvian.
-/

namespace MessageCatalog.Plural

/-- A kind of counts that a language may treat alike. -/
inductive Category
  | zero
  | one
  | two
  | few
  | many
  | other
  deriving DecidableEq, Repr, Inhabited

namespace Category

/-- All categories, in the order in which a catalog lists the forms for them. -/
def all : List Category := [zero, one, two, few, many, other]

def rank : Category → Nat
  | zero => 0
  | one => 1
  | two => 2
  | few => 3
  | many => 4
  | other => 5

def name : Category → String
  | zero => "zero"
  | one => "one"
  | two => "two"
  | few => "few"
  | many => "many"
  | other => "other"

end Category

end MessageCatalog.Plural
