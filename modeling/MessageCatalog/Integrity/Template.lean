import MessageCatalog.Integrity.Placeholder

/-!
# Texts with placeholders

A text as its author sees it: literal pieces, and a placeholder between each two of them. No piece
has a percent sign, and none that follows a placeholder begins with a digit, so that it is beyond
doubt where each placeholder begins and where its number ends.
-/

namespace MessageCatalog.Integrity

/-- What a placeholder refers to: an argument by its number, or the count. -/
inductive Argument
  | number (n : Nat) (pos : 0 < n) (le_max : n ≤ 99)
  | count
  deriving DecidableEq, Repr

/-- A reference to an argument as it is written in a placeholder. -/
def Argument.text : Argument → String
  | number n _ _ => String.ofList (Nat.toDigits 10 n)
  | count => "n"

/-- A placeholder. -/
structure Placeholder where
  argument : Argument
  /-- Whether a number is shown as is usual in the language. -/
  isLocalised : Bool := false
  deriving DecidableEq, Repr

def Placeholder.text (p : Placeholder) : String :=
  (if p.isLocalised then "%L" else "%") ++ p.argument.text

/-- A placeholder and the text between it and the next one. -/
structure Segment where
  placeholder : Placeholder
  literal : String
  no_percent : '%' ∉ literal.toList
  no_digit : literal.toList.head?.any (·.isDigit) = false

def Segment.text (s : Segment) : String :=
  s.placeholder.text ++ s.literal

/-- Literal pieces of text with placeholders between them. -/
structure Template where
  opening : String
  segments : List Segment
  no_percent : '%' ∉ opening.toList

namespace Template

/-- The text that a template stands for. -/
def text (t : Template) : String :=
  t.opening ++ String.join (t.segments.map Segment.text)

/-- The arguments that a template refers to, in order, repetitions kept. -/
def arguments (t : Template) : List Argument :=
  t.segments.map (·.placeholder.argument)

/-- The arguments that a translation has to refer to as well, as they are written: the count is
left out where a message depends on it. -/
def required (t : Template) (numerus : Bool) : List String :=
  (t.arguments.filter fun a ↦ !(numerus && a = .count)).map Argument.text

end Template

end MessageCatalog.Integrity
