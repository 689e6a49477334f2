import MessageCatalog.Index
import MessageCatalog.Text.Numeral

/-!
# Command-line arguments

The words of a command line are switches, options with a value, and operands. A switch or option
has a long name after two hyphens, and may have a short one after one hyphen. Short switches may be
written together, and the last of them may be an option. The value of an option is the rest of its
word, after an equals sign for a long option, or else the next word, unless that begins with a
hyphen itself. A single hyphen is an operand, and so is every word after two hyphens alone.

A `Grammar` says which switches and options there are, and which operands. Words are taken one by
one, from left to right, and the first that does not fit ends the reading.
-/

namespace MessageCatalog.Command

/-- What a value or an operand may be. -/
inductive Kind
  | text
  /-- The name of a file, which is never empty. -/
  | path
  /-- An unsigned numeral of 64 bits. -/
  | count
  deriving DecidableEq, Repr

def Kind.accepts (word : String) : Kind → Bool
  | text => true
  | path => word ≠ ""
  | count => (Text.unsigned? 10 Text.maxWord64 word.toList).isSome

/-- How often a switch or option may be given, and whether it takes a value. -/
inductive Arity
  /-- A switch that may be given once. -/
  | once
  /-- A switch that may be repeated. -/
  | repeated
  /-- An option with a value, given at most once. -/
  | valued (kind : Kind)
  /-- A switch that ends the reading of the command line. -/
  | final
  deriving DecidableEq, Repr

/-- Whether a word may be the value of an option. -/
def Arity.accepts (word : String) : Arity → Bool
  | valued kind => kind.accepts word
  | _ => false

/-- Whether there is a value to give. -/
def Arity.isValued : Arity → Bool
  | valued _ => true
  | _ => false

/-- A switch or option. -/
structure Flag where
  name : String
  short : Option Char := none
  arity : Arity
  deriving DecidableEq, Repr

/-- What a command line may consist of. -/
structure Grammar where
  flags : List Flag
  /-- The kind of the operand after so many others, if there may be one. -/
  operand? : Nat → Option Kind
  /-- The least number of operands. -/
  least : Nat

/-- What a command line consists of. -/
structure Words where
  /-- The names of the switches given, one for each time. -/
  switches : List String := []
  /-- The values of the options given. -/
  values : Index String := []
  operands : List String := []
  deriving DecidableEq, Repr, Inhabited

/-- Why the words of a command line are not all taken. -/
inductive Stop
  /-- The command line is not well formed. -/
  | misuse
  /-- A final switch of this name was given. -/
  | final (name : String)
  deriving DecidableEq, Repr

/-- The words with a switch given once more. -/
def Words.give (w : Words) (flag : Flag) : Except Stop Words :=
  match flag.arity with
  | .once =>
    if flag.name ∈ w.switches then .error .misuse
    else .ok { w with switches := w.switches ++ [flag.name] }
  | .repeated => .ok { w with switches := w.switches ++ [flag.name] }
  | .valued _ => .error .misuse
  | .final => .error (.final flag.name)

def Words.giveValue (w : Words) (flag : Flag) (value : String) : Except Stop Words :=
  if flag.arity.accepts value ∧ w.values.get? flag.name = none then
    .ok { w with values := w.values ++ [(flag.name, value)] }
  else .error .misuse

def Grammar.giveOperand (g : Grammar) (w : Words) (word : String) : Except Stop Words :=
  if (g.operand? w.operands.length).any (·.accepts word) then
    .ok { w with operands := w.operands ++ [word] }
  else .error .misuse

/-- The words after one more word, and the option that still waits for its value. -/
abbrev Taken := Words × Option Flag

/-- Takes a word that begins with two hyphens, which are left out. -/
def Grammar.takeLong (g : Grammar) (w : Words) (word : List Char) : Except Stop Taken :=
  let name := String.ofList (word.takeWhile (· ≠ '='))
  match g.flags.find? (·.name = name), word.dropWhile (· ≠ '=') with
  | none, _ => .error .misuse
  | some flag, _ :: value => (w.giveValue flag (String.ofList value)).map fun w ↦ (w, none)
  | some flag, [] =>
    if flag.arity.isValued then .ok (w, some flag) else (w.give flag).map fun w ↦ (w, none)

/-- Takes a word that begins with one hyphen, which is left out. -/
def Grammar.takeShort (g : Grammar) (w : Words) : List Char → Except Stop Taken
  | [] => .ok (w, none)
  | c :: rest =>
    match g.flags.find? (·.short = some c) with
    | none => .error .misuse
    | some flag =>
      if flag.arity.isValued then
        match rest with
        | [] => .ok (w, some flag)
        | '=' :: value | value =>
          (w.giveValue flag (String.ofList value)).map fun w ↦ (w, none)
      else (w.give flag).bind fun w ↦ g.takeShort w rest

/-- Takes words, `waiting` being the option whose value is the next word. With `single`, the first
operand ends the reading; the words from there on are given back. -/
def Grammar.take (g : Grammar) (single : Bool) :
    Words → (waiting : Option Flag) → List String → Except Stop (Words × List String)
  | w, none, [] => .ok (w, [])
  | _, some _, [] => .error .misuse
  | w, waiting, word :: rest =>
    match word.toList, waiting with
    | ['-', '-'], none =>
      if single then .error .misuse else (rest.foldlM g.giveOperand w).map fun w ↦ (w, [])
    | ['-', '-'], some _ => .error .misuse
    | '-' :: _ :: _, some _ => .error .misuse
    | '-' :: '-' :: long, none =>
      (g.takeLong w long).bind fun (w, waiting) ↦ g.take single w waiting rest
    | '-' :: c :: short, none =>
      (g.takeShort w (c :: short)).bind fun (w, waiting) ↦ g.take single w waiting rest
    | _, some flag => (w.giveValue flag word).bind fun w ↦ g.take single w none rest
    | _, none =>
      if single then .ok (w, word :: rest)
      else (g.giveOperand w word).bind fun w ↦ g.take single w none rest

/-- Takes a whole command line. -/
def Grammar.parse (g : Grammar) (words : List String) : Except Stop Words := do
  let (w, _) ← g.take false {} none words
  if g.least ≤ w.operands.length then pure w else throw .misuse

end MessageCatalog.Command
