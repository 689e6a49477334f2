/-!
# Notices

Reading, looking up and loading leave remarks about what they skip, ignore or fall back on. They are
returned beside the result, in the order in which they arise; whoever runs the operation decides
which levels to show.
-/

namespace MessageCatalog

/-- How serious a notice is. -/
inductive Level
  | error
  | warn
  | info
  | debug
  deriving DecidableEq, Repr

/-- The level's place in the order from the most to the least serious. -/
def Level.rank : Level → Nat
  | .error => 1
  | .warn => 2
  | .info => 3
  | .debug => 4

/-- The level's name in front of a shown notice. -/
def Level.name : Level → String
  | .error => "ERROR"
  | .warn => "WARN"
  | .info => "INFO"
  | .debug => "DEBUG"

/-- A remark that an operation makes. -/
structure Notice where
  level : Level
  text : String
  deriving DecidableEq, Repr

/-- A notice for those who follow every step. -/
def Notice.debug (text : String) : Notice := ⟨.debug, text⟩

def Notice.info (text : String) : Notice := ⟨.info, text⟩

def Notice.warn (text : String) : Notice := ⟨.warn, text⟩

def Notice.line (n : Notice) : String :=
  s!"{n.level.name} {n.text}"

end MessageCatalog
