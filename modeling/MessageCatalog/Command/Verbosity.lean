import MessageCatalog.Notice
import MessageCatalog.Text.Numeral

/-!
# Verbosity

How many of the notices that an operation leaves are shown.
-/

namespace MessageCatalog.Command

/-- How much to show. -/
inductive Verbosity
  /-- Errors only. -/
  | silent
  /-- Also what is suspicious. -/
  | normal
  /-- Everything. -/
  | verbose
  deriving DecidableEq, Repr

namespace Verbosity

/-- The verbosity that switches ask for; being quiet takes precedence. -/
def ofSwitches (quiet : Bool) (verbose : Nat) : Verbosity :=
  if quiet then silent else if verbose = 0 then normal else .verbose

def rank : Verbosity → Nat
  | silent => 0
  | normal => 1
  | verbose => 2

def name : Verbosity → String
  | silent => "Silent"
  | normal => "Normal"
  | verbose => "Verbose"

/-- The least serious notices that are shown. -/
def level : Verbosity → Level
  | silent => .error
  | normal => .warn
  | verbose => .debug

/-- The word for these notices in an environment variable. -/
def word : Verbosity → String
  | silent => "error"
  | normal => "warn"
  | verbose => "debug"

end Verbosity

/-- The rank of the least serious level that a word names, or that a number from 0 to 5 stands for.
An empty word names errors; no notice has rank zero, nor one above four. -/
def rankOfWord? (word : String) : Option Nat :=
  match word.toLower with
  | "off" => some 0
  | "" | "error" => some 1
  | "warn" => some 2
  | "info" => some 3
  | "debug" => some 4
  | "trace" => some 5
  | word => (Text.natural? 10 word.toList).filter (· ≤ 5)

/-- The variable that says which notices to show, whatever the switches say. -/
def levelVariable : String := "RUST_LOG"

/-- The notices to show. -/
def shown (levelWord : Option String) (verbosity : Verbosity) (notices : List Notice) :
    List Notice :=
  let rank := (levelWord.bind rankOfWord?).getD verbosity.level.rank
  notices.filter fun n ↦ n.level.rank ≤ rank

end MessageCatalog.Command
