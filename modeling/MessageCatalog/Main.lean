import MessageCatalog.Command.Run

/-!
# The command `tscat`

Reads the files that a task may need, runs the task, and saves the file that it asks for.
-/

namespace MessageCatalog.Command

open Storage

/-- The codes of the system, of either sign, for a name that is too long. -/
def nameTooLongCodes : List UInt32 := [36, 0 - 36]

/-- Why the system could not read or write a file. -/
def causeOf : IO.Error → Cause
  | .noFileOrDirectory _ _ _ => .notFound
  | .inappropriateType _ 21 _ => .isADirectory
  | .inappropriateType _ _ _ => .notADirectory
  | .invalidArgument file code details =>
    if code ∈ nameTooLongCodes then .nameTooLong
    else .other (toString (IO.Error.invalidArgument file code details))
  | e => .other (toString e)

/-- What an attempt came to. -/
def attempt {α : Type} (action : IO α) : IO (Except Cause α) := do
  match ← action.toBaseIO with
  | .ok a => pure (.ok a)
  | .error e => pure (.error (causeOf e))

def readText (path : String) : IO (Except Cause String) := do
  match ← attempt (IO.FS.readBinFile path) with
  | .error cause => pure (.error cause)
  | .ok content =>
    match String.fromUTF8? content with
    | some text => pure (.ok text)
    | none => pure (.error .notText)

/-- Reads files, of which a task then knows nothing but these. -/
def readFiles (paths : List String) : IO TextSource := do
  let contents ← paths.mapM fun path ↦ do return (path, ← readText path)
  pure fun path ↦ (Index.get? contents path).getD (.error .notFound)

/-- The values of the environment variables that matter. -/
def readEnvironment : IO Locale.Environment := do
  let names := levelVariable :: Locale.storedVariable :: Locale.systemVariables
  let values ← names.mapM fun name ↦ do return (name, ← IO.getEnv name)
  pure fun name ↦ (Index.get? values name).join

/-- Does what an outcome asks for. -/
def conclude : Outcome String → IO Report
  | .done report => pure report
  | .save path content report => do
    return report (← attempt (IO.FS.writeFile path content))

/-- Runs a command line on the system's files. -/
def runOnSystem (words : List String) : IO Run := do
  let env ← readEnvironment
  match Request.parse? words with
  | some (.run quiet verbose task) => do
    let read ← readFiles (task.files env)
    let report ← conclude (task.outcome (.texts read) env)
    pure (report.run (env levelVariable) (.ofSwitches quiet verbose))
  | request => pure (.ofRequest? request)

end MessageCatalog.Command

/-- Runs the command. -/
def main (words : List String) : IO UInt32 := do
  let r ← MessageCatalog.Command.runOnSystem words
  IO.eprint r.stderr
  IO.print r.stdout
  pure r.code.toUInt32
