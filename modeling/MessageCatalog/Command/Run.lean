import MessageCatalog.Command.Report
import MessageCatalog.Command.Verbosity
import MessageCatalog.Text.Terminal

/-!
# Runs of the command

A run shows what its task reports and ends with a code: 0 if all is well, 1 if something is wrong
or cannot be done, and 2 if the command line is not well formed. Notices and the reason for giving
up go to a stream of their own. Notices are shown as text for a terminal, the reason for giving up
as it is.

On a tree of files a whole run is a function; elsewhere, whoever runs the command does the reading
and the saving that an `Outcome` asks for.
-/

namespace MessageCatalog.Command

open Storage

/-- What a run shows, and the code that it ends with. -/
structure Run where
  code : Nat
  stdout : String := ""
  stderr : String := ""
  deriving DecidableEq, Repr

def versionText : String := "tscat 0.1.0\n"

/-- The lines that say how the command is used. -/
def usageLines : List String := [
  "Usage: tscat [-v...] [-q] SUBCOMMAND",
  "",
  "Subcommands:",
  "  lookup FILE CONTEXT SOURCE [-c COMMENT] [-n COUNT] [--include-unfinished]",
  "  resolve CONTEXT SOURCE [-c COMMENT] [-n COUNT] [-d DIR] [-p PREFIX] [-l LANG]",
  "          [--include-unfinished]",
  "  validate FILES... [--json]",
  "  stats FILES... [--per-context] [--json]",
  "  format FILE [-o OUTPUT]",
  "  dump FILE"]

def usage : String :=
  String.join (usageLines.map (· ++ "\n"))

/-- The code that a verdict ends a run with. -/
def codeOf : Except Fault Bool → Nat
  | .ok true => 0
  | .ok false | .error _ => 1

def noticeText (n : Notice) : String :=
  Text.terminalText n.line ++ "\n"

/-- The line about giving up. -/
def failureText : Except Fault Bool → String
  | .ok _ => ""
  | .error fault => s!"tscat: {fault.message}\n"

/-- The run of a task that leaves a report. -/
def Report.run (levelWord : Option String) (verbosity : Verbosity) (r : Report) : Run where
  code := codeOf r.verdict
  stdout := r.shown
  stderr :=
    String.join ((Command.shown levelWord verbosity r.notices).map noticeText)
      ++ failureText r.verdict

/-- The run for a request without a task, or for a command line that is not well formed. -/
def Run.ofRequest? : Option Request → Run
  | none => { code := 2, stderr := usage }
  | some .version => { code := 0, stdout := versionText }
  | some _ => { code := 0, stdout := usage }

/-- The report of an outcome on a tree of files, and the tree afterwards. -/
def Outcome.onTree (tree : FileTree) : Outcome String → Report × FileTree
  | .done report => (report, tree)
  | .save path content report =>
    match tree.writeText path content with
    | .ok tree => (report (.ok ()), tree)
    | .error cause => (report (.error cause), tree)

/-- Runs a command line on a tree of files. -/
def run (env : Locale.Environment) (tree : FileTree) (words : List String) : Run × FileTree :=
  match Request.parse? words with
  | some (.run quiet verbose task) =>
    let (report, tree) := (task.outcome (.texts tree.readText) env).onTree tree
    (report.run (env levelVariable) (.ofSwitches quiet verbose), tree)
  | request => (.ofRequest? request, tree)

end MessageCatalog.Command
