import MessageCatalog.Command.Grammar
import MessageCatalog.Lookup.Table
import MessageCatalog.Text.Numeral

/-!
# Requests

What the command `tscat` can be asked to do, and how its command line says so. Switches for the
amount of diagnostics may stand before and after the name of the subcommand.
-/

namespace MessageCatalog.Command

open Lookup

/-- A task of the command, on files at paths of some kind. -/
inductive Task (Path : Type)
  /-- Translate a text with the catalog in a file. -/
  | lookup (file : Path) (query : Query) (includeUnfinished : Bool)
  /-- Translate a text with the catalogs that a locale uses. -/
  | resolve (dir program : String) (locale : Option String) (query : Query)
    (includeUnfinished : Bool)
  /-- Check the catalogs in files. -/
  | validate (files : List Path) (json : Bool)
  /-- Show the progress of the catalogs in files. -/
  | stats (files : List Path) (perContext json : Bool)
  /-- Write the catalog in a file in its canonical layout. -/
  | format (file : Path) (output : Option Path)
  /-- Show the catalog in a file as JSON. -/
  | dump (file : Path)
  deriving DecidableEq, Repr

/-- What a command line asks for. -/
inductive Request
  | run (quiet : Bool) (verbose : Nat) (task : Task String)
  | version
  | help
  deriving DecidableEq, Repr

/-! ## Grammars -/

def commonFlags : List Flag := [
  ⟨"verbose", some 'v', .repeated⟩,
  ⟨"quiet", some 'q', .once⟩,
  ⟨"help", some 'h', .final⟩]

def lookupFlags : List Flag := [
  ⟨"comment", some 'c', .valued .text⟩,
  ⟨"count", some 'n', .valued .count⟩,
  ⟨"include-unfinished", none, .once⟩]

/-- The options that say where the catalogs of a locale are. -/
def layerFlags : List Flag := [
  ⟨"dir", some 'd', .valued .path⟩,
  ⟨"prefix", some 'p', .valued .text⟩,
  ⟨"lang", some 'l', .valued .text⟩]

/-- The command line before the name of the subcommand. -/
def mainGrammar : Grammar where
  flags := commonFlags ++ [⟨"version", some 'V', .final⟩]
  operand? := fun _ ↦ none
  least := 0

/-- The command line after the name of a subcommand with these operands. -/
def grammarOf (operands : List Kind) (flags : List Flag) : Grammar where
  flags := commonFlags ++ flags
  operand? := fun i ↦ operands[i]?
  least := operands.length

/-- The command line after the name of a subcommand for one or more files. -/
def grammarOfFiles (flags : List Flag) : Grammar where
  flags := commonFlags ++ flags
  operand? := fun _ ↦ some .path
  least := 1

def grammars : Index Grammar := [
  ("lookup", grammarOf [.path, .text, .text] lookupFlags),
  ("resolve", grammarOf [.text, .text] (lookupFlags ++ layerFlags)),
  ("validate", grammarOfFiles [⟨"json", none, .once⟩]),
  ("stats", grammarOfFiles [⟨"per-context", none, .once⟩, ⟨"json", none, .once⟩]),
  ("format", grammarOf [.path] [⟨"output", some 'o', .valued .path⟩]),
  ("dump", grammarOf [.path] [])]

/-! ## Reading requests -/

namespace Words

def isOn (w : Words) (name : String) : Bool :=
  name ∈ w.switches

/-- The lookup of a source text in a context. -/
def query (w : Words) (context source : String) : Query where
  context
  source
  comment := (w.values.get? "comment").getD ""
  count := (w.values.get? "count").bind fun n ↦ Text.unsigned? 10 Text.maxWord64 n.toList

/-- The task that the words after the name of a subcommand describe. -/
def task? (w : Words) (subcommand : String) : Option (Task String) :=
  let includeUnfinished := w.isOn "include-unfinished"
  match subcommand, w.operands with
  | "lookup", [file, context, source] =>
    some (.lookup file (w.query context source) includeUnfinished)
  | "resolve", [context, source] =>
    let dir := (w.values.get? "dir").getD "."
    let program := (w.values.get? "prefix").getD "bitcoin"
    some (.resolve dir program (w.values.get? "lang") (w.query context source) includeUnfinished)
  | "validate", files => some (.validate files (w.isOn "json"))
  | "stats", files => some (.stats files (w.isOn "per-context") (w.isOn "json"))
  | "format", [file] => some (.format file (w.values.get? "output"))
  | "dump", [file] => some (.dump file)
  | _, _ => none

end Words

/-- What the command line of a request for help comes to: it may name one subcommand. -/
def helpStop : List String → Stop
  | [] => .final "help"
  | [subcommand] =>
    if subcommand = "help" ∨ (grammars.get? subcommand).isSome then .final "help" else .misuse
  | _ => .misuse

/-- The request of a command line, unless it is not well formed or asks for something else. -/
def requestOf (words : List String) : Except Stop Request := do
  let (w, rest) ← mainGrammar.take true {} none words
  match rest with
  | [] => throw .misuse
  | "help" :: rest => throw (helpStop rest)
  | subcommand :: rest =>
    match grammars.get? subcommand with
    | none => throw .misuse
    | some g =>
      let inner ← g.parse rest
      let switches := w.switches ++ inner.switches
      match inner.task? subcommand with
      | some task => return .run ("quiet" ∈ switches) (switches.count "verbose") task
      | none => throw .misuse

/-- The request of a command line; none if it is not well formed. -/
def Request.parse? (words : List String) : Option Request :=
  match requestOf words with
  | .ok request => some request
  | .error (.final "version") => some .version
  | .error (.final _) => some .help
  | .error .misuse => none

end MessageCatalog.Command
