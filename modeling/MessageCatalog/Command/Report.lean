import MessageCatalog.Catalog.Json
import MessageCatalog.Command.Request
import MessageCatalog.Integrity.Check
import MessageCatalog.Lookup.Layers
import MessageCatalog.Progress.Summary
import MessageCatalog.Storage.Source

/-!
# Reports

What a task of the command comes to. A task sees files through a `Source` and its environment
through the values of variables; the one thing that it may change is a single file, which it asks to
be saved.

A task over several files stops at the first that cannot be loaded. As text, what was found in the
files before it is still shown; as JSON, nothing is.
-/

namespace MessageCatalog.Command

open Lookup Storage

variable {Path : Type}

/-- What a task that has ended leaves. -/
structure Report where
  /-- The text to show. -/
  shown : String := ""
  notices : List Notice := []
  /-- Why the task was given up, or else whether all is well. -/
  verdict : Except Fault Bool := .ok true

/-- What a task comes to. -/
inductive Outcome (Path : Type)
  /-- There is nothing left to do. -/
  | done (report : Report)
  /-- A file is to be saved; the report depends on whether it can be. -/
  | save (path : Path) (content : String) (report : Except Cause Unit → Report)

/-- The report of an operation that ends with a text to show. -/
def Report.ofNoted (x : Noted String) : Report where
  shown := x.outcome.toOption.getD ""
  notices := x.notices
  verdict := x.outcome.map fun _ ↦ true

/-! ## Lookups -/

/-- Looks up a text in the catalog in a file. -/
def lookUp (source : Source Path) (file : Path) (query : Query) (includeUnfinished : Bool) :
    Noted String := do
  let catalog ← source.load file
  Noted.leave (Table.notices catalog includeUnfinished)
  let table := Table.ofCatalog catalog includeUnfinished
  Noted.leave (table.fallbackNotices query)
  pure (table.translate query)

/-- Looks up a text in the catalogs of a directory that a locale uses. -/
def resolve (read : TextSource) (dir program locale : String) (query : Query)
    (includeUnfinished : Bool) : Noted String := do
  Noted.leave [.info s!"Using locale {locale}"]
  let layers ← Layers.load read dir program locale includeUnfinished
  pure (layers.translate query)

/-! ## Several files -/

/-- The catalogs in files, up to the first that cannot be loaded, under the names that are shown of
the files, and what loading them comes to. -/
def loadFiles (source : Source Path) : (files : List Path) → Index Catalog × Noted Unit
  | [] => ([], pure ())
  | file :: rest =>
    let loaded := source.load file
    match loaded.outcome with
    | .error fault => ([], ⟨.error fault, loaded.notices⟩)
    | .ok catalog =>
      let (catalogs, others) := loadFiles source rest
      let notices := loaded.notices ++ others.notices
      ((source.display file, catalog) :: catalogs, ⟨others.outcome, notices⟩)

/-- The report on something that is found in each file: as text, or as JSON under the files' names.
-/
def reportEach {α : Type} (found : Index α) (loaded : Noted Unit) (json : Bool)
    (toText : String → α → String) (toJson : α → Json.Value) (isWell : α → Bool) : Report where
  shown :=
    if json then
      match loaded.outcome with
      | .ok _ =>
        let members := found.map fun (file, a) ↦ (file, toJson a)
        (Json.Value.object members).sorted.pretty ++ "\n"
      | .error _ => ""
    else String.join (found.map fun (file, a) ↦ toText file a)
  notices := loaded.notices
  verdict := loaded.outcome.map fun _ ↦ found.all fun (_, a) ↦ isWell a

/-- Checks the catalogs in files. All is well if no issue is an error. -/
def validate (source : Source Path) (files : List Path) (json : Bool) : Report :=
  let (catalogs, loaded) := loadFiles source files
  reportEach (catalogs.map fun (file, c) ↦ (file, Integrity.issues c)) loaded json
    Integrity.report Integrity.reportJson fun issues ↦ !Integrity.hasErrors issues

/-- Shows the progress of the catalogs in files. -/
def stats (source : Source Path) (files : List Path) (perContext json : Bool) : Report :=
  let (catalogs, loaded) := loadFiles source files
  reportEach (catalogs.map fun (file, c) ↦ (file, Progress.Statistics.ofCatalog c)) loaded json
    (fun file s ↦ s.summary file perContext) Progress.Statistics.toJson fun _ ↦ true

/-! ## Tasks -/

/-- The report on a catalog's document after the attempt to save it. -/
def savedReport (path : String) (notices : List Notice) : Except Cause Unit → Report
  | .ok () => { notices := notices ++ [.info s!"Wrote {path}"] }
  | .error cause => { notices, verdict := .error (.io path cause) }

/-- What the canonical layout of a catalog that was loaded comes to. -/
def formatOutcome (source : Source Path) (loaded : Noted Catalog) :
    (output : Option Path) → Outcome Path
  | none => .done (.ofNoted ⟨loaded.outcome.map Catalog.write, loaded.notices⟩)
  | some path =>
    match loaded.outcome with
    | .error fault => .done { notices := loaded.notices, verdict := .error fault }
    | .ok catalog => .save path catalog.write (savedReport (source.display path) loaded.notices)

namespace Task

/-- The locale that a task uses. -/
def locale (env : Locale.Environment) (chosen : Option String) : String :=
  (Locale.Preference.ofEnvironment chosen env).resolve

/-- The files that a task may read. -/
def files (env : Locale.Environment) : Task String → List String
  | .lookup file _ _ | .format file _ | .dump file => [file]
  | .resolve dir program chosen _ _ => Layers.paths dir program (locale env chosen)
  | .validate files _ | .stats files _ _ => files

/-- What a task comes to. -/
def outcome (source : Source Path) (env : Locale.Environment) : Task Path → Outcome Path
  | .lookup file query includeUnfinished =>
    .done (.ofNoted (do return (← lookUp source file query includeUnfinished) ++ "\n"))
  | .resolve dir program chosen query includeUnfinished =>
    let locale := locale env chosen
    let resolved := Command.resolve source.textSource dir program locale query includeUnfinished
    .done (.ofNoted (do return (← resolved) ++ "\n"))
  | .validate files json => .done (Command.validate source files json)
  | .stats files perContext json => .done (Command.stats source files perContext json)
  | .format file output => formatOutcome source (source.load file) output
  | .dump file => .done (.ofNoted (do return (← source.load file).dump ++ "\n"))

end Task

end MessageCatalog.Command
