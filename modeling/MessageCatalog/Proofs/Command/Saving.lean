import MessageCatalog.Command.Run
import MessageCatalog.Proofs.Catalog.RoundTrip
import MessageCatalog.Proofs.Storage.Loading

/-!
# What a run saves

The only task that changes a file is to write the canonical layout of a catalog to a path. Either
all of it is done, or the tree of files stays as it was and the run ends with 1: a catalog is loaded
before anything is written, also if it is to be written where it came from. That a write itself is
done wholly or not at all is an assumption on trees of files (`Entry.writeText`), not a result.

The text that is saved is the one that would be shown without a path to save it to. Where it is
saved over the catalog itself, a second run has nothing to do: the text is read as the same catalog,
or is not read at all.
-/

namespace MessageCatalog.Command

open Storage

variable {env : Locale.Environment} {tree : FileTree} {words : List String}
variable {quiet : Bool} {verbose : Nat} {task : Task String} {file out : String} {c : Catalog}

/-! ## Loaded catalogs -/

/-- The text at a path of a tree is a document of a catalog. -/
def Holds (tree : FileTree) (path : String) (c : Catalog) : Prop :=
  (Source.texts tree.readText).Holds path c

theorem outcome_load_eq_ok_iff {path : String} :
    ((Source.texts tree.readText).load path).outcome = .ok c ↔ Holds tree path c :=
  Source.load_eq_ok_iff

/-- What is saved of a catalog that has been read is read as the same catalog, if at all. -/
theorem eq_of_parse_write {document : String} {d : Catalog}
    (hc : Catalog.parse document = .ok c) (hd : Catalog.parse c.write = .ok d) : d = c := by
  by_cases hnull : ∃ text ∈ c.texts, '\x00' ∈ text.toList
  · obtain ⟨position, fault, herror⟩ := parse_write_error hnull
    rw [herror] at hd
    cases hd
  · rw [parse_write_of_storable hnull, normal_of_parse hc] at hd
    exact (Except.ok.inj hd).symm

/-! ## Single runs -/

theorem run_eq (h : Request.parse? words = some (.run quiet verbose task)) :
    run env tree words
      = (((task.outcome (.texts tree.readText) env).onTree tree).1.run (env levelVariable)
          (.ofSwitches quiet verbose),
        ((task.outcome (.texts tree.readText) env).onTree tree).2) := by
  rw [run, h]

@[simp] theorem onTree_done (tree : FileTree) (report : Report) :
    (Outcome.done report).onTree tree = (report, tree) := rfl

theorem stdout_run_format
    (h : Request.parse? words = some (.run quiet verbose (.format file none)))
    (hfile : Holds tree file c) : (run env tree words).1.stdout = c.write := by
  rw [run_eq h, Task.outcome, formatOutcome, onTree_done, outcome_load_eq_ok_iff.mpr hfile]
  rfl

/-- A run that is to save a catalog either changes nothing and ends with 1, or has a catalog and a
place for it and saves it. -/
theorem run_format_cases (env : Locale.Environment) (tree : FileTree)
    (h : Request.parse? words = some (.run quiet verbose (.format file (some out)))) :
    ((run env tree words).1.code = 1 ∧ (run env tree words).2 = tree
      ∧ ∀ c, Holds tree file c → (tree.target out).isOk = false)
    ∨ ∃ c, Holds tree file c ∧ (run env tree words).1.code = 0
      ∧ tree.writeText out c.write = .ok (run env tree words).2 := by
  rw [run_eq h, Task.outcome, formatOutcome]
  cases hloaded : ((Source.texts tree.readText).load file).outcome with
  | error fault =>
    refine .inl ⟨rfl, rfl, fun c hc ↦ ?_⟩
    rw [← outcome_load_eq_ok_iff, hloaded] at hc
    cases hc
  | ok c =>
    have hc := outcome_load_eq_ok_iff.mp hloaded
    simp only [Outcome.onTree]
    cases hwrite : tree.writeText out c.write with
    | error cause =>
      refine .inl ⟨rfl, rfl, fun _ _ ↦ ?_⟩
      rw [Entry.writeText] at hwrite
      cases htarget : tree.target out with
      | error cause => rfl
      | ok names =>
        rw [htarget] at hwrite
        cases hwrite
    | ok after => exact .inr ⟨c, hc, rfl, hwrite⟩

/-- Saving a catalog over itself twice is saving it once. -/
theorem run_format_run_format {env' : Locale.Environment} {again : List String} {quiet' : Bool}
    {verbose' : Nat}
    (h : Request.parse? words = some (.run quiet verbose (.format file (some file))))
    (h' : Request.parse? again = some (.run quiet' verbose' (.format file (some file)))) :
    (run env' (run env tree words).2 again).2 = (run env tree words).2 := by
  obtain ⟨-, hsame, -⟩ | ⟨d, ⟨text, htext, hd⟩, -, hagain⟩ :=
    run_format_cases env' (run env tree words).2 h'
  · exact hsame
  obtain ⟨-, hsame, hnot⟩ | ⟨c, ⟨document, -, hc⟩, -, hwrite⟩ :=
    run_format_cases env tree h
  -- nothing was saved the first time, so nothing can be saved now
  · rw [hsame] at htext hagain ⊢
    obtain ⟨_, _, _, -, htarget, -⟩ := Entry.exists_aims_of_writeText hagain
    have hfail := hnot d ⟨text, htext, hd⟩
    rw [htarget] at hfail
    cases hfail
  -- the second catalog is the first one, and its text is there already
  · obtain rfl := Except.ok.inj ((Entry.readText_writeText hwrite).symm.trans htext)
    obtain rfl := eq_of_parse_write hc hd
    exact Except.ok.inj (hagain.symm.trans (Entry.writeText_writeText hwrite))

/-! ## What any run does to files -/

/-- A run changes a tree of files only if it is to save a catalog and succeeds. Then it changes the
file that the catalog is saved to, which holds what the run would otherwise show, and nothing else.
Without a catalog, or a place for it, the run ends with 1. Saving a catalog over itself once more
changes nothing. -/
theorem run_saves (env : Locale.Environment) (tree : FileTree) (words : List String) :
    match Request.parse? words with
    | some (.run _ _ (.format file (some out))) =>
      (∀ names, tree.target out ≠ .ok names →
        (run env tree words).2.view names = tree.view names)
      ∧ ((run env tree words).1.code ≠ 0 → (run env tree words).2 = tree)
      ∧ ((¬∃ c, Holds tree file c) →
        (run env tree words).1.code = 1 ∧ (run env tree words).2 = tree)
      ∧ (∀ c names, Holds tree file c → tree.target out = .ok names →
        (run env tree words).1.code = 0 ∧ ∀ env' plain quiet verbose,
          Request.parse? plain = some (.run quiet verbose (.format file none)) →
          (run env tree words).2.readText out = .ok (run env' tree plain).1.stdout)
      ∧ (out = file → ∀ env' again quiet verbose,
        Request.parse? again = some (.run quiet verbose (.format file (some file))) →
        (run env' (run env tree words).2 again).2 = (run env tree words).2)
    | _ => (run env tree words).2 = tree := by
  split
  case _ quiet verbose file out h =>
    have hcases := run_format_cases env tree h
    refine ⟨fun names hnames ↦ ?_, fun hcode ↦ ?_, fun hnone ↦ ?_, fun c names hc htarget ↦ ?_, ?_⟩
    case refine_1 =>
      obtain ⟨-, hsame, -⟩ | ⟨c, -, -, hwrite⟩ := hcases
      · rw [hsame]
      · exact Entry.view_writeText hwrite hnames
    case refine_2 =>
      obtain ⟨-, hsame, -⟩ | ⟨c, -, hzero, -⟩ := hcases
      · exact hsame
      · exact absurd hzero hcode
    case refine_3 =>
      obtain ⟨hcode, hsame, -⟩ | ⟨c, hc, -, -⟩ := hcases
      · exact ⟨hcode, hsame⟩
      · exact absurd ⟨c, hc⟩ hnone
    case refine_4 =>
      obtain ⟨-, -, hnot⟩ | ⟨d, hd, hzero, hwrite⟩ := hcases
      · have hfail := hnot c hc
        rw [htarget] at hfail
        cases hfail
      · refine ⟨hzero, fun env' plain quiet' verbose' hplain ↦ ?_⟩
        rw [stdout_run_format hplain hd]
        exact Entry.readText_writeText hwrite
    case refine_5 =>
      rintro rfl env' again quiet' verbose' hagain
      exact run_format_run_format h hagain
  case _ hother =>
    rw [run]
    split
    case _ quiet verbose task h =>
      cases task with
      | format file output =>
        cases output with
        | none => rfl
        | some out => exact absurd h (hother quiet verbose file out)
      | lookup file query includeUnfinished => rfl
      | resolve dir program locale query includeUnfinished => rfl
      | validate files json => rfl
      | stats files perContext json => rfl
      | dump file => rfl
    case _ => rfl

/-- A tree with a catalog in another layout than the canonical one, and a second file. -/
def looseTree : FileTree :=
  .directory [("a.ts", .file "<TS language='de'/>".toUTF8), ("b.txt", .file "b".toUTF8)]

theorem run_saves_looseTree (env : Locale.Environment) :
    (run env looseTree ["format", "a.ts", "-o", "a.ts"]).1.code = 0
      ∧ (run env looseTree ["format", "a.ts", "-o", "a.ts"]).2.readText "a.ts"
        = .ok (Catalog.write { language := some "de" }) := by
  have h := run_saves env looseTree ["format", "a.ts", "-o", "a.ts"]
  have hparse : Request.parse? ["format", "a.ts", "-o", "a.ts"]
      = some (.run false 0 (.format "a.ts" (some "a.ts"))) := by decide +kernel
  have hplain : Request.parse? ["format", "a.ts"]
      = some (.run false 0 (.format "a.ts" none)) := by decide +kernel
  have hread : looseTree.readText "a.ts" = .ok "<TS language='de'/>" := by decide +kernel
  rw [hparse] at h
  have hholds : Holds looseTree "a.ts" { language := some "de" } := ⟨_, hread, rfl⟩
  have htarget : looseTree.target "a.ts" = .ok ["a.ts"] := by decide +kernel
  obtain ⟨-, -, -, hsaved, -⟩ := h
  obtain ⟨hzero, hsame⟩ := hsaved _ _ hholds htarget
  refine ⟨hzero, ?_⟩
  rw [hsame env _ _ _ hplain, stdout_run_format hplain hholds]

end MessageCatalog.Command
