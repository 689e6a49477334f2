import MessageCatalog.Proofs.Command.Operands
import MessageCatalog.Proofs.Command.Saving
import MessageCatalog.Proofs.Json.Sorted
import MessageCatalog.Proofs.Text.Lossy

/-!
# What a run says about files

Files are checked one by one, up to the first that holds no catalog (`IsLoaded`). What the run ends
with is a matter of the files alone: neither their order, nor how often one is given, nor the form
of the reports makes a difference, as no file makes up for another.

What the run shows is another matter. Reports as text are shown one by one, so that those of the
files before the first failure remain. Reports as JSON are members of one object, which stands for
all of the files or is not shown at all. Its keys are what is shown of the paths: of files that are
shown alike, only the last is reported on.

All this holds for paths of any kind (`Source`). Those of a command line are texts, each shown as it
is, and so are the paths of the system that are the bytes of texts. An empty name is no path: it is
refused before any file is looked at.
-/

namespace MessageCatalog.Command

open Storage

variable {Path : Type} {source : Source Path} {files : List Path} {json : Bool}

/-! ## Files up to the first failure -/

/-- A catalog is loaded from a file, and no issue with it is an error. -/
def Passes (source : Source Path) (file : Path) : Prop :=
  ∃ c, source.Holds file c ∧ Integrity.hasErrors (Integrity.issues c) = false

theorem passes_iff_of_holds {file : Path} {c : Catalog} (hc : source.Holds file c) :
    Passes source file ↔ Integrity.hasErrors (Integrity.issues c) = false := by
  constructor
  · rintro ⟨d, hd, hclean⟩
    rwa [hc.eq hd]
  · intro hclean
    exact ⟨c, hc, hclean⟩

/-- Files with the catalogs that are loaded from them, and the files from the first on that holds
none. -/
structure IsLoaded (source : Source Path) (files : List Path) (found : List (Path × Catalog))
    (rest : List Path) : Prop where
  files_eq : files = found.map (·.1) ++ rest
  holds : ∀ file c, (file, c) ∈ found → source.Holds file c
  stops : ∀ file ∈ rest.head?, ∀ c, ¬source.Holds file c

theorem exists_isLoaded (source : Source Path) (files : List Path) :
    ∃ found rest, IsLoaded source files found rest := by
  induction files with
  | nil =>
    refine ⟨[], [], rfl, ?_, ?_⟩
    · intro file c h
      exact absurd h List.not_mem_nil
    · rintro file ⟨⟩
  | cons file files ih =>
    by_cases hfile : ∃ c, source.Holds file c
    · obtain ⟨c, hc⟩ := hfile
      obtain ⟨found, rest, h⟩ := ih
      refine ⟨(file, c) :: found, rest, ?_, ?_, h.stops⟩
      · rw [h.files_eq, List.map_cons, List.cons_append]
      · intro file' c' hmem
        rcases List.mem_cons.mp hmem with heq | hmem
        · obtain ⟨rfl, rfl⟩ := Prod.mk.inj heq
          exact hc
        · exact h.holds file' c' hmem
    · refine ⟨[], file :: files, rfl, ?_, ?_⟩
      · intro file' c h
        exact absurd h List.not_mem_nil
      · rintro file' hhead c hc
        obtain rfl := Option.some.inj hhead
        exact hfile ⟨c, hc⟩

namespace IsLoaded

variable {found : List (Path × Catalog)} {rest : List Path}

theorem of_cons {file : Path} {c : Catalog}
    (h : IsLoaded source files ((file, c) :: found) rest) :
    source.Holds file c ∧ ∃ files', files = file :: files' ∧ IsLoaded source files' found rest := by
  refine ⟨h.holds file c List.mem_cons_self, _, h.files_eq, rfl, ?_, h.stops⟩
  intro file' c' hmem
  exact h.holds file' c' (List.mem_cons_of_mem _ hmem)

/-- There is but one way to part files so. -/
theorem eq {found' : List (Path × Catalog)} {rest' : List Path}
    (h : IsLoaded source files found rest) (h' : IsLoaded source files found' rest') :
    found = found' := by
  induction found generalizing files found' with
  | nil =>
    rcases found' with - | ⟨⟨file, c⟩, found'⟩
    · rfl
    · obtain ⟨hc, files', hfiles, -⟩ := h'.of_cons
      have hrest := h.files_eq.symm.trans hfiles
      exact absurd hc (h.stops file (by rw [← List.nil_append rest]; exact hrest ▸ rfl) c)
  | cons pair found ih =>
    obtain ⟨file, c⟩ := pair
    obtain ⟨hc, files', rfl, hfound⟩ := h.of_cons
    rcases found' with - | ⟨⟨file', c'⟩, found'⟩
    · have hrest := h'.files_eq
      exact absurd hc (h'.stops file (by rw [← List.nil_append rest']; exact hrest ▸ rfl) c)
    · obtain ⟨hc', files'', hfiles, hfound'⟩ := h'.of_cons
      obtain ⟨rfl, rfl⟩ := List.cons.inj hfiles
      rw [hc.eq hc', ih hfound hfound']

theorem eq_map (h : IsLoaded source files found []) : files = found.map (·.1) := by
  rw [h.files_eq, List.append_nil]

theorem rest_eq_nil_iff (h : IsLoaded source files found rest) :
    rest = [] ↔ ∀ file ∈ files, ∃ c, source.Holds file c := by
  constructor
  · rintro rfl file hfile
    rw [h.eq_map] at hfile
    obtain ⟨⟨file, c⟩, hmem, rfl⟩ := List.mem_map.mp hfile
    exact ⟨c, h.holds file c hmem⟩
  · intro hall
    rcases rest with - | ⟨file, rest⟩
    · rfl
    · obtain ⟨c, hc⟩ := hall file (by rw [h.files_eq]; simp)
      exact absurd hc (h.stops file rfl c)

theorem mem_found_iff (h : IsLoaded source files found []) {file : Path} {c : Catalog} :
    (file, c) ∈ found ↔ file ∈ files ∧ source.Holds file c := by
  constructor
  · intro hmem
    refine ⟨?_, h.holds file c hmem⟩
    rw [h.eq_map]
    exact List.mem_map.mpr ⟨_, hmem, rfl⟩
  · rintro ⟨hfile, hc⟩
    rw [h.eq_map] at hfile
    obtain ⟨⟨file, d⟩, hmem, rfl⟩ := List.mem_map.mp hfile
    rwa [hc.eq (h.holds file d hmem)]

/-- What is loaded are the catalogs found, without a fault if no file is left. -/
theorem loadFiles_eq (h : IsLoaded source files found rest) :
    (loadFiles source files).1 = found.map (fun (file, c) ↦ (source.display file, c))
      ∧ ((loadFiles source files).2.outcome = .ok () ↔ rest = []) := by
  induction found generalizing files with
  | nil =>
    obtain rfl : files = rest := h.files_eq
    rcases files with - | ⟨file, files⟩
    · exact ⟨rfl, ⟨fun _ ↦ rfl, fun _ ↦ rfl⟩⟩
    · rw [loadFiles]
      rcases hload : (source.load file).outcome with fault | c
      · refine ⟨rfl, ?_⟩
        constructor
        · rintro ⟨⟩
        · rintro ⟨⟩
      · exact absurd (Source.load_eq_ok_iff.mp hload) (h.stops file rfl c)
  | cons pair found ih =>
    obtain ⟨file, c⟩ := pair
    obtain ⟨hc, files, rfl, hfound⟩ := h.of_cons
    rw [loadFiles, Source.load_eq_ok_iff.mpr hc]
    exact ⟨congrArg _ (ih hfound).1, (ih hfound).2⟩

end IsLoaded

/-! ## Reports on files -/

section

variable {α : Type} {found : Index α} {loaded : Noted Unit} {toText : String → α → String}
variable {toJson : α → Json.Value} {isWell : α → Bool}

@[simp] theorem shown_reportEach_text : (reportEach found loaded false toText toJson isWell).shown
    = String.join (found.map fun (file, a) ↦ toText file a) := rfl

theorem shown_reportEach_json (h : loaded.outcome = .ok ()) :
    (reportEach found loaded true toText toJson isWell).shown
      = (Json.Value.object (found.map fun (file, a) ↦ (file, toJson a))).sorted.pretty ++ "\n" := by
  rw [reportEach, h]
  rfl

theorem shown_reportEach_json_of_error {fault : Fault} (h : loaded.outcome = .error fault) :
    (reportEach found loaded true toText toJson isWell).shown = "" := by
  rw [reportEach, h]
  rfl

theorem verdict_reportEach_iff :
    (reportEach found loaded json toText toJson isWell).verdict = .ok true
      ↔ loaded.outcome = .ok () ∧ ∀ file a, (file, a) ∈ found → isWell a = true := by
  rw [reportEach]
  rcases loaded.outcome with fault | -
  · constructor
    · rintro ⟨⟩
    · rintro ⟨⟨⟩, -⟩
  · rw [Except.map, Except.ok.injEq, List.all_eq_true]
    constructor
    · intro h
      exact ⟨rfl, fun file a hmem ↦ h (file, a) hmem⟩
    · rintro ⟨-, h⟩ ⟨file, a⟩ hmem
      exact h file a hmem

end

theorem IsLoaded.validate_eq {found : List (Path × Catalog)} {rest : List Path}
    (h : IsLoaded source files found rest) (json : Bool) :
    validate source files json
      = reportEach (found.map fun (file, c) ↦ (source.display file, Integrity.issues c))
        (loadFiles source files).2 json Integrity.report Integrity.reportJson
        fun issues ↦ !Integrity.hasErrors issues := by
  have hfound : found.map (fun (file, c) ↦ (source.display file, Integrity.issues c))
      = (loadFiles source files).1.map fun shown ↦ (shown.1, Integrity.issues shown.2) := by
    rw [h.loadFiles_eq.1, List.map_map]
    rfl
  rw [hfound]
  rfl

theorem verdict_validate_iff (source : Source Path) (files : List Path) (json : Bool) :
    (validate source files json).verdict = .ok true ↔ ∀ file ∈ files, Passes source file := by
  obtain ⟨found, rest, h⟩ := exists_isLoaded source files
  rw [h.validate_eq, verdict_reportEach_iff, h.loadFiles_eq.2]
  constructor
  · rintro ⟨rfl, hclean⟩ file hfile
    obtain ⟨c, hc⟩ := h.rest_eq_nil_iff.mp rfl file hfile
    have hwell := hclean (source.display file) (Integrity.issues c)
      (List.mem_map.mpr ⟨(file, c), h.mem_found_iff.mpr ⟨hfile, hc⟩, rfl⟩)
    exact ⟨c, hc, Bool.not_eq_eq_eq_not.mp hwell⟩
  · intro hpass
    obtain rfl := h.rest_eq_nil_iff.mpr fun file hfile ↦ (hpass file hfile).imp fun _ ↦ And.left
    refine ⟨rfl, fun shown issues hmem ↦ ?_⟩
    obtain ⟨⟨file, c⟩, hfound, heq⟩ := List.mem_map.mp hmem
    obtain ⟨rfl, rfl⟩ := Prod.mk.inj heq
    obtain ⟨hfile, hc⟩ := h.mem_found_iff.mp hfound
    rw [(passes_iff_of_holds hc).mp (hpass file hfile)]
    rfl

/-- The report that stands for a name: that on the last of the files that are shown so. -/
def IsReported (source : Source Path) (files : List Path) (shown : String) (report : Json.Value) :
    Prop :=
  ∃ before file after c, files = before ++ file :: after ∧ source.display file = shown
    ∧ (∀ later ∈ after, source.display later ≠ shown)
    ∧ source.Holds file c ∧ report = (Integrity.reportJson (Integrity.issues c)).sorted

/-- Where no two files are shown alike, the report on each of them stands for it. -/
theorem isReported_iff_of_injective
    (hdisplay : ∀ file ∈ files, ∀ other ∈ files,
      source.display file = source.display other → file = other)
    {shown : String} {report : Json.Value} :
    IsReported source files shown report
      ↔ ∃ file ∈ files, source.display file = shown ∧ ∃ c, source.Holds file c
        ∧ report = (Integrity.reportJson (Integrity.issues c)).sorted := by
  constructor
  · rintro ⟨before, file, after, c, rfl, hshown, -, hc, hreport⟩
    exact ⟨file, List.mem_append_right _ List.mem_cons_self, hshown, c, hc, hreport⟩
  · rintro ⟨file, hfile, rfl, c, hc, hreport⟩
    obtain ⟨after, before, heq, hafter⟩ := List.eq_append_cons_of_mem (List.mem_reverse.mpr hfile)
    rw [List.reverse_eq_append_iff, List.reverse_cons, ← List.append_cons] at heq
    refine ⟨_, file, _, c, heq, rfl, fun later hlater hshown ↦ ?_, hc, hreport⟩
    have hmem : later ∈ files := heq ▸ List.mem_append_right _ (List.mem_cons_of_mem _ hlater)
    rw [hdisplay later hmem file hfile hshown] at hlater
    exact hafter (List.mem_reverse.mp hlater)

section

variable {found : List (Path × Catalog)} {rest : List Path}

theorem shown_validate_text (h : IsLoaded source files found rest) :
    (validate source files false).shown = String.join (found.map fun (file, c) ↦
      Integrity.report (source.display file) (Integrity.issues c)) := by
  rw [h.validate_eq, shown_reportEach_text, List.map_map]
  rfl

theorem shown_validate_json_of_ne_nil (h : IsLoaded source files found rest) (hrest : rest ≠ []) :
    (validate source files true).shown = "" := by
  rw [h.validate_eq]
  rcases hload : (loadFiles source files).2.outcome with fault | _
  · exact shown_reportEach_json_of_error hload
  · exact absurd (h.loadFiles_eq.2.mp hload) hrest

theorem isLast_iff (h : IsLoaded source files found []) {shown : String} {value : Json.Value} :
    Json.IsLast (found.map fun (file, c) ↦
        (source.display file, Integrity.reportJson (Integrity.issues c))) shown value
      ↔ ∃ before file after c, files = before ++ file :: after ∧ source.display file = shown
        ∧ (∀ later ∈ after, source.display later ≠ shown)
        ∧ source.Holds file c ∧ value = Integrity.reportJson (Integrity.issues c) := by
  have hkeys (after : List (Path × Catalog)) :
      shown ∉ (after.map fun (file, c) ↦
        (source.display file, Integrity.reportJson (Integrity.issues c))).map (·.1)
        ↔ ∀ later ∈ after.map (·.1), source.display later ≠ shown := by
    simp
  constructor
  · rintro ⟨before, after, heq, hafter⟩
    obtain ⟨front, back, rfl, rfl, hback⟩ := List.map_eq_append_iff.mp heq
    obtain ⟨⟨file, c⟩, back, rfl, hpair, rfl⟩ := List.map_eq_cons_iff.mp hback
    obtain ⟨rfl, rfl⟩ := Prod.mk.inj hpair
    refine ⟨front.map (·.1), file, back.map (·.1), c, ?_, rfl, (hkeys back).mp hafter, ?_, rfl⟩
    · rw [h.eq_map, List.map_append, List.map_cons]
    · exact h.holds file c (List.mem_append_right _ List.mem_cons_self)
  · rintro ⟨before, file, after, c, heq, rfl, hafter, hc, rfl⟩
    obtain ⟨front, back, rfl, rfl, hback⟩ := List.map_eq_append_iff.mp (h.eq_map.symm.trans heq)
    obtain ⟨⟨file, d⟩, back, rfl, rfl, rfl⟩ := List.map_eq_cons_iff.mp hback
    obtain rfl := hc.eq (h.holds file d (List.mem_append_right _ List.mem_cons_self))
    exact ⟨_, _, by rw [List.map_append, List.map_cons], (hkeys back).mpr hafter⟩

/-- As JSON, every name has one member, which is the report that stands for it. -/
theorem exists_members_validate_json (h : IsLoaded source files found []) :
    ∃ members : Index Json.Value,
      (validate source files true).shown = (Json.Value.object members).pretty ++ "\n"
      ∧ members.IsAscending
      ∧ (∀ shown, shown ∈ members.map (·.1) ↔ ∃ file ∈ files, source.display file = shown)
      ∧ ∀ shown report, (shown, report) ∈ members ↔ IsReported source files shown report := by
  have hshown : (validate source files true).shown
      = (Json.Value.object (found.map fun (file, c) ↦
        (source.display file, Integrity.reportJson (Integrity.issues c)))).sorted.pretty
          ++ "\n" := by
    rw [h.validate_eq, shown_reportEach_json (h.loadFiles_eq.2.mpr rfl), List.map_map]
    rfl
  rw [Json.Value.sorted] at hshown
  refine ⟨_, hshown, Json.isAscending_sortedMembers _, fun shown ↦ ?names, fun shown report ↦ ?_⟩
  case names =>
    rw [Json.mem_keys_sortedMembers_iff, h.eq_map]
    simp
  simp only [Json.mem_sortedMembers_iff, isLast_iff h, IsReported]
  constructor
  · rintro ⟨value, ⟨before, file, after, c, hfiles, hdisplay, hafter, hc, rfl⟩, rfl⟩
    exact ⟨before, file, after, c, hfiles, hdisplay, hafter, hc, rfl⟩
  · rintro ⟨before, file, after, c, hfiles, hdisplay, hafter, hc, rfl⟩
    exact ⟨_, ⟨before, file, after, c, hfiles, hdisplay, hafter, hc, rfl⟩, rfl⟩

end

/-! ## Runs -/

theorem codeOf_eq_zero_iff {verdict : Except Fault Bool} :
    codeOf verdict = 0 ↔ verdict = .ok true := by
  rcases verdict with fault | - | -
  · constructor
    · rintro ⟨⟩
    · rintro ⟨⟩
  · constructor
    · rintro ⟨⟩
    · rintro ⟨⟩
  · exact ⟨fun _ ↦ rfl, fun _ ↦ rfl⟩

theorem codeOf_eq_one {verdict : Except Fault Bool} (h : codeOf verdict ≠ 0) :
    codeOf verdict = 1 := by
  rcases verdict with fault | - | -
  · rfl
  · rfl
  · exact absurd rfl h

/-- A run checks files: what it ends with, and what it shows of them. -/
structure IsCheck (source : Source Path) (files : List Path) (json : Bool) (r : Run) : Prop where
  code_eq_zero_iff : r.code = 0 ↔ ∀ file ∈ files, Passes source file
  code_eq_one : r.code ≠ 0 → r.code = 1
  text : json = false → ∃ found rest, IsLoaded source files found rest
    ∧ r.stdout = String.join (found.map fun (file, c) ↦
      Integrity.report (source.display file) (Integrity.issues c))
  failed : json = true → (∃ file ∈ files, ∀ c, ¬source.Holds file c) → r.stdout = ""
  reported : json = true → (∀ file ∈ files, ∃ c, source.Holds file c) →
    ∃ members : Index Json.Value,
      r.stdout = (Json.Value.object members).pretty ++ "\n" ∧ members.IsAscending
      ∧ (∀ shown, shown ∈ members.map (·.1) ↔ ∃ file ∈ files, source.display file = shown)
      ∧ ∀ shown report, (shown, report) ∈ members ↔ IsReported source files shown report

theorem isCheck_validate (source : Source Path) (files : List Path) (json : Bool)
    (level : Option String) (verbosity : Verbosity) :
    IsCheck source files json ((validate source files json).run level verbosity) := by
  obtain ⟨found, rest, hloaded⟩ := exists_isLoaded source files
  constructor
  case code_eq_zero_iff => exact codeOf_eq_zero_iff.trans (verdict_validate_iff source files json)
  case code_eq_one => exact codeOf_eq_one
  case text =>
    rintro rfl
    exact ⟨found, rest, hloaded, shown_validate_text hloaded⟩
  case failed =>
    rintro rfl ⟨file, hfile, hnone⟩
    refine shown_validate_json_of_ne_nil hloaded fun hrest ↦ ?_
    obtain ⟨c, hc⟩ := hloaded.rest_eq_nil_iff.mp hrest file hfile
    exact hnone c hc
  case reported =>
    rintro rfl hall
    obtain rfl := hloaded.rest_eq_nil_iff.mpr hall
    exact exists_members_validate_json hloaded

/-- Files that are the same, whatever their order, are checked alike. -/
theorem IsCheck.code_eq {files' : List Path} {json' : Bool} {r r' : Run}
    (h : IsCheck source files json r) (h' : IsCheck source files' json' r')
    (hfiles : ∀ file, file ∈ files' ↔ file ∈ files) : r'.code = r.code := by
  have hzero : r'.code = 0 ↔ r.code = 0 := by
    rw [h.code_eq_zero_iff, h'.code_eq_zero_iff]
    simp only [hfiles]
  by_cases hcode : r.code = 0
  · rw [hcode, hzero.mpr hcode]
  · rw [h.code_eq_one hcode, h'.code_eq_one (hzero.not.mpr hcode)]

/-! ## Command lines -/

/-- The path that a text stands for is shown as the text, and leads where the text leads in a
tree. -/
structure IsOn (source : Source Path) (tree : FileTree) : Prop where
  display_ofText : ∀ s, source.display (source.ofText s) = s
  read_ofText : ∀ s, source.read (source.ofText s) = tree.readText s

theorem isOn_texts (tree : FileTree) : IsOn (.texts tree.readText) tree :=
  ⟨fun _ ↦ rfl, fun _ ↦ rfl⟩

theorem isOn_raw {tree : FileTree} {read : RawPath → Except Cause String}
    (h : ∀ s, read (Text.utf8Bytes s) = tree.readText s) : IsOn (.raw read) tree :=
  ⟨Text.lossy_utf8Bytes, h⟩

theorem IsOn.loadFiles_map {tree : FileTree} (h : IsOn source tree) (files : List String) :
    loadFiles source (files.map source.ofText) = loadFiles (.texts tree.readText) files := by
  induction files with
  | nil => rfl
  | cons file files ih =>
    have hload : source.load (source.ofText file) = (Source.texts tree.readText).load file := by
      rw [Source.load, h.display_ofText, h.read_ofText]
      rfl
    rw [List.map_cons, loadFiles, loadFiles, hload, ih, h.display_ofText]
    rfl

theorem IsOn.run_eq_validate {tree : FileTree} (h : IsOn source tree) {env : Locale.Environment}
    {words : List String} {quiet : Bool} {verbose : Nat} {files : List String}
    (hparse : Request.parse? words = some (.run quiet verbose (.validate files json))) :
    run env tree words
      = ((validate source (files.map source.ofText) json).run (env levelVariable)
          (.ofSwitches quiet verbose), tree) := by
  rw [run_eq hparse, validate, h.loadFiles_map]
  rfl

/-- A run that checks files ends with 0 if a catalog is loaded from each and none of their issues is
an error, and with 1 otherwise. So it ends alike for the same files in another order, given more
often, or with their reports in another form. As text, the reports on the files before the first
failure are shown. As JSON, an object is shown that has for each name the report on the last file
that is shown so, and nothing else; if a file fails, nothing is shown. If no two files are shown
alike, each has its report. A command line can ask for any files, if there are some and none has an
empty name; otherwise it ends with 2. -/
theorem run_validate :
    (∀ (files : List String) (json : Bool),
      ((∃ words quiet verbose,
        Request.parse? words = some (.run quiet verbose (.validate files json)))
        ↔ files ≠ [] ∧ "" ∉ files)
      ∧ (files = [] ∨ "" ∈ files → ∀ env tree,
        (run env tree (validateWords files json)).1.code = 2
        ∧ (run env tree (validateWords files json)).1.stdout = ""
        ∧ (run env tree (validateWords files json)).2 = tree))
    ∧ ∀ (Path : Type) (source : Source Path),
      (∀ env tree words quiet verbose files json, IsOn source tree →
        Request.parse? words = some (.run quiet verbose (.validate files json)) →
        run env tree words
          = ((validate source (files.map source.ofText) json).run (env levelVariable)
              (.ofSwitches quiet verbose), tree))
      ∧ ∀ files json level verbosity,
        IsCheck source files json ((validate source files json).run level verbosity)
        ∧ (∀ files' json' level' verbosity', (∀ file, file ∈ files' ↔ file ∈ files) →
          ((validate source files' json').run level' verbosity').code
            = ((validate source files json).run level verbosity).code)
        ∧ ((∀ file ∈ files, ∀ other ∈ files,
            source.display file = source.display other → file = other) →
          ∀ shown report, IsReported source files shown report
            ↔ ∃ file ∈ files, source.display file = shown ∧ ∃ c, source.Holds file c
              ∧ report = (Integrity.reportJson (Integrity.issues c)).sorted) := by
  refine ⟨fun files json ↦ ⟨exists_parse?_validate_iff, fun h env tree ↦ ?refused⟩,
    fun Path source ↦ ⟨?line, fun files json level verbosity ↦ ⟨?check, ?same, ?apart⟩⟩⟩
  case refused =>
    rw [run, parse?_validateWords_eq_none h]
    exact ⟨rfl, rfl, rfl⟩
  case line =>
    intro env tree words quiet verbose files json hsource hparse
    exact hsource.run_eq_validate hparse
  case check => exact isCheck_validate source files json level verbosity
  case same =>
    intro files' json' level' verbosity' hfiles
    exact (isCheck_validate source files json level verbosity).code_eq
      (isCheck_validate source files' json' level' verbosity') hfiles
  case apart =>
    intro hdisplay shown report
    exact isReported_iff_of_injective hdisplay

/-- A catalog with two contexts of one name. -/
def repeatingDocument : String :=
  "<TS><context><name>a</name></context><context><name>a</name></context></TS>"

def repeatingCatalog : Catalog :=
  { contexts := [{ name := "a" }, { name := "a" }] }

/-- A catalog without issues. -/
def germanDocument : String := "<TS language='de'/>"

def germanCatalog : Catalog :=
  { language := some "de" }

/-- A tree with both of them, and another file. -/
def checkedTree : FileTree :=
  .directory [
    ("a.ts", .file repeatingDocument.toUTF8),
    ("b.ts", .file germanDocument.toUTF8),
    ("c.ts", .file "c".toUTF8)]

/-- What is shown of `a.ts`. -/
def repeatingReport : String :=
  "a.ts: warning: catalog has no language attribute\n"
    ++ "a.ts: error: duplicate context in context 'a'\n"

/-- What is shown of `a.ts` and `b.ts` as JSON. -/
def checkedReport : String :=
  String.join <| ([
    "\x7b",
    "  \"a.ts\": \x7b",
    "    \"issues\": [",
    "      \x7b",
    "        \"context\": null,",
    "        \"kind\": \"missing_language\",",
    "        \"severity\": \"warning\",",
    "        \"source\": null",
    "      \x7d,",
    "      \x7b",
    "        \"context\": \"a\",",
    "        \"kind\": \"duplicate_context\",",
    "        \"severity\": \"error\",",
    "        \"source\": null",
    "      \x7d",
    "    ]",
    "  \x7d,",
    "  \"b.ts\": \x7b",
    "    \"issues\": []",
    "  \x7d",
    "\x7d"] : List String).map (· ++ "\n")

def checkedSource : Source String :=
  .texts checkedTree.readText

theorem holds_repeating : checkedSource.Holds "a.ts" repeatingCatalog :=
  ⟨repeatingDocument, by decide +kernel, by decide +kernel⟩

theorem holds_german : checkedSource.Holds "b.ts" germanCatalog :=
  ⟨germanDocument, by decide +kernel, by decide +kernel⟩

theorem not_passes_repeating : ¬Passes checkedSource "a.ts" := by
  rw [passes_iff_of_holds holds_repeating]
  decide +kernel

theorem isLoaded_checked :
    IsLoaded checkedSource ["a.ts", "c.ts"] [("a.ts", repeatingCatalog)] ["c.ts"] := by
  have hread : checkedSource.read "c.ts" = .ok "c" := by decide +kernel
  refine ⟨rfl, ?_, ?_⟩
  · rintro file c hmem
    obtain ⟨rfl, rfl⟩ := Prod.mk.inj (List.mem_singleton.mp hmem)
    exact holds_repeating
  · rintro file hhead c ⟨document, hdocument, hc⟩
    obtain rfl := Option.some.inj hhead
    obtain rfl := Except.ok.inj (hread.symm.trans hdocument)
    cases hc

/-- The reports on the files of this tree that hold catalogs, by name. -/
def checkedMembers : Index Json.Value := [
  ("a.ts", (Integrity.reportJson (Integrity.issues repeatingCatalog)).sorted),
  ("b.ts", (Integrity.reportJson (Integrity.issues germanCatalog)).sorted)]

theorem eq_checkedMembers {members : Index Json.Value} (hascending : members.IsAscending)
    (h : ∀ shown report, (shown, report) ∈ members
      ↔ ∃ file ∈ ["a.ts", "b.ts", "a.ts"], checkedSource.display file = shown
        ∧ ∃ c, checkedSource.Holds file c
          ∧ report = (Integrity.reportJson (Integrity.issues c)).sorted) :
    members = checkedMembers := by
  refine hascending.eq_of_mem_iff (List.pairwise_pair.mpr (by decide)) fun ⟨shown, report⟩ ↦ ?_
  rw [h, checkedMembers]
  simp only [List.mem_cons, List.not_mem_nil, or_false, Prod.mk.injEq]
  constructor
  · rintro ⟨file, rfl | rfl | rfl, rfl, c, hc, rfl⟩
    · exact .inl ⟨rfl, by rw [hc.eq holds_repeating]⟩
    · exact .inr ⟨rfl, by rw [hc.eq holds_german]⟩
    · exact .inl ⟨rfl, by rw [hc.eq holds_repeating]⟩
  · rintro (⟨rfl, rfl⟩ | ⟨rfl, rfl⟩)
    · exact ⟨_, .inl rfl, rfl, _, holds_repeating, rfl⟩
    · exact ⟨_, .inr (.inl rfl), rfl, _, holds_german, rfl⟩

theorem run_validate_checkedTree :
    (run (fun _ ↦ none) checkedTree ["validate", "a.ts", "c.ts"]).1.code = 1
      ∧ (run (fun _ ↦ none) checkedTree ["validate", "a.ts", "c.ts"]).1.stdout = repeatingReport
      ∧ (run (fun _ ↦ none) checkedTree ["validate", "a.ts", "--json", "b.ts", "a.ts"]).1.code = 1
      ∧ (run (fun _ ↦ none) checkedTree ["validate", "a.ts", "--json", "b.ts", "a.ts"]).1.stdout
        = checkedReport
      ∧ (run (fun _ ↦ none) checkedTree ["validate", "--json", "--", ""]).1.code = 2 := by
  obtain ⟨hwords, hchecks⟩ := run_validate
  obtain ⟨hline, hcheck⟩ := hchecks String checkedSource
  have hrun (words files : List String) (json : Bool)
      (hparse : Request.parse? words = some (.run false 0 (.validate files json))) :
      IsCheck checkedSource files json (run (fun _ ↦ none) checkedTree words).1 := by
    rw [hline (fun _ ↦ none) checkedTree words false 0 files json (isOn_texts _) hparse,
      show files.map checkedSource.ofText = files from List.map_id files]
    exact (hcheck files json _ _).1
  have htext := hrun ["validate", "a.ts", "c.ts"] ["a.ts", "c.ts"] false (by decide +kernel)
  have hjson := hrun ["validate", "a.ts", "--json", "b.ts", "a.ts"] ["a.ts", "b.ts", "a.ts"] true
    (by decide +kernel)
  refine ⟨?_, ?_, ?_, ?_, ?_⟩
  · apply htext.code_eq_one
    intro hzero
    exact not_passes_repeating (htext.code_eq_zero_iff.mp hzero "a.ts" List.mem_cons_self)
  · obtain ⟨found, rest, hloaded, hshown⟩ := htext.text rfl
    rw [hshown, hloaded.eq isLoaded_checked]
    decide +kernel
  · apply hjson.code_eq_one
    intro hzero
    exact not_passes_repeating (hjson.code_eq_zero_iff.mp hzero "a.ts" List.mem_cons_self)
  · have hall : ∀ file ∈ ["a.ts", "b.ts", "a.ts"], ∃ c, checkedSource.Holds file c := by
      simp only [List.forall_mem_cons]
      exact ⟨⟨_, holds_repeating⟩, ⟨_, holds_german⟩, ⟨_, holds_repeating⟩, List.forall_mem_nil _⟩
    obtain ⟨members, hshown, hascending, -, hmembers⟩ := hjson.reported rfl hall
    obtain ⟨-, -, hapart⟩ := hcheck ["a.ts", "b.ts", "a.ts"] true none .normal
    simp only [hapart fun _ _ _ _ ↦ id] at hmembers
    rw [hshown, eq_checkedMembers hascending hmembers]
    decide +kernel
  · exact ((hwords [""] true).2 (.inr List.mem_cons_self) _ _).1

/-- Two paths that are shown alike. -/
def aliasedFiles : List RawPath := [[0x61, 0xFF], [0x61, 0xFE]]

/-- A catalog with an error at the first of them, and catalogs without issues elsewhere. -/
def aliasedSource : Source RawPath :=
  .raw fun file ↦ .ok (if file = [0x61, 0xFF] then repeatingDocument else germanDocument)

/-- An empty name ends a run with 2, and of two files with distinct paths only one is reported on if
they are shown alike. -/
theorem run_validate_exceptions :
    (run (fun _ ↦ none) (.directory []) ["validate", ""]).1.code = 2
      ∧ aliasedFiles.Nodup ∧ (∀ file ∈ aliasedFiles, ∃ c, aliasedSource.Holds file c)
      ∧ ((validate aliasedSource aliasedFiles true).run none .normal).stdout
        = "\x7b\n  \"a\uFFFD\": \x7b\n    \"issues\": []\n  \x7d\n\x7d\n" := by
  refine ⟨by decide +kernel, by decide, ?_, by decide +kernel⟩
  simp only [aliasedFiles, List.forall_mem_cons]
  refine ⟨⟨repeatingCatalog, ?_⟩, ⟨germanCatalog, ?_⟩, List.forall_mem_nil _⟩
  · exact ⟨repeatingDocument, rfl, by decide +kernel⟩
  · exact ⟨germanDocument, rfl, by decide +kernel⟩

end MessageCatalog.Command
