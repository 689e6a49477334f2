import MessageCatalog.Proofs.Outcome
import MessageCatalog.Proofs.Storage.Access
import MessageCatalog.Storage.Source

/-!
# Catalogs loaded from files

A catalog is loaded if its file can be read and the text in it is a catalog's document. From a
directory, the catalogs are loaded under the locales in the names of their files: a locale has a
catalog exactly if the directory lists the name that belongs to it, and then it has the one that is
loaded from that file. The order in which the names are listed, and what else is listed, do not
matter.
-/

namespace MessageCatalog.Storage

/-! ## Single files -/

theorem outcome_loadText (path : String) (content : Except Cause String) :
    (loadText path content).outcome
      = (content.mapError (Fault.io path)).bind fun document ↦ Catalog.parse document := by
  rw [loadText.eq_def]
  cases content with
  | error cause => rfl
  | ok document =>
    rw [Noted.outcome_bind]
    change (Catalog.parse document >>= fun catalog ↦ _) = Catalog.parse document
    cases Catalog.parse document with
    | error fault => rfl
    | ok catalog => rfl

theorem outcome_loadCatalog (read : TextSource) (path : String) :
    (loadCatalog read path).outcome
      = ((read path).mapError (Fault.io path)).bind fun document ↦ Catalog.parse document :=
  outcome_loadText path (read path)

theorem outcome_loadCatalog_of_locate {tree : FileTree} {path : String} {cause : Cause}
    (h : tree.locate path = .error cause) :
    (loadCatalog tree.readText path).outcome = .error (.io path cause) := by
  rw [outcome_loadCatalog, Entry.readText, h]
  rfl

/-- A catalog is loaded exactly if the text in its file is its document. -/
theorem loadText_eq_ok_iff {path : String} {content : Except Cause String} {c : Catalog} :
    (loadText path content).outcome = .ok c
      ↔ ∃ document, content = .ok document ∧ Catalog.parse document = .ok c := by
  rw [outcome_loadText]
  rcases content with cause | document
  · constructor
    · rintro ⟨⟩
    · rintro ⟨document, ⟨⟩, -⟩
  · constructor
    · intro h
      exact ⟨document, rfl, h⟩
    · rintro ⟨document', hdocument, hparse⟩
      obtain rfl := Except.ok.inj hdocument
      exact hparse

theorem loadCatalog_eq_ok_iff {read : TextSource} {path : String} {c : Catalog} :
    (loadCatalog read path).outcome = .ok c
      ↔ ∃ document, read path = .ok document ∧ Catalog.parse document = .ok c :=
  loadText_eq_ok_iff

namespace Source

variable {Path : Type} {s : Source Path} {file : Path} {c d : Catalog}

/-- The text at a path is a document of a catalog. -/
def Holds (s : Source Path) (file : Path) (c : Catalog) : Prop :=
  ∃ document, s.read file = .ok document ∧ Catalog.parse document = .ok c

@[simp] theorem load_eq_ok_iff : (s.load file).outcome = .ok c ↔ s.Holds file c :=
  loadText_eq_ok_iff

theorem Holds.eq (hc : s.Holds file c) (hd : s.Holds file d) : c = d := by
  rw [← load_eq_ok_iff] at hc hd
  exact Except.ok.inj (hc.symm.trans hd)

end Source

/-! ## Directories -/

theorem Entry.names?_eq_some_iff {tree : FileTree} {path : String} {names : List String} :
    tree.names? path = some names
      ↔ ∃ entries, tree.locate path = .ok (.directory entries) ∧ names = listed entries := by
  rw [names?]
  constructor
  · intro h
    obtain ⟨entries, hentries, rfl⟩ := Option.map_eq_some_iff.mp h
    obtain ⟨e, he, hdirectory⟩ := Option.bind_eq_some_iff.mp hentries
    rcases e with content | entries'
    · cases hdirectory
    · obtain rfl := Option.some.inj hdirectory
      exact ⟨entries', toOption_eq_some_iff.mp he, rfl⟩
  · rintro ⟨entries, hlocate, rfl⟩
    rw [hlocate]
    rfl

variable {read : TextSource} {dir : String}

theorem outcome_loadNamed_cons (program : Option String) (loaded : Index Catalog) (name : String)
    (rest : List String) :
    (loadNamed read dir program loaded (name :: rest)).outcome
      = match localeOfPath? (join dir name) program with
        | none => (loadNamed read dir program loaded rest).outcome
        | some locale => (loadCatalog read (join dir name)).outcome >>= fun catalog ↦
          (loadNamed read dir program (loaded.insert locale catalog) rest).outcome := by
  rw [loadNamed.eq_def]
  dsimp only
  cases localeOfPath? (join dir name) program with
  | none => exact Noted.outcome_leave_bind _ _
  | some locale =>
    dsimp only
    rw [Noted.outcome_bind]
    simp only [Noted.outcome_leave_bind]

section

variable {program : Option String} {names : List String} {catalogs loaded : Index Catalog}

/-- All names that belong to a locale name files from which a catalog is loaded. -/
theorem exists_loadNamed_iff :
    (∃ catalogs, (loadNamed read dir program loaded names).outcome = .ok catalogs)
      ↔ ∀ name ∈ names, ∀ locale, localeOfPath? (join dir name) program = some locale →
        ∃ c, (loadCatalog read (join dir name)).outcome = .ok c := by
  induction names generalizing loaded with
  | nil =>
    constructor
    · intro _ name hname
      exact absurd hname List.not_mem_nil
    · intro _
      exact ⟨loaded, rfl⟩
  | cons name rest ih =>
    rw [outcome_loadNamed_cons, List.forall_mem_cons]
    rcases hfound : localeOfPath? (join dir name) program with - | found
    · constructor
      · intro h
        refine ⟨fun locale hlocale ↦ ?_, ih.mp h⟩
        cases hlocale
      · intro h
        exact ih.mpr h.2
    · constructor
      · rintro ⟨catalogs, h⟩
        obtain ⟨c, hc, h⟩ := exists_of_bind_eq_ok h
        exact ⟨fun _ _ ↦ ⟨c, hc⟩, ih.mp ⟨catalogs, h⟩⟩
      · rintro ⟨hfirst, hrest⟩
        obtain ⟨c, hc⟩ := hfirst found rfl
        obtain ⟨catalogs, h⟩ := ih.mpr hrest
        exact ⟨catalogs, by rw [hc]; exact h⟩

theorem isAscending_loadNamed (hloaded : loaded.IsAscending)
    (h : (loadNamed read dir program loaded names).outcome = .ok catalogs) :
    catalogs.IsAscending := by
  induction names generalizing loaded with
  | nil =>
    obtain rfl := Except.ok.inj h
    exact hloaded
  | cons name rest ih =>
    rw [outcome_loadNamed_cons] at h
    rcases hfound : localeOfPath? (join dir name) program with - | found
    · rw [hfound] at h
      exact ih hloaded h
    · rw [hfound] at h
      obtain ⟨c, -, h⟩ := exists_of_bind_eq_ok h
      exact ih (hloaded.insert found c) h

/-- What a locale has after catalogs are loaded: the catalog in the file whose name belongs to it,
if that name is listed, and otherwise what it had before. -/
theorem get?_loadNamed (hnames : ∀ name ∈ names, fileName? (join dir name) = some name)
    (h : (loadNamed read dir program loaded names).outcome = .ok catalogs) (locale : String) :
    if locale ≠ "" ∧ nameFor program locale ∈ names then
      ∃ c, (loadCatalog read (join dir (nameFor program locale))).outcome = .ok c
        ∧ catalogs.get? locale = some c
    else catalogs.get? locale = loaded.get? locale := by
  induction names generalizing loaded with
  | nil =>
    rw [if_neg fun hmem ↦ List.not_mem_nil hmem.2, Except.ok.inj h]
  | cons name rest ih =>
    obtain ⟨hname, hrest⟩ := List.forall_mem_cons.mp hnames
    have hbelongs : localeOfPath? (join dir name) program = some locale
        ↔ locale ≠ "" ∧ name = nameFor program locale := localeOfPath?_eq_some_iff hname
    rw [outcome_loadNamed_cons] at h
    rcases hfound : localeOfPath? (join dir name) program with - | found
    · have hother : ¬(locale ≠ "" ∧ nameFor program locale = name) := by
        rintro ⟨hne, heq⟩
        rw [hfound] at hbelongs
        cases hbelongs.mpr ⟨hne, heq.symm⟩
      rw [hfound] at h
      simpa only [List.mem_cons, and_or_left, hother, false_or] using ih hrest h
    · obtain ⟨hne, hnamed⟩ := (localeOfPath?_eq_some_iff hname).mp hfound
      rw [hfound] at h
      obtain ⟨c, hc, h⟩ := exists_of_bind_eq_ok h
      have hlater := ih hrest h
      rw [Index.get?_insert] at hlater
      by_cases hsame : found = locale
      · subst hsame
        rw [if_pos ⟨hne, hnamed ▸ List.mem_cons_self⟩]
        by_cases hmem : nameFor program found ∈ rest
        · rwa [if_pos ⟨hne, hmem⟩] at hlater
        · rw [if_neg fun hall ↦ hmem hall.2, if_pos rfl] at hlater
          rw [hnamed] at hc
          exact ⟨c, hc, hlater⟩
      · have hother : ¬(locale ≠ "" ∧ nameFor program locale = name) := by
          rintro ⟨hne, heq⟩
          have hsome := hbelongs.mpr ⟨hne, heq.symm⟩
          rw [hfound] at hsome
          exact hsame (Option.some.inj hsome)
        rw [if_neg hsame] at hlater
        simpa only [List.mem_cons, and_or_left, hother, false_or] using hlater

end

theorem outcome_loadDirectory {tree : FileTree} {names : List String}
    (h : tree.names? dir = some names) (program : Option String) :
    (loadDirectory tree dir program).outcome
      = (loadNamed tree.readText dir program [] names).outcome := by
  obtain ⟨entries, hlocate, -⟩ := Entry.names?_eq_some_iff.mp h
  have hhas : tree.has dir = true := by
    rw [Entry.has, hlocate]
    rfl
  rw [loadDirectory, hhas, h]
  change (loadNamed _ _ _ _ _ >>= fun loaded ↦ _).outcome = _
  rw [Noted.outcome_bind]
  rcases (loadNamed tree.readText dir program [] names).outcome with fault | loaded
  · rfl
  · -- the notice about a directory without catalogs does not change the outcome
    rw [ok_bind]
    split
    · rfl
    · rfl

/-- Catalogs are loaded from a path that leads to a directory, by the names in it. -/
theorem loadDirectory_eq_ok {tree : FileTree} {program : Option String} {catalogs : Index Catalog}
    (h : (loadDirectory tree dir program).outcome = .ok catalogs) :
    ∃ entries, tree.locate dir = .ok (.directory entries)
      ∧ (loadNamed tree.readText dir program [] (Entry.listed entries)).outcome = .ok catalogs := by
  rcases hnames : tree.names? dir with - | names
  · rw [loadDirectory, hnames] at h
    split at h
    · cases h
    · cases h
  · obtain ⟨entries, hlocate, rfl⟩ := Entry.names?_eq_some_iff.mp hnames
    exact ⟨entries, hlocate, (outcome_loadDirectory hnames program).symm.trans h⟩

end MessageCatalog.Storage
