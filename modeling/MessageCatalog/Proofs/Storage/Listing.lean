import Mathlib.Data.List.Perm.Basic
import MessageCatalog.Proofs.Storage.Loading
import MessageCatalog.Proofs.Storage.Proper

/-!
# The order in which directories are listed

A file system lists a directory in an order that means nothing, and two file systems with the same
files may do so in different orders. Nothing is read differently then, as a path is followed by
names. The catalogs of a directory are loaded one by one in the order of the listing, but they are
kept by locale: the order decides at most which of several faults is met first.

No catalog takes the place of another. A locale is taken out of a name by cutting away what all
names wanted have in common, so two names of one directory do not have the same locale, as long as
the directory lists each name once.
-/

namespace MessageCatalog.Storage

/-! ## Trees with the same files -/

/-- A name is listed in a directory if it leads to something that is inside the tree. -/
theorem Entry.mem_listed_iff {tree : FileTree} {above : List String}
    {entries : List (String × Entry)} (hat : tree.at? above = some (directory entries))
    {name : String} :
    name ∈ listed entries ↔ isOutside name = false ∧ tree.view (above ++ [name]) ≠ none := by
  constructor
  · intro hname
    have hinside : isOutside name = false := by
      simpa using (List.mem_filter.mp hname).2
    refine ⟨hinside, fun hnone ↦ ?_⟩
    rw [view, at?_concat hat, Option.map_eq_none_iff, named?_eq_none_iff hinside] at hnone
    exact hnone hname
  · rintro ⟨hinside, hview⟩
    by_contra hname
    refine hview ?_
    rw [view, at?_concat hat, (named?_eq_none_iff hinside).mpr hname, Option.map_none]

/-- Trees with the same files at the same places. They may list their directories in different
orders. -/
def SameFiles (tree tree' : FileTree) : Prop :=
  ∀ names, tree'.view names = tree.view names

section

variable {tree tree' : FileTree}

open Entry

theorem sameFiles_of_perm {entries entries' : List (String × Entry)}
    (hnodup : (entries.map (·.1)).Nodup) (hperm : entries.Perm entries') :
    SameFiles (directory entries) (directory entries') := by
  intro names
  rcases names with - | ⟨name, rest⟩
  · rfl
  · rw [view_directory_cons, view_directory_cons, named?, named?, Index.get?_of_perm hnodup hperm]

namespace SameFiles

/-- At each place there is nothing in both trees, the same file, or a directory. -/
theorem at?_cases (h : SameFiles tree tree') (names : List String) :
    (tree.at? names = none ∧ tree'.at? names = none)
      ∨ (∃ content, tree.at? names = some (file content)
        ∧ tree'.at? names = some (file content))
      ∨ ∃ entries entries', tree.at? names = some (directory entries)
        ∧ tree'.at? names = some (directory entries') := by
  have hview := h names
  rcases hat : tree.at? names with - | content | entries
  · left
    rw [view, view, hat, Option.map_none, Option.map_eq_none_iff] at hview
    exact ⟨rfl, hview⟩
  · right; left
    rw [view_eq_file_iff.mpr hat, view_eq_file_iff] at hview
    exact ⟨content, rfl, hview⟩
  · right; right
    rw [view_eq_directory_iff.mpr ⟨entries, hat⟩, view_eq_directory_iff] at hview
    obtain ⟨entries', hat'⟩ := hview
    exact ⟨entries, entries', rfl, hat'⟩

theorem follow_eq (h : SameFiles tree tree') (steps : List Step) : ∀ trail : List String,
    follow tree' trail steps = follow tree trail steps := by
  induction steps with
  | nil =>
    intro trail
    rfl
  | cons step rest ih =>
    intro trail
    have hstep : follow tree' trail [step] = follow tree trail [step] := by
      rw [follow.eq_def tree', follow.eq_def tree]
      dsimp only
      rcases h.at?_cases trail.reverse with
        ⟨hat, hat'⟩ | ⟨content, hat, hat'⟩ | ⟨entries, entries', hat, hat'⟩
      · rw [hat, hat']
      · rw [hat, hat']
      · rw [hat, hat']
        rcases step with - | - | name
        · rfl
        · rfl
        · rfl
    rw [follow_cons tree', follow_cons tree, hstep]
    exact congrArg _ (funext ih)

theorem followPath_eq (h : SameFiles tree tree') (path : String) (steps : List Step) :
    followPath tree' path steps = followPath tree path steps := by
  rw [followPath, followPath]
  split
  · rfl
  · exact h.follow_eq steps _

theorem readText_eq (h : SameFiles tree tree') : tree'.readText = tree.readText := by
  funext path
  rw [readText, readText, locate, locate, h.followPath_eq]
  rcases followPath tree path ((parts path).map Step.ofPart) with cause | trail
  · rfl
  · rw [ok_bind, ok_bind]
    rcases h.at?_cases trail.reverse with
      ⟨hat, hat'⟩ | ⟨content, hat, hat'⟩ | ⟨entries, entries', hat, hat'⟩
    · rw [hat, hat']
    · rw [hat, hat']
    · rw [hat, hat']
      rfl

/-- Two listings of one directory have the same names, if neither has one twice. -/
theorem perm_names (h : SameFiles tree tree') {dir : String} {names names' : List String}
    (hnames : tree.names? dir = some names) (hnames' : tree'.names? dir = some names')
    (hnodup : names.Nodup) (hnodup' : names'.Nodup) : names.Perm names' := by
  obtain ⟨entries, hlocate, rfl⟩ := names?_eq_some_iff.mp hnames
  obtain ⟨entries', hlocate', rfl⟩ := names?_eq_some_iff.mp hnames'
  obtain ⟨trail, hfollow, hat⟩ := exists_of_locate hlocate
  obtain ⟨trail', hfollow', hat'⟩ := exists_of_locate hlocate'
  rw [h.followPath_eq, hfollow] at hfollow'
  obtain rfl := Except.ok.inj hfollow'
  refine (List.perm_ext_iff_of_nodup hnodup hnodup').mpr fun name ↦ ?_
  rw [mem_listed_iff hat, mem_listed_iff hat', h]

end SameFiles

end

/-! ## Catalogs by names in any order -/

section

variable {read : TextSource} {dir : String} {program : Option String}
variable {names names' : List String} {catalogs : Index Catalog}
variable (hnames : ∀ name ∈ names, fileName? (join dir name) = some name)
variable (h : (loadNamed read dir program [] names).outcome = .ok catalogs)

include hnames h

/-- The same catalogs are loaded by the same names in another order. -/
theorem loadNamed_of_perm (hperm : names.Perm names') :
    (loadNamed read dir program [] names').outcome = .ok catalogs := by
  have hnames' : ∀ name ∈ names', fileName? (join dir name) = some name :=
    fun name hname ↦ hnames name (hperm.mem_iff.mpr hname)
  obtain ⟨catalogs', h'⟩ : ∃ catalogs', (loadNamed read dir program [] names').outcome
      = .ok catalogs' :=
    exists_loadNamed_iff.mpr fun name hname ↦
      exists_loadNamed_iff.mp ⟨catalogs, h⟩ name (hperm.mem_iff.mpr hname)
  have hsame : catalogs' = catalogs := by
    refine Index.IsAscending.ext (isAscending_loadNamed Index.isAscending_nil h')
      (isAscending_loadNamed Index.isAscending_nil h) fun locale ↦ ?_
    have hget := get?_loadNamed hnames h locale
    have hget' := get?_loadNamed hnames' h' locale
    simp only [← hperm.mem_iff] at hget'
    by_cases hmem : locale ≠ "" ∧ nameFor program locale ∈ names
    · rw [if_pos hmem] at hget hget'
      obtain ⟨c, hc, hget⟩ := hget
      obtain ⟨c', hc', hget'⟩ := hget'
      rw [hget, hget', Except.ok.inj (hc.symm.trans hc')]
    · rw [if_neg hmem] at hget hget'
      rw [hget, hget']
  rw [h', hsame]

theorem exists_get?_loadNamed {name : String} (hname : name ∈ names) {locale : String}
    (hlocale : localeOfPath? (join dir name) program = some locale) :
    ∃ c, (loadCatalog read (join dir name)).outcome = .ok c ∧ catalogs.get? locale = some c := by
  obtain ⟨hne, rfl⟩ := (localeOfPath?_eq_some_iff (hnames name hname)).mp hlocale
  have hget := get?_loadNamed hnames h locale
  rwa [if_pos ⟨hne, hname⟩] at hget

theorem mem_locales_iff {locale : String} : locale ∈ catalogs.map (·.1)
    ↔ ∃ name ∈ names, localeOfPath? (join dir name) program = some locale := by
  constructor
  · intro hmem
    by_contra hnone
    have hget := get?_loadNamed hnames h locale
    rw [if_neg] at hget
    · exact Index.get?_eq_none_iff.mp hget hmem
    · rintro ⟨hne, hname⟩
      exact hnone ⟨_, hname, (localeOfPath?_eq_some_iff (hnames _ hname)).mpr ⟨hne, rfl⟩⟩
  · rintro ⟨name, hname, hlocale⟩
    obtain ⟨c, -, hget⟩ := exists_get?_loadNamed hnames h hname hlocale
    exact List.mem_map.mpr ⟨_, Index.mem_of_get? hget, rfl⟩

/-- There are as many locales as names that belong to one: no two have the same. -/
theorem perm_locales (hnodup : names.Nodup) : (catalogs.map (·.1)).Perm
    (names.filterMap fun name ↦ localeOfPath? (join dir name) program) := by
  have hlocales : (names.filterMap fun name ↦ localeOfPath? (join dir name) program).Nodup := by
    rw [List.Nodup, List.pairwise_filterMap]
    refine hnodup.imp_of_mem fun {name name'} hname hname' hne locale hlocale locale' hlocale' ↦ ?_
    rintro rfl
    obtain ⟨-, heq⟩ := (localeOfPath?_eq_some_iff (hnames _ hname)).mp hlocale
    obtain ⟨-, heq'⟩ := (localeOfPath?_eq_some_iff (hnames _ hname')).mp hlocale'
    exact hne (heq.trans heq'.symm)
  have hcatalogs := (isAscending_loadNamed Index.isAscending_nil h).nodup
  refine (List.perm_ext_iff_of_nodup hcatalogs hlocales).mpr fun locale ↦ ?_
  rw [mem_locales_iff hnames h, List.mem_filterMap]

end

/-! ## Directories -/

/-- A directory is loaded in whatever order it is listed. It is loaded if every file is whose name
belongs to a locale, and then there is one catalog for each of these files, under its locale. -/
theorem loadDirectory_of_sameFiles {tree tree' : FileTree} (htree : tree.IsProper)
    (hsame : SameFiles tree tree') {dir : String} {names names' : List String}
    (hnames : tree.names? dir = some names) (hnames' : tree'.names? dir = some names')
    (hnodup : names.Nodup) (hnodup' : names'.Nodup) (program : Option String) :
    (∀ catalogs, (loadDirectory tree' dir program).outcome = .ok catalogs
        ↔ (loadDirectory tree dir program).outcome = .ok catalogs)
      ∧ ((∃ catalogs, (loadDirectory tree dir program).outcome = .ok catalogs)
        ↔ ∀ name ∈ names, ∀ locale, localeOfPath? (join dir name) program = some locale →
          ∃ c, (loadCatalog tree.readText (join dir name)).outcome = .ok c)
      ∧ ∀ catalogs, (loadDirectory tree dir program).outcome = .ok catalogs →
        (catalogs.map (·.1)).Perm
            (names.filterMap fun name ↦ localeOfPath? (join dir name) program)
          ∧ ∀ name ∈ names, ∀ locale, localeOfPath? (join dir name) program = some locale →
            ∃ c, (loadCatalog tree.readText (join dir name)).outcome = .ok c
              ∧ catalogs.get? locale = some c := by
  have hperm := hsame.perm_names hnames hnames' hnodup hnodup'
  have hproper : ∀ name ∈ names, fileName? (join dir name) = some name := by
    intro name hname
    obtain ⟨entries, hlocate, rfl⟩ := Entry.names?_eq_some_iff.mp hnames
    exact fileName?_join ((htree.locate hlocate).isName hname) (Entry.ne_empty_of_locate hlocate)
  have hproper' : ∀ name ∈ names', fileName? (join dir name) = some name :=
    fun name hname ↦ hproper name (hperm.mem_iff.mpr hname)
  rw [outcome_loadDirectory hnames, outcome_loadDirectory hnames', hsame.readText_eq]
  refine ⟨fun catalogs ↦ ?_, exists_loadNamed_iff, fun catalogs h ↦ ?_⟩
  · constructor
    · intro h
      exact loadNamed_of_perm hproper' h hperm.symm
    · intro h
      exact loadNamed_of_perm hproper h hperm
  · exact ⟨perm_locales hproper h hnodup, fun name hname locale ↦
      exists_get?_loadNamed hproper h hname⟩

/-- A directory with the catalogs of a program for two locales, and a file of another kind. -/
def mixedEntries : List (String × Entry) := [
  ("p_zh.ts", .file "<TS language='zh'/>".toUTF8),
  ("p_zh.qm", .file "p".toUTF8),
  ("p_de.ts", .file "<TS/>".toUTF8)]

theorem isProper_mixedEntries : Entry.IsProper (.directory mixedEntries) := by
  have hnames : ∀ name ∈ mixedEntries.map (·.1), IsName name := by decide
  refine .of_directory (fun pair hpair ↦ ?_) fun pair hpair ↦ ?_
  · exact Or.inr (hnames _ (List.mem_map_of_mem hpair))
  · simp only [mixedEntries, List.mem_cons, List.not_mem_nil, or_false] at hpair
    rcases hpair with rfl | rfl | rfl <;> exact .of_file _

theorem loadDirectory_of_sameFiles_mixed :
    (loadDirectory (.directory mixedEntries.reverse) "." (some "p")).outcome
        = .ok [("de", {}), ("zh", { language := some "zh" })]
      ∧ ["de", "zh"].Perm
        (["p_zh.ts", "p_zh.qm", "p_de.ts"].filterMap fun name ↦
          localeOfPath? (join "." name) (some "p")) := by
  have hsame : SameFiles (.directory mixedEntries) (.directory mixedEntries.reverse) :=
    sameFiles_of_perm (by decide) (List.reverse_perm _).symm
  have hnames : Entry.names? (.directory mixedEntries) "."
      = some ["p_zh.ts", "p_zh.qm", "p_de.ts"] := by decide +kernel
  have hnames' : Entry.names? (.directory mixedEntries.reverse) "."
      = some ["p_de.ts", "p_zh.qm", "p_zh.ts"] := by decide +kernel
  have hload : (loadDirectory (.directory mixedEntries) "." (some "p")).outcome
      = .ok [("de", {}), ("zh", { language := some "zh" })] := by decide +kernel
  obtain ⟨hiff, -, hkept⟩ := loadDirectory_of_sameFiles isProper_mixedEntries hsame hnames hnames'
    (by decide) (by decide) (some "p")
  exact ⟨(hiff _).mpr hload, (hkept _ hload).1⟩

end MessageCatalog.Storage
