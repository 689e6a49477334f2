import MessageCatalog.Lookup.Layers
import MessageCatalog.Proofs.Storage.Loading
import MessageCatalog.Proofs.Storage.Proper

/-!
# Layers from a directory

The layers that a locale uses can be put together in two ways. Either the files that may hold their
catalogs are tried one by one, by names that are made of a program and a locale; or all catalogs of
a directory are loaded, by locales that are taken out of the names, and those that are wanted are
installed. Both lead to the same layers, as long as the system allows the names that are tried.

A name that is longer than any file's is in no directory. Trying it is an error all the same: the
system does not say then that there is no such file, but that the name is too long.
-/

namespace MessageCatalog

/-! ## Locales in names -/

namespace Locale

open Storage

theorem baseLanguage?_eq_some_iff {locale base : String} : baseLanguage? locale = some base
    ↔ base ≠ "" ∧ ∃ territory, '_' ∉ territory.toList ∧ locale = base ++ "_" ++ territory := by
  rw [baseLanguage?]
  constructor
  · intro h
    rcases hdrop : locale.toList.reverse.dropWhile (· ≠ '_') with - | ⟨c, before⟩
    · rw [hdrop] at h
      cases h
    · obtain ⟨behind, hbehind, hlocale⟩ : ∃ behind, '_' ∉ behind
          ∧ locale.toList.reverse = behind ++ '_' :: before := ⟨_, cut_iff.mp ⟨rfl, c, hdrop⟩⟩
      rw [hdrop] at h
      dsimp only at h
      split_ifs at h with hbefore
      obtain rfl := Option.some.inj h
      refine ⟨by simpa using hbefore, String.ofList behind.reverse, ?_, ?_⟩
      · rwa [String.toList_ofList, List.mem_reverse]
      · rw [← String.toList_inj, ← List.reverse_inj]
        exact hlocale.trans (by simp)
  · rintro ⟨hbase, territory, hterritory, rfl⟩
    have hreverse : (base ++ "_" ++ territory).toList.reverse
        = territory.toList.reverse ++ '_' :: base.toList.reverse := by simp
    obtain ⟨-, c, hdrop⟩ := cut_iff.mpr ⟨List.mem_reverse.not.mpr hterritory, hreverse⟩
    rw [hdrop]
    dsimp only
    rw [if_neg (by simpa using hbase), List.reverse_reverse, String.ofList_toList]

/-- The locales whose catalogs a locale uses are not empty, and what is not in it is not in them
either. -/
theorem forall_mem_layerOrder {locale : String} (hne : locale ≠ "") {c : Char}
    (hlocale : c ∉ locale.toList) : ∀ l ∈ layerOrder locale, l ≠ "" ∧ c ∉ l.toList := by
  intro l hl
  rcases List.mem_append.mp hl with hl | hl
  · obtain ⟨hbase, territory, -, rfl⟩ := baseLanguage?_eq_some_iff.mp (Option.mem_toList.mp hl)
    refine ⟨hbase, fun hc ↦ hlocale ?_⟩
    simp [hc]
  · obtain rfl := List.mem_singleton.mp hl
    exact ⟨hne, hlocale⟩

end Locale

namespace Lookup

open Storage

theorem isName_catalogName {program locale : String} (hprogram : '/' ∉ program.toList)
    (hlocale : '/' ∉ locale.toList) :
    IsName (catalogName program locale) ∧ isOutside (catalogName program locale) = false := by
  have hlast : (catalogName program locale).toList.getLast? = some 's' := by
    simp [toList_catalogName, List.getLast?_append, List.getLast?_cons]
  have hne : ∀ name : String, name.toList.getLast? ≠ some 's' →
      catalogName program locale ≠ name := by
    rintro name hname rfl
    exact hname hlast
  refine ⟨⟨hne _ (by decide), hne _ (by decide), hne _ (by decide), ?_⟩, ?_⟩
  · rw [toList_catalogName]
    simp [hprogram, hlocale]
  · rw [isOutside, decide_eq_false (hne _ (by decide)), decide_eq_false (hne _ (by decide))]
    rfl

/-- Whether the system lets a file of a directory have a name. -/
def Allows (dir name : String) : Prop :=
  pathFault? (join dir name) = none ∧ name.utf8ByteSize ≤ maxNameWidth

instance (dir name : String) : Decidable (Allows dir name) :=
  inferInstanceAs (Decidable (_ ∧ _))

/-! ## The two ways to a catalog -/

section

variable {tree : FileTree} {dir program : String} {catalogs : Index Catalog}
variable (hprogram : '/' ∉ program.toList)
variable (hload : (loadDirectory tree dir (some program)).outcome = .ok catalogs)

include hprogram hload

/-- Where a name is allowed, a catalog is loaded from its file exactly if it is among the catalogs
of the directory; otherwise there is no such file. -/
theorem outcome_loadCatalog_of_allows (htree : tree.IsProper) {locale : String}
    (hne : locale ≠ "") (hlocale : '/' ∉ locale.toList)
    (hallows : Allows dir (catalogName program locale)) :
    (loadCatalog tree.readText (join dir (catalogName program locale))).outcome
      = match catalogs.get? locale with
        | some c => .ok c
        | none => .error (.io (join dir (catalogName program locale)) .notFound) := by
  obtain ⟨entries, hlocate, hnamed⟩ := loadDirectory_eq_ok hload
  have hproper := htree.locate hlocate
  obtain ⟨hname, hinside⟩ := isName_catalogName hprogram hlocale
  have hdir := Entry.ne_empty_of_locate hlocate
  have hloaded := get?_loadNamed
    (fun name hname ↦ fileName?_join (hproper.isName hname) hdir) hnamed locale
  rw [nameFor_some] at hloaded
  by_cases hmem : catalogName program locale ∈ Entry.listed entries
  · rw [if_pos ⟨hne, hmem⟩] at hloaded
    obtain ⟨c, hc, hget⟩ := hloaded
    rw [hc, hget]
  · rw [if_neg fun hall ↦ hmem hall.2, Index.get?_nil] at hloaded
    have hnone := (Entry.named?_eq_none_iff hinside).mpr hmem
    have hlocated : tree.locate (join dir (catalogName program locale)) = .error .notFound := by
      rw [Entry.locate_join hname hlocate, hallows.1]
      dsimp only
      rw [if_neg (Nat.not_lt.mpr hallows.2), hnone]
    rw [hloaded, outcome_loadCatalog_of_locate hlocated]

theorem outcome_loadCatalog_of_lt {locale : String} (hlocale : '/' ∉ locale.toList)
    (hfault : pathFault? (join dir (catalogName program locale)) = none)
    (hwidth : maxNameWidth < (catalogName program locale).utf8ByteSize) :
    (loadCatalog tree.readText (join dir (catalogName program locale))).outcome
      = .error (.io (join dir (catalogName program locale)) .nameTooLong) := by
  obtain ⟨entries, hlocate, -⟩ := loadDirectory_eq_ok hload
  have hlocated := Entry.locate_join (isName_catalogName hprogram hlocale).1 hlocate
  rw [hfault] at hlocated
  dsimp only at hlocated
  rw [if_pos hwidth] at hlocated
  exact outcome_loadCatalog_of_locate hlocated

/-- Where a name is not allowed, the file cannot be read, and that is not for the lack of one. -/
theorem outcome_loadCatalog_of_not_allows {locale : String}
    (hlocale : '/' ∉ locale.toList) (hallows : ¬Allows dir (catalogName program locale)) :
    ∃ cause, cause ≠ .notFound
      ∧ (loadCatalog tree.readText (join dir (catalogName program locale))).outcome
        = .error (.io (join dir (catalogName program locale)) cause) := by
  cases hfault : pathFault? (join dir (catalogName program locale)) with
  | some cause =>
    obtain ⟨entries, hlocate, -⟩ := loadDirectory_eq_ok hload
    obtain ⟨hname, -⟩ := isName_catalogName hprogram hlocale
    have hlocated := Entry.locate_join hname hlocate
    rw [hfault] at hlocated
    refine ⟨cause, ?_, outcome_loadCatalog_of_locate hlocated⟩
    rintro rfl
    exact pathFault?_ne_notFound (join_ne_empty hname (Entry.ne_empty_of_locate hlocate)) hfault
  | none =>
    have hwidth := Nat.not_le.mp fun hwidth ↦ hallows ⟨hfault, hwidth⟩
    exact ⟨.nameTooLong, by rintro ⟨⟩,
      outcome_loadCatalog_of_lt hprogram hload hlocale hfault hwidth⟩

end

/-! ## Installed catalogs -/

namespace Layers

/-- The layers with the tables of catalogs on top, one after another. -/
def installAll (includeUnfinished : Bool) (l : Layers) (catalogs : List Catalog) : Layers :=
  catalogs.foldl (fun l c ↦ l.install (.ofCatalog c includeUnfinished)) l

variable {read : TextSource} {includeUnfinished : Bool} {l : Layers} {path : String}

theorem installAll_append (first others : List Catalog) :
    l.installAll includeUnfinished (first ++ others)
      = (l.installAll includeUnfinished first).installAll includeUnfinished others :=
  List.foldl_append

theorem outcome_installFile_of_ok {c : Catalog} (h : (loadCatalog read path).outcome = .ok c) :
    (l.installFile read includeUnfinished path).outcome
      = .ok (l.install (.ofCatalog c includeUnfinished)) := by
  rw [installFile, h]
  dsimp only
  rw [Noted.outcome_bind, h]
  rfl

theorem outcome_installFile_of_notFound {path' : String}
    (h : (loadCatalog read path).outcome = .error (.io path' .notFound)) :
    (l.installFile read includeUnfinished path).outcome = .ok l := by
  rw [installFile, h]

theorem outcome_installFile_of_error {fault : Fault} (hfault : ∀ path', fault ≠ .io path' .notFound)
    (h : (loadCatalog read path).outcome = .error fault) :
    (l.installFile read includeUnfinished path).outcome = .error fault := by
  rw [installFile, h]
  split
  · next path' heq => exact absurd (Except.error.inj heq) (hfault path')
  · rw [Noted.outcome_bind, h]
    rfl

variable {tree : FileTree} {dir program : String} {catalogs : Index Catalog}

/-- Where a name is allowed, its file adds the layer of the locale's catalog, if there is one. -/
theorem outcome_installFile_of_allows (htree : tree.IsProper) (hprogram : '/' ∉ program.toList)
    (hload : (loadDirectory tree dir (some program)).outcome = .ok catalogs) {locale : String}
    (hne : locale ≠ "") (hlocale : '/' ∉ locale.toList)
    (hallows : Allows dir (catalogName program locale)) :
    (l.installFile tree.readText includeUnfinished (join dir (catalogName program locale))).outcome
      = .ok (l.installAll includeUnfinished (catalogs.get? locale).toList) := by
  have hloaded := outcome_loadCatalog_of_allows hprogram hload htree hne hlocale hallows
  cases hget : catalogs.get? locale with
  | none =>
    rw [hget] at hloaded
    exact outcome_installFile_of_notFound hloaded
  | some c =>
    rw [hget] at hloaded
    exact outcome_installFile_of_ok hloaded

/-- Files are tried for one locale after another: up to the first name that is not allowed, each
locale of the directory's catalogs adds a layer, and the other ones add none. -/
theorem outcome_installFiles (includeUnfinished : Bool) (htree : tree.IsProper)
    (hprogram : '/' ∉ program.toList)
    (hload : (loadDirectory tree dir (some program)).outcome = .ok catalogs)
    {locales : List String} (hlocales : ∀ locale ∈ locales, locale ≠ "" ∧ '/' ∉ locale.toList) :
    ∀ l : Layers, if ∀ locale ∈ locales, Allows dir (catalogName program locale) then
        (installFiles tree.readText includeUnfinished l
            (locales.map fun locale ↦ join dir (catalogName program locale))).outcome
          = .ok (l.installAll includeUnfinished (locales.filterMap catalogs.get?))
      else ∃ locale ∈ locales, ¬Allows dir (catalogName program locale)
        ∧ ∃ cause, cause ≠ .notFound
        ∧ (installFiles tree.readText includeUnfinished l
            (locales.map fun locale ↦ join dir (catalogName program locale))).outcome
          = .error (.io (join dir (catalogName program locale)) cause) := by
  induction locales with
  | nil =>
    intro l
    rw [if_pos fun _ h ↦ absurd h List.not_mem_nil]
    rfl
  | cons locale rest ih =>
    intro l
    obtain ⟨⟨hne, hslash⟩, hrest⟩ := List.forall_mem_cons.mp hlocales
    simp only [List.map_cons, installFiles, Noted.outcome_bind, List.forall_mem_cons]
    by_cases hallows : Allows dir (catalogName program locale)
    · have hsplit : (locale :: rest).filterMap catalogs.get?
          = (catalogs.get? locale).toList ++ rest.filterMap catalogs.get? := by
        cases hget : catalogs.get? locale <;> simp [hget]
      have hlater := ih hrest (l.installAll includeUnfinished (catalogs.get? locale).toList)
      rw [outcome_installFile_of_allows htree hprogram hload hne hslash hallows, hsplit,
        installAll_append]
      by_cases hall : ∀ later ∈ rest, Allows dir (catalogName program later)
      · rw [if_pos hall] at hlater
        rw [if_pos ⟨hallows, hall⟩]
        exact hlater
      · rw [if_neg hall] at hlater
        rw [if_neg fun h ↦ hall h.2]
        obtain ⟨later, hmem, hlater⟩ := hlater
        exact ⟨later, List.mem_cons_of_mem _ hmem, hlater⟩
    · obtain ⟨cause, hcause, herror⟩ :=
        outcome_loadCatalog_of_not_allows hprogram hload hslash hallows
      have hfault : ∀ path', Fault.io (join dir (catalogName program locale)) cause
          ≠ .io path' .notFound := fun _ h ↦ hcause (Fault.io.inj h).2
      rw [if_neg fun h ↦ hallows h.1, outcome_installFile_of_error hfault herror]
      exact ⟨locale, List.mem_cons_self, hallows, cause, hcause, rfl⟩

/-- The notice about a locale without translations does not change what is loaded. -/
theorem outcome_load (read : TextSource) (dir program locale : String) (includeUnfinished : Bool) :
    (load read dir program locale includeUnfinished).outcome
      = (installFiles read includeUnfinished {} (paths dir program locale)).outcome := by
  rw [load, Noted.outcome_bind]
  cases (installFiles read includeUnfinished {} (paths dir program locale)).outcome with
  | error fault => rfl
  | ok layers =>
    change (if layers.isEmpty then _ else _ : Noted Layers).outcome = _
    split <;> rfl

/-- Where a program's catalogs in a directory can be loaded, the layers that a locale uses are the
catalogs of its own locales, as long as the system allows the names of their files. Otherwise the
layers cannot be loaded, since a name that is not allowed is not taken for one without a file. -/
theorem load_of_loadDirectory (htree : tree.IsProper) (hprogram : '/' ∉ program.toList)
    {locale : String} (hlocale : '/' ∉ locale.toList) (hne : locale ≠ "")
    (hload : (loadDirectory tree dir (some program)).outcome = .ok catalogs)
    (includeUnfinished : Bool) :
    if ∀ l ∈ Locale.layerOrder locale, Allows dir (catalogName program l) then
      (load tree.readText dir program locale includeUnfinished).outcome
        = .ok (installAll includeUnfinished {}
          ((Locale.layerOrder locale).filterMap catalogs.get?))
    else ∃ l ∈ Locale.layerOrder locale, ¬Allows dir (catalogName program l)
      ∧ ∃ cause, cause ≠ .notFound
      ∧ (load tree.readText dir program locale includeUnfinished).outcome
        = .error (.io (join dir (catalogName program l)) cause) := by
  rw [outcome_load, paths]
  exact outcome_installFiles includeUnfinished htree hprogram hload
    (Locale.forall_mem_layerOrder hne hlocale) {}

/-- A directory with a program's catalogs for a language and for one of its territories, a backup
of one of them and a catalog of another program. -/
def layeredTree : FileTree :=
  let files : List (String × String) := [
    ("d/p_de.ts", "<TS><context><name>A</name></context></TS>"),
    ("d/p_de_AT.ts", "<TS></TS>"),
    ("d/p_de.ts~", ""),
    ("d/q_de.ts", "<TS/>")]
  files.foldl (fun tree (path, text) ↦ tree.provide path (some text.toUTF8)) (.directory [])

theorem isProper_layeredTree : layeredTree.IsProper :=
  List.foldlRecOn _ _ Entry.isProper_empty fun _ htree _ _ ↦ htree.provide _ _

theorem loadDirectory_layeredTree : (loadDirectory layeredTree "d" (some "p")).outcome
    = .ok [("de", { contexts := [{ name := "A" }] }), ("de_AT", {})] := by
  decide +kernel

theorem load_of_loadDirectory_layeredTree :
    (load layeredTree.readText "d" "p" "de_AT" false).outcome
      = .ok (installAll false {} [{ contexts := [{ name := "A" }] }, {}]) := by
  have hprogram : '/' ∉ "p".toList := by decide
  have hlocale : '/' ∉ "de_AT".toList := by decide
  have h := load_of_loadDirectory isProper_layeredTree hprogram hlocale (by decide)
    loadDirectory_layeredTree false
  rwa [if_pos (by decide +kernel)] at h

/-- A locale whose name is one character too long for the name of its catalog's file. -/
def longLocale : String := String.ofList (List.replicate 251 'x')

/-- A directory can be loaded where the layers cannot: there is no file for a locale with a long
name, and that is an error. -/
theorem not_load_of_loadDirectory :
    (layeredTree.IsProper ∧ '/' ∉ "p".toList ∧ '/' ∉ longLocale.toList
        ∧ '\x00' ∉ longLocale.toList ∧ longLocale ≠ "")
      ∧ (loadDirectory layeredTree "d" (some "p")).outcome
        = .ok [("de", { contexts := [{ name := "A" }] }), ("de_AT", {})]
      ∧ (load layeredTree.readText "d" "p" longLocale false).outcome
        = .error (.io (join "d" (catalogName "p" longLocale)) .nameTooLong) := by
  have hchars (n : Nat) : ∀ c ∈ (String.ofList (List.replicate n 'x')).toList, c = 'x' := by
    intro c hc
    rw [String.toList_ofList] at hc
    exact List.eq_of_mem_replicate hc
  have hx : ∀ c ∈ longLocale.toList, c = 'x' := hchars 251
  have hslash : '/' ∉ longLocale.toList := fun hmem ↦ absurd (hx _ hmem) (by decide)
  have hnull : '\x00' ∉ longLocale.toList := fun hmem ↦ absurd (hx _ hmem) (by decide)
  refine ⟨⟨isProper_layeredTree, by decide, hslash, hnull, by decide +kernel⟩,
    loadDirectory_layeredTree, ?_⟩
  -- a locale without a territory is its only layer
  have hlayers : Locale.layerOrder longLocale = [longLocale] := by
    have hbase : Locale.baseLanguage? longLocale = none := by
      refine Option.eq_none_iff_forall_not_mem.mpr fun base h ↦ ?_
      obtain ⟨-, territory, -, hlocale⟩ := Locale.baseLanguage?_eq_some_iff.mp h
      have hunderscore : '_' ∈ longLocale.toList := by simp [hlocale]
      exact absurd (hx _ hunderscore) (by decide)
    rw [Locale.layerOrder, hbase]
    rfl
  have hprogram : '/' ∉ "p".toList := by decide
  have hname := (isName_catalogName hprogram hslash).1
  have hnullName : '\x00' ∉ (catalogName "p" longLocale).toList := by
    rw [toList_catalogName]
    simp [hnull]
  have hpath : pathFault? (join "d" (catalogName "p" longLocale)) = none :=
    (pathFault?_join_eq_none_iff hname (by decide)).mpr ⟨by decide, hnullName, by decide +kernel⟩
  have hwidth : maxNameWidth < (catalogName "p" longLocale).utf8ByteSize := by decide +kernel
  have hloaded := outcome_loadCatalog_of_lt hprogram loadDirectory_layeredTree hslash hpath hwidth
  have hfault (path path' : String) : Fault.io path .nameTooLong ≠ .io path' .notFound := by
    rintro ⟨⟩
  rw [outcome_load, paths, hlayers, List.map_singleton, installFiles, Noted.outcome_bind,
    outcome_installFile_of_error (hfault _) hloaded]
  rfl

end Layers

end Lookup

end MessageCatalog
