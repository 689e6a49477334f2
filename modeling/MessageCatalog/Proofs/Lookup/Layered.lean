import MessageCatalog.Proofs.Catalog.Faults
import MessageCatalog.Proofs.Lookup.Directory

/-!
# Layers from files

A locale uses the catalog of its language, if it names a territory, and its own. Each of their files
may be missing, but one that is there has to hold a catalog: otherwise no layers are loaded, and the
fault is that of the first such file. A file is missing if there is nothing at its path. No other
fault is taken for that, and a document is never blamed for a missing file.

Of a file that is loaded, a lookup sees no more than its table (`table?`). The catalog of the locale
is asked first, and whatever it leaves open goes on to that of the language. So another file on top
may change answers but does not take one away.
-/

namespace MessageCatalog.Lookup.Layers

open Storage

/-! ## Single files -/

/-- The file that may hold the catalog of a locale. -/
def path (dir program locale : String) : String :=
  join dir (catalogName program locale)

/-- The table of the catalog in a file, if one is loaded. -/
def table? (read : TextSource) (includeUnfinished : Bool) (path : String) : Option Table :=
  (loadCatalog read path).outcome.toOption.map (Table.ofCatalog · includeUnfinished)

/-- Why a catalog in a file is not loaded, unless the file is missing. -/
def obstacle? (read : TextSource) (path : String) : Option Fault :=
  match (loadCatalog read path).outcome with
  | .ok _ | .error (.io _ .notFound) => none
  | .error fault => some fault

section

variable {read : TextSource} {includeUnfinished : Bool} {file : String}

/-- A catalog is loaded, or its file is missing, or something is in the way. -/
theorem loadCatalog_cases (read : TextSource) (file : String) :
    (∃ c, (loadCatalog read file).outcome = .ok c)
      ∨ (∃ file', (loadCatalog read file).outcome = .error (.io file' .notFound))
      ∨ ∃ fault, (loadCatalog read file).outcome = .error fault
        ∧ ∀ file', fault ≠ .io file' .notFound := by
  rcases (loadCatalog read file).outcome with fault | c
  · by_cases hmissing : ∃ file', fault = .io file' .notFound
    · obtain ⟨file', rfl⟩ := hmissing
      exact .inr (.inl ⟨file', rfl⟩)
    · exact .inr (.inr ⟨fault, rfl, not_exists.mp hmissing⟩)
  · exact .inl ⟨c, rfl⟩

theorem table?_of_ok {c : Catalog} (h : (loadCatalog read file).outcome = .ok c) :
    table? read includeUnfinished file = some (.ofCatalog c includeUnfinished) := by
  rw [table?, h]
  rfl

theorem table?_of_error {fault : Fault} (h : (loadCatalog read file).outcome = .error fault) :
    table? read includeUnfinished file = none := by
  rw [table?, h]
  rfl

theorem obstacle?_of_ok {c : Catalog} (h : (loadCatalog read file).outcome = .ok c) :
    obstacle? read file = none := by
  rw [obstacle?, h]

theorem obstacle?_of_notFound {file' : String}
    (h : (loadCatalog read file).outcome = .error (.io file' .notFound)) :
    obstacle? read file = none := by
  rw [obstacle?, h]

theorem obstacle?_of_error {fault : Fault} (hfault : ∀ file', fault ≠ .io file' .notFound)
    (h : (loadCatalog read file).outcome = .error fault) : obstacle? read file = some fault := by
  rw [obstacle?, h]
  split
  · next heq => cases heq
  · next file' heq => exact absurd (Except.error.inj heq) (hfault file')
  · next heq => rw [Except.error.inj heq]

/-! ## Files one after another -/

theorem outcome_installFile (read : TextSource) (includeUnfinished : Bool) (l : Layers)
    (file : String) :
    (l.installFile read includeUnfinished file).outcome = match obstacle? read file with
      | some fault => .error fault
      | none => .ok ⟨l.tables ++ (table? read includeUnfinished file).toList⟩ := by
  rcases loadCatalog_cases read file with ⟨c, h⟩ | ⟨file', h⟩ | ⟨fault, h, hfault⟩
  · rw [outcome_installFile_of_ok h, obstacle?_of_ok h, table?_of_ok h]
    rfl
  · rw [outcome_installFile_of_notFound h, obstacle?_of_notFound h, table?_of_error h]
    dsimp only
    rw [Option.toList_none, List.append_nil]
  · rw [outcome_installFile_of_error hfault h, obstacle?_of_error hfault h]

/-- Files add their tables one after another, up to the first with something in the way. -/
theorem outcome_installFiles_eq (read : TextSource) (includeUnfinished : Bool)
    (files : List String) (l : Layers) :
    (installFiles read includeUnfinished l files).outcome
      = match files.findSome? (obstacle? read) with
        | some fault => .error fault
        | none => .ok ⟨l.tables ++ files.filterMap (table? read includeUnfinished)⟩ := by
  induction files generalizing l with
  | nil =>
    rw [List.findSome?_nil, List.filterMap_nil, List.append_nil]
    rfl
  | cons file rest ih =>
    rw [installFiles, Noted.outcome_bind, outcome_installFile, List.findSome?_cons]
    rcases obstacle? read file with - | fault
    · dsimp only
      rw [ok_bind, ih, List.append_assoc, List.filterMap_cons]
      rcases table? read includeUnfinished file with - | t
      · rfl
      · rfl
    · rfl

end

/-! ## Missing files -/

section

variable {read : TextSource} {tree : FileTree} {file : String}

theorem read_of_notFound {file' : String}
    (h : (loadCatalog read file).outcome = .error (.io file' .notFound)) :
    read file = .error .notFound := by
  rw [outcome_loadCatalog] at h
  rcases hread : read file with cause | document
  · rw [hread] at h
    rw [(Fault.io.inj (Except.error.inj h)).2]
  · rw [hread] at h
    exact absurd (blamesDocument_parse document _ h) Bool.false_ne_true

theorem has_of_readText {text : String} (h : tree.readText file = .ok text) :
    tree.has file = true := by
  obtain ⟨e, hlocate, -⟩ := exists_of_bind_eq_ok h
  rw [Entry.has, hlocate]
  rfl

theorem has_of_notFound (h : tree.readText file = .error .notFound) : tree.has file = false := by
  rw [Entry.readText] at h
  rcases hlocate : tree.locate file with cause | content | entries
  · rw [Entry.has, hlocate]
    rfl
  -- what is there can be read, or there is another reason why not
  · rw [hlocate, ok_bind] at h
    dsimp only at h
    split at h
    · cases h
    · cases h
  · rw [hlocate] at h
    cases h

theorem has_eq_isSome_table? (h : obstacle? tree.readText file = none)
    (includeUnfinished : Bool) :
    tree.has file = (table? tree.readText includeUnfinished file).isSome := by
  rcases loadCatalog_cases tree.readText file with ⟨c, hc⟩ | ⟨file', hc⟩ | ⟨fault, hc, hfault⟩
  · obtain ⟨document, hread, -⟩ := loadCatalog_eq_ok_iff.mp hc
    rw [table?_of_ok hc, has_of_readText hread]
    rfl
  · rw [table?_of_error hc]
    exact has_of_notFound (read_of_notFound hc)
  · rw [obstacle?_of_error hfault hc] at h
    cases h

end

/-! ## Trees that grow -/

section

variable {tree after : FileTree} {file : String} {includeUnfinished : Bool}

theorem exists_of_table? {t : Table} (h : table? tree.readText includeUnfinished file = some t) :
    ∃ c, (loadCatalog tree.readText file).outcome = .ok c
      ∧ Table.ofCatalog c includeUnfinished = t := by
  obtain ⟨c, hc, ht⟩ := Option.map_eq_some_iff.mp h
  exact ⟨c, toOption_eq_some_iff.mp hc, ht⟩

/-- A catalog that is loaded is loaded from a tree with more files too. -/
theorem loadCatalog_of_extends {c : Catalog} (hextends : Entry.Extends tree after)
    (h : (loadCatalog tree.readText file).outcome = .ok c) :
    (loadCatalog after.readText file).outcome = .ok c := by
  obtain ⟨document, hread, hparse⟩ := loadCatalog_eq_ok_iff.mp h
  exact loadCatalog_eq_ok_iff.mpr ⟨document, Entry.readText_of_extends hextends hread, hparse⟩

end

/-! ## The first of several answers -/

section

variable {α β γ : Type}

theorem findSome?_toList (o : Option α) (f : α → Option β) :
    o.toList.findSome? f = o.bind f := by
  rcases o with - | a
  · rfl
  · exact List.findSome?_singleton

theorem findSome?_filterMap (l : List α) (f : α → Option β) (g : β → Option γ) :
    (l.filterMap f).findSome? g = l.findSome? fun a ↦ (f a).bind g := by
  induction l with
  | nil => rfl
  | cons a rest ih =>
    rw [List.filterMap_cons, List.findSome?_cons]
    rcases f a with - | b
    · exact ih
    · rw [List.findSome?_cons, ih]
      rfl

end

/-! ## The layers of a locale -/

section

variable (read : TextSource) (dir program locale : String) (includeUnfinished : Bool)

/-- Why the layers of a locale are not loaded: the file of its language is tried first. -/
def fault? : Option Fault :=
  ((Locale.baseLanguage? locale).bind fun base ↦ obstacle? read (path dir program base)).or
    (obstacle? read (path dir program locale))

/-- The layers that are in the files of a locale. -/
def found : Layers where
  tables := (paths dir program locale).filterMap (table? read includeUnfinished)

theorem outcome_load_eq : (load read dir program locale includeUnfinished).outcome
    = match fault? read dir program locale with
      | some fault => .error fault
      | none => .ok (found read dir program locale includeUnfinished) := by
  have hfault : (paths dir program locale).findSome? (obstacle? read)
      = fault? read dir program locale := by
    rw [paths, Locale.layerOrder, List.findSome?_map, List.findSome?_append, findSome?_toList,
      List.findSome?_singleton]
    rfl
  rw [outcome_load, outcome_installFiles_eq, hfault]
  rfl

theorem load_eq_error_iff {fault : Fault} :
    (load read dir program locale includeUnfinished).outcome = .error fault
      ↔ fault? read dir program locale = some fault := by
  rw [outcome_load_eq]
  rcases fault? read dir program locale with - | fault'
  · constructor
    · rintro ⟨⟩
    · rintro ⟨⟩
  · rw [Except.error.injEq, Option.some.injEq]

theorem load_eq_ok_iff {layers : Layers} :
    (load read dir program locale includeUnfinished).outcome = .ok layers
      ↔ fault? read dir program locale = none
        ∧ found read dir program locale includeUnfinished = layers := by
  rw [outcome_load_eq]
  rcases fault? read dir program locale with - | fault
  · rw [Except.ok.injEq, and_iff_right rfl]
  · constructor
    · rintro ⟨⟩
    · rintro ⟨⟨⟩, -⟩

/-- A lookup asks the file of the locale first, and then that of its language. -/
theorem translate?_found (q : Query) :
    (found read dir program locale includeUnfinished).translate? q
      = ((table? read includeUnfinished (path dir program locale)).bind (·.translate? q)).or
        ((Locale.baseLanguage? locale).bind fun base ↦
          (table? read includeUnfinished (path dir program base)).bind (·.translate? q)) := by
  have hreverse : (Locale.baseLanguage? locale).toList.reverse
      = (Locale.baseLanguage? locale).toList := by
    rcases Locale.baseLanguage? locale with - | base
    · rfl
    · rfl
  rw [translate?, found, ← List.filterMap_reverse, findSome?_filterMap, paths, ← List.map_reverse,
    List.findSome?_map, Locale.layerOrder, List.reverse_append, hreverse, List.findSome?_append,
    findSome?_toList, List.reverse_singleton, List.findSome?_singleton]
  rfl

end

section

variable {tree after : FileTree} {dir program locale : String} {includeUnfinished : Bool}

theorem obstacle?_of_fault? {read : TextSource} (h : fault? read dir program locale = none) :
    ∀ l ∈ Locale.layerOrder locale, obstacle? read (path dir program l) = none := by
  obtain ⟨hbase, hlocale⟩ := Option.or_eq_none_iff.mp h
  intro l hl
  rcases List.mem_append.mp hl with hl | hl
  · exact Option.bind_eq_none_iff.mp hbase l (Option.mem_toList.mp hl)
  · rw [List.mem_singleton.mp hl]
    exact hlocale

theorem has_path_eq (h : fault? tree.readText dir program locale = none)
    (includeUnfinished : Bool) :
    ∀ l ∈ Locale.layerOrder locale, tree.has (path dir program l)
      = (table? tree.readText includeUnfinished (path dir program l)).isSome :=
  fun l hl ↦ has_eq_isSome_table? (obstacle?_of_fault? h l hl) includeUnfinished

theorem size_found (h : fault? tree.readText dir program locale = none) :
    (found tree.readText dir program locale includeUnfinished).size
      = (Locale.layerOrder locale).countP fun l ↦ tree.has (path dir program l) := by
  rw [size, found, List.length_filterMap_eq_countP, paths, List.countP_map]
  refine List.countP_congr fun l hl ↦ ?_
  rw [has_path_eq h includeUnfinished l hl]
  exact Iff.rfl

/-- A text from the catalog of the language is not lost when the locale gets a catalog too. -/
theorem exists_load_of_extends {c : Catalog} {layers : Layers} {q : Query} {text : String}
    (hnew : tree.has (path dir program locale) = false)
    (hextends : Entry.Extends tree after)
    (hadded : (loadCatalog after.readText (path dir program locale)).outcome = .ok c)
    (hload : (load tree.readText dir program locale includeUnfinished).outcome = .ok layers)
    (htext : layers.translate? q = some text) :
    ∃ layers' text', (load after.readText dir program locale includeUnfinished).outcome
      = .ok layers' ∧ layers'.translate? q = some text' := by
  obtain ⟨hfault, rfl⟩ := (load_eq_ok_iff ..).mp hload
  have hmissing : table? tree.readText includeUnfinished (path dir program locale) = none := by
    have hhas := has_path_eq hfault includeUnfinished locale
      (List.mem_append_right _ List.mem_cons_self)
    rw [hnew] at hhas
    exact Option.isNone_iff_eq_none.mp (Option.isSome_eq_false_iff.mp hhas.symm)
  -- so the text is from the file of the language, which is still there
  rw [translate?_found, hmissing, Option.bind_none, Option.none_or] at htext
  obtain ⟨base, hbase, htext⟩ := Option.bind_eq_some_iff.mp htext
  obtain ⟨t, ht, htext⟩ := Option.bind_eq_some_iff.mp htext
  obtain ⟨d, hd, rfl⟩ := exists_of_table? ht
  have hkept := loadCatalog_of_extends hextends hd
  have hfault' : fault? after.readText dir program locale = none := by
    rw [fault?, hbase, Option.bind_some, obstacle?_of_ok hkept, obstacle?_of_ok hadded]
    rfl
  have htranslate := translate?_found after.readText dir program locale includeUnfinished q
  rw [hbase, Option.bind_some, table?_of_ok hadded, table?_of_ok hkept, Option.bind_some,
    Option.bind_some, htext] at htranslate
  rcases htop : (Table.ofCatalog c includeUnfinished).translate? q with - | text'
  · rw [htop] at htranslate
    exact ⟨_, text, (load_eq_ok_iff ..).mpr ⟨hfault', rfl⟩, htranslate⟩
  · rw [htop] at htranslate
    exact ⟨_, text', (load_eq_ok_iff ..).mpr ⟨hfault', rfl⟩, htranslate⟩

/-- The layers of a locale are loaded unless a file of its language or its own is there and holds no
catalog; otherwise the fault is that of the first such file. There is a layer for each file that is
there. A lookup has the answer of the locale's catalog, or else of its language's, or else shows the
source text. A text that the language's catalog has is not lost when the locale gets a catalog too.
-/
theorem load_layers (tree : FileTree) (dir program locale : String) (includeUnfinished : Bool) :
    (∀ base, Locale.baseLanguage? locale = some base
      ↔ base ≠ "" ∧ ∃ territory, '_' ∉ territory.toList ∧ locale = base ++ "_" ++ territory)
    ∧ (∀ fault, (load tree.readText dir program locale includeUnfinished).outcome = .error fault
      ↔ ((Locale.baseLanguage? locale).bind fun base ↦
          obstacle? tree.readText (path dir program base)).or
        (obstacle? tree.readText (path dir program locale)) = some fault)
    ∧ ∀ layers, (load tree.readText dir program locale includeUnfinished).outcome = .ok layers →
      layers.size = (((Locale.baseLanguage? locale).toList ++ [locale]).countP fun l ↦
        tree.has (path dir program l))
      ∧ (∀ l ∈ (Locale.baseLanguage? locale).toList ++ [locale],
        tree.has (path dir program l)
          = (table? tree.readText includeUnfinished (path dir program l)).isSome)
      ∧ (∀ q, layers.translate? q
        = ((table? tree.readText includeUnfinished (path dir program locale)).bind
            (·.translate? q)).or
          ((Locale.baseLanguage? locale).bind fun base ↦
            (table? tree.readText includeUnfinished (path dir program base)).bind
              (·.translate? q)))
      ∧ (∀ q, layers.translate q = (layers.translate? q).getD q.source)
      ∧ (tree.has (path dir program locale) = false →
        ∀ after c, Entry.Extends tree after →
        (loadCatalog after.readText (path dir program locale)).outcome = .ok c →
        ∀ q text, layers.translate? q = some text →
        ∃ layers' text', (load after.readText dir program locale includeUnfinished).outcome
          = .ok layers' ∧ layers'.translate? q = some text') := by
  refine ⟨fun base ↦ Locale.baseLanguage?_eq_some_iff, fun fault ↦ load_eq_error_iff ..,
    fun layers hload ↦ ?_⟩
  obtain ⟨hfault, rfl⟩ := (load_eq_ok_iff ..).mp hload
  refine ⟨size_found hfault, has_path_eq hfault _, fun q ↦ translate?_found ..,
    fun q ↦ rfl, ?_⟩
  intro hnew after c hextends hadded q text htext
  exact exists_load_of_extends hnew hextends hadded hload htext

end

def languageTree : FileTree :=
  .directory [("d", .directory [("p_de.ts", .file (String.toUTF8 ("<TS><context><name>A</name>"
    ++ "<message><source>x</source><translation>y</translation></message></context></TS>")))])]

/-- A text of the language is still found when a catalog without texts is written for a locale. -/
theorem load_layers_languageTree :
    ∃ after, languageTree.writeText (path "d" "p" "de_AT") "<TS/>" = .ok after
      ∧ ∃ layers text, (load after.readText "d" "p" "de_AT" false).outcome = .ok layers
        ∧ layers.translate? { context := "A", source := "x" } = some text := by
  have hnew : languageTree.has (path "d" "p" "de_AT") = false := by decide +kernel
  have hshown : (load languageTree.readText "d" "p" "de_AT" false).outcome.toOption.bind
      (·.translate? { context := "A", source := "x" }) = some "y" := by decide +kernel
  obtain ⟨layers, hload, htext⟩ := Option.bind_eq_some_iff.mp hshown
  have hwritable : (languageTree.writeText (path "d" "p" "de_AT") "<TS/>").isOk = true := by
    decide +kernel
  obtain ⟨-, -, hlayers⟩ := load_layers languageTree "d" "p" "de_AT" false
  obtain ⟨-, -, -, -, hkept⟩ := hlayers layers (toOption_eq_some_iff.mp hload)
  rcases hwrite : languageTree.writeText (path "d" "p" "de_AT") "<TS/>" with cause | after
  · rw [hwrite] at hwritable
    cases hwritable
  · have hadded : (loadCatalog after.readText (path "d" "p" "de_AT")).outcome = .ok {} :=
      loadCatalog_eq_ok_iff.mpr ⟨_, Entry.readText_writeText hwrite, rfl⟩
    exact ⟨after, rfl,
      hkept hnew after _ (Entry.extends_writeText hwrite hnew) hadded _ _ htext⟩

end MessageCatalog.Lookup.Layers
