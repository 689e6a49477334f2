import Mathlib.Data.List.TakeWhile
import MessageCatalog.Storage.Path

/-!
# Names at the end of paths

A name below a directory is the last part of the joined path, and the parts before it lead to the
directory, however its own path is written: with a slash at its end or without.

The name of a catalog's file is put together from a program and a locale, and the locale is taken
from a name by cutting it apart, first at its last dot and then behind the program. Both are inverse
to each other for every program and every locale, also with dots and underscores in them, because
the cut is made from both ends and what is left is not searched.
-/

namespace MessageCatalog.Storage

open Text

/-! ## Splitting -/

theorem splitOn_ne_nil (sep : Char) (cs : List Char) : splitOn sep cs ≠ [] := by
  induction cs with
  | nil => simp [splitOn]
  | cons c cs ih =>
    rw [splitOn]
    by_cases hc : c = sep
    · rw [if_pos hc]
      simp
    · rw [if_neg hc]
      obtain ⟨piece, pieces, hpieces⟩ := List.exists_cons_of_ne_nil ih
      rw [hpieces]
      simp

theorem splitOn_of_notMem {sep : Char} {cs : List Char} (h : sep ∉ cs) : splitOn sep cs = [cs] := by
  induction cs with
  | nil => rfl
  | cons c cs ih =>
    obtain ⟨hc, hcs⟩ := List.ne_and_not_mem_of_not_mem_cons h
    rw [splitOn, if_neg (Ne.symm hc), ih hcs]

theorem splitOn_append_cons (sep : Char) (a b : List Char) :
    splitOn sep (a ++ sep :: b) = splitOn sep a ++ splitOn sep b := by
  induction a with
  | nil => exact if_pos rfl
  | cons c a ih =>
    rw [List.cons_append, splitOn, splitOn, ih]
    by_cases hc : c = sep
    · rw [if_pos hc, if_pos hc, List.cons_append]
    · rw [if_neg hc, if_neg hc]
      obtain ⟨piece, pieces, hpieces⟩ := List.exists_cons_of_ne_nil (splitOn_ne_nil sep a)
      rw [hpieces]
      rfl

theorem notMem_of_mem_splitOn {sep : Char} {cs piece : List Char} (h : piece ∈ splitOn sep cs) :
    sep ∉ piece := by
  induction cs generalizing piece with
  | nil =>
    obtain rfl := List.mem_singleton.mp h
    exact List.not_mem_nil
  | cons c cs ih =>
    rw [splitOn] at h
    by_cases hc : c = sep
    · rw [if_pos hc] at h
      rcases List.mem_cons.mp h with rfl | h
      · exact List.not_mem_nil
      · exact ih h
    · rw [if_neg hc] at h
      obtain ⟨first, pieces, hpieces⟩ := List.exists_cons_of_ne_nil (splitOn_ne_nil sep cs)
      rw [hpieces] at h ih
      rcases List.mem_cons.mp h with rfl | h
      · intro hmem
        rcases List.mem_cons.mp hmem with hmem | hmem
        · exact hc hmem.symm
        · exact ih List.mem_cons_self hmem
      · exact ih (List.mem_cons_of_mem _ h)

/-! ## The parts of a path -/

theorem parts_of_notMem {name : String} (h : '/' ∉ name.toList) : parts name = [name] := by
  rw [parts, splitOn_of_notMem h, List.map_singleton, String.ofList_toList]

theorem slash_notMem_of_mem_parts {path part : String} (h : part ∈ parts path) :
    '/' ∉ part.toList := by
  obtain ⟨piece, hpiece, rfl⟩ := List.mem_map.mp h
  rw [String.toList_ofList]
  exact notMem_of_mem_splitOn hpiece

@[simp] theorem parts_append_slash (above below : String) :
    parts (above ++ "/" ++ below) = parts above ++ parts below := by
  have hcs : (above ++ "/" ++ below).toList = above.toList ++ '/' :: below.toList := by
    rw [String.toList_append, String.toList_append, List.append_assoc]
    rfl
  rw [parts, hcs, splitOn_append_cons, List.map_append, parts, parts]

/-- The last part of a path begins behind its last slash, if it has one. -/
theorem parts_cases (path : String) :
    parts path = [path]
      ∨ ∃ above name, path = above ++ "/" ++ name ∧ parts path = parts above ++ [name] := by
  by_cases hmem : '/' ∈ path.toList.reverse
  · right
    obtain ⟨name, above, hpath, hname⟩ := List.eq_append_cons_of_mem hmem
    have heq : path = String.ofList above.reverse ++ "/" ++ String.ofList name.reverse := by
      rw [← String.toList_inj, ← List.reverse_inj, hpath]
      simp
    refine ⟨_, _, heq, ?_⟩
    have hlast : '/' ∉ (String.ofList name.reverse).toList := by
      rwa [String.toList_ofList, List.mem_reverse]
    rw [heq, parts_append_slash, parts_of_notMem hlast]
  · rw [List.mem_reverse] at hmem
    exact Or.inl (parts_of_notMem hmem)

theorem startsWith_slash_iff {path : String} :
    path.startsWith "/" = true ↔ path.toList.head? = some '/' := by
  rw [String.startsWith_string_iff]
  exact List.singleton_prefix_iff_head?_eq_some

theorem endsWith_slash_iff {path : String} :
    path.endsWith "/" = true ↔ ∃ above, path = above ++ "/" := by
  rw [String.endsWith_eq_endsWith_toSlice, String.Slice.endsWith_string_iff, String.copy_toSlice]
  constructor
  · rintro ⟨above, habove⟩
    refine ⟨String.ofList above, ?_⟩
    rw [← String.toList_inj, String.toList_append, String.toList_ofList, habove]
  · rintro ⟨above, rfl⟩
    rw [String.toList_append]
    exact List.suffix_append _ _

theorem getLast?_parts_ne {path : String} (hpath : path ≠ "") (hslash : path.endsWith "/" = false) :
    (parts path).getLast? ≠ some "" := by
  rcases parts_cases path with hparts | ⟨above, name, heq, hparts⟩
  · rw [hparts, List.getLast?_singleton]
    exact fun h ↦ hpath (Option.some.inj h)
  · rw [hparts, List.getLast?_concat]
    intro h
    obtain rfl := Option.some.inj h
    have hends : path.endsWith "/" = true :=
      endsWith_slash_iff.mpr ⟨above, by rw [heq, String.append_empty]⟩
    exact absurd hslash (by rw [hends]; exact Bool.noConfusion)

/-! ## Names below a directory -/

/-- A text that a file or directory can be named by. -/
structure IsName (name : String) : Prop where
  ne_empty : name ≠ ""
  ne_dot : name ≠ "."
  ne_up : name ≠ ".."
  no_slash : '/' ∉ name.toList

instance (name : String) : Decidable (IsName name) :=
  decidable_of_iff (name ≠ "" ∧ name ≠ "." ∧ name ≠ ".." ∧ '/' ∉ name.toList)
    ⟨fun ⟨h, hdot, hup, hslash⟩ ↦ ⟨h, hdot, hup, hslash⟩,
      fun ⟨h, hdot, hup, hslash⟩ ↦ ⟨h, hdot, hup, hslash⟩⟩

theorem join_of_name {dir name : String} (hname : '/' ∉ name.toList) (hdir : dir ≠ "") :
    join dir name = if dir.endsWith "/" then dir ++ name else dir ++ "/" ++ name := by
  have hstart : ¬(name.startsWith "/" = true ∨ dir = "") := by
    rintro (hstart | hempty)
    · exact hname (List.mem_of_head? (startsWith_slash_iff.mp hstart))
    · exact hdir hempty
  rw [join, if_neg hstart]

theorem mem_join_iff {dir name : String} {c : Char} (hname : '/' ∉ name.toList) (hdir : dir ≠ "")
    (hc : c ≠ '/') : c ∈ (join dir name).toList ↔ c ∈ dir.toList ∨ c ∈ name.toList := by
  rw [join_of_name hname hdir]
  split_ifs <;> simp [hc]

/-- A joined path has the parts of the directory, without the empty one behind a slash at its end,
and then the name. -/
theorem parts_join {dir name : String} (hname : '/' ∉ name.toList) (hdir : dir ≠ "") :
    ∃ front, parts (join dir name) = front ++ [name]
      ∧ (parts dir = front ∨ parts dir = front ++ [""]) := by
  rw [join_of_name hname hdir]
  by_cases hends : dir.endsWith "/" = true
  · obtain ⟨above, rfl⟩ := endsWith_slash_iff.mp hends
    refine ⟨parts above, ?_, Or.inr ?_⟩
    · rw [if_pos hends, parts_append_slash, parts_of_notMem hname]
    · have habove := parts_append_slash above ""
      rwa [String.append_empty] at habove
  · refine ⟨parts dir, ?_, Or.inl rfl⟩
    rw [if_neg hends, parts_append_slash, parts_of_notMem hname]

theorem startsWith_join {dir name : String} (hname : '/' ∉ name.toList) (hdir : dir ≠ "") :
    (join dir name).startsWith "/" = dir.startsWith "/" := by
  have hhead : (join dir name).toList.head? = dir.toList.head? := by
    obtain ⟨c, cs, hcs⟩ := List.exists_cons_of_ne_nil
      fun h ↦ hdir (String.toList_eq_nil_iff.mp h)
    rw [join_of_name hname hdir]
    split
    · rw [String.toList_append, hcs]
      rfl
    · rw [String.toList_append, String.toList_append, hcs]
      rfl
  rw [Bool.eq_iff_iff, startsWith_slash_iff, startsWith_slash_iff, hhead]

theorem fileName?_of_isName {path name : String} (front : List String)
    (hparts : parts path = front ++ [name]) (hname : IsName name) : fileName? path = some name := by
  have hpart : ¬(decide (name = "") || decide (name = ".")) = true := by
    simp [hname.ne_empty, hname.ne_dot]
  rw [fileName?, hparts, List.reverse_concat, List.dropWhile_cons, if_neg hpart]
  exact if_neg hname.ne_up

theorem fileName?_join {dir name : String} (hname : IsName name) (hdir : dir ≠ "") :
    fileName? (join dir name) = some name := by
  obtain ⟨front, hparts, -⟩ := parts_join hname.no_slash hdir
  exact fileName?_of_isName front hparts hname

theorem join_ne_empty {dir name : String} (hname : IsName name) (hdir : dir ≠ "") :
    join dir name ≠ "" := by
  intro hempty
  have hfound := fileName?_join hname hdir
  rw [hempty] at hfound
  cases hfound

/-! ## The names of catalogs -/

theorem catalogName_eq (program locale : String) :
    catalogName program locale = program ++ "_" ++ locale ++ "." ++ "ts" := by
  have hts : "." ++ "ts" = ".ts" := rfl
  rw [String.append_assoc, hts]
  rfl

@[simp] theorem toList_catalogName (program locale : String) : (catalogName program locale).toList
    = program.toList ++ '_' :: (locale.toList ++ ['.', 't', 's']) := by
  rw [catalogName_eq]
  simp

@[simp] theorem afterPrefix?_eq_some_iff {start cs rest : List Char} :
    afterPrefix? start cs = some rest ↔ cs = start ++ rest := by
  rw [afterPrefix?]
  by_cases hprefix : start <+: cs
  · rw [if_pos (List.isPrefixOf_iff_prefix.mpr hprefix), Option.some_inj]
    obtain ⟨rest', rfl⟩ := hprefix
    rw [List.drop_left, List.append_cancel_left_eq]
  · rw [if_neg fun h ↦ hprefix (List.isPrefixOf_iff_prefix.mp h)]
    constructor
    · rintro ⟨⟩
    · rintro rfl
      exact absurd (List.prefix_append start rest) hprefix

theorem cut_iff {sep : Char} {cs front rest : List Char} :
    (cs.takeWhile (· ≠ sep) = front ∧ ∃ c, cs.dropWhile (· ≠ sep) = c :: rest)
      ↔ sep ∉ front ∧ cs = front ++ sep :: rest := by
  constructor
  · rintro ⟨rfl, c, hdrop⟩
    have hcut := List.takeWhile_append_dropWhile (p := (· ≠ sep)) (l := cs)
    have hsep := List.head?_dropWhile_not (· ≠ sep) cs
    rw [hdrop] at hcut hsep
    have hc : c = sep := by simpa using hsep
    subst hc
    refine ⟨fun hmem ↦ ?_, hcut.symm⟩
    exact of_decide_eq_true (List.mem_takeWhile_imp (p := (· ≠ c)) hmem) rfl
  · rintro ⟨hfront, rfl⟩
    have hall : ∀ c ∈ front, decide (c ≠ sep) = true := fun c hc ↦
      decide_eq_true fun h ↦ hfront (h ▸ hc)
    have hsep : ¬decide (sep ≠ sep) = true := by simp
    constructor
    · rw [List.takeWhile_append_of_pos hall, List.takeWhile_cons, if_neg hsep, List.append_nil]
    · rw [List.dropWhile_append_of_pos hall, List.dropWhile_cons, if_neg hsep]
      exact ⟨sep, rfl⟩

/-- A name is cut at its last dot, unless nothing comes before that. -/
theorem splitExtension_eq_some_iff {name stem extension : String} :
    splitExtension name = (stem, some extension)
      ↔ stem ≠ "" ∧ '.' ∉ extension.toList ∧ name = stem ++ "." ++ extension := by
  rw [splitExtension]
  constructor
  · intro h
    rcases hdrop : name.toList.reverse.dropWhile (· ≠ '.') with - | ⟨dot, - | ⟨c, rest⟩⟩
    · rw [hdrop] at h
      cases h
    · rw [hdrop] at h
      cases h
    · obtain ⟨hbehind, hname⟩ := cut_iff.mp ⟨rfl, dot, hdrop⟩
      rw [hdrop] at h
      obtain ⟨rfl, hextension⟩ := Prod.mk.inj h
      obtain rfl := Option.some.inj hextension
      refine ⟨by simp, ?_, ?_⟩
      · rwa [String.toList_ofList, List.mem_reverse]
      · rw [← String.toList_inj, ← List.reverse_inj]
        exact hname.trans (by simp)
  · rintro ⟨hstem, hextension, rfl⟩
    have hreverse : (stem ++ "." ++ extension).toList.reverse
        = extension.toList.reverse ++ '.' :: stem.toList.reverse := by simp
    obtain ⟨htake, dot, hdrop⟩ := cut_iff.mpr ⟨List.mem_reverse.not.mpr hextension, hreverse⟩
    obtain ⟨c, rest, hrest⟩ := List.exists_cons_of_ne_nil
      (List.reverse_ne_nil_iff.mpr fun h ↦ hstem (String.toList_eq_nil_iff.mp h))
    rw [htake, hdrop, hrest]
    dsimp only
    rw [← hrest, List.reverse_reverse, List.reverse_reverse, String.ofList_toList,
      String.ofList_toList]

/-- What stands before the extension in the name of the file for a locale, where all files of the
catalogs wanted are named after `program`, if given. -/
def stemFor : (program : Option String) → (locale : String) → String
  | none, locale => locale
  | some program, locale => program ++ "_" ++ locale

/-- The name of the file for a locale. -/
def nameFor (program : Option String) (locale : String) : String :=
  stemFor program locale ++ ".ts"

theorem nameFor_eq (program : Option String) (locale : String) :
    nameFor program locale = stemFor program locale ++ "." ++ "ts" := by
  have hts : "." ++ "ts" = ".ts" := rfl
  rw [String.append_assoc, hts, nameFor]

@[simp] theorem nameFor_some (program locale : String) :
    nameFor (some program) locale = catalogName program locale := by
  rw [nameFor_eq, catalogName_eq, stemFor]

theorem stemFor_ne_empty {program : Option String} {locale : String} (h : locale ≠ "") :
    stemFor program locale ≠ "" := by
  rcases program with - | program
  · exact h
  · simp [stemFor]

/-- The locale in a stem is what is left of it behind the program. -/
theorem eq_stemFor_iff {program : Option String} {stem locale : String} :
    (match program with
      | none => some stem.toList
      | some program => afterPrefix? (program.toList ++ ['_']) stem.toList) = some locale.toList
      ↔ stem = stemFor program locale := by
  rcases program with - | program
  · rw [Option.some_inj, String.toList_inj, stemFor]
  · rw [afterPrefix?_eq_some_iff, ← String.toList_inj]
    simp [stemFor]

theorem map_filter_eq_some_iff {rest : Option (List Char)} {locale : String} :
    (rest.filter (· ≠ [])).map String.ofList = some locale
      ↔ locale ≠ "" ∧ rest = some locale.toList := by
  rw [Option.map_eq_some_iff]
  constructor
  · rintro ⟨cs, hfilter, rfl⟩
    obtain ⟨hrest, hne⟩ := Option.filter_eq_some_iff.mp hfilter
    rw [← String.toList_inj.ne, String.toList_ofList]
    exact ⟨of_decide_eq_true hne, hrest⟩
  · rintro ⟨hlocale, rfl⟩
    have hne : locale.toList ≠ [] := fun h ↦ hlocale (String.toList_eq_nil_iff.mp h)
    exact ⟨_, Option.filter_eq_some_iff.mpr ⟨rfl, decide_eq_true hne⟩, String.ofList_toList⟩

/-- The locale in a name is the one that the name was made for. -/
theorem localeOfPath?_eq_some_iff {path name locale : String} {program : Option String}
    (hname : fileName? path = some name) :
    localeOfPath? path program = some locale
      ↔ locale ≠ "" ∧ name = nameFor program locale := by
  rw [localeOfPath?, hname, Option.map_some, nameFor_eq]
  constructor
  · intro h
    split at h
    · next stem hstem =>
      obtain ⟨-, -, rfl⟩ := splitExtension_eq_some_iff.mp (Option.some.inj hstem)
      obtain ⟨hlocale, hrest⟩ := map_filter_eq_some_iff.mp h
      exact ⟨hlocale, by rw [eq_stemFor_iff.mp hrest]⟩
    · cases h
  · rintro ⟨hlocale, rfl⟩
    have hcut : splitExtension (stemFor program locale ++ "." ++ "ts")
        = (stemFor program locale, some "ts") :=
      splitExtension_eq_some_iff.mpr ⟨stemFor_ne_empty hlocale, by decide, rfl⟩
    rw [hcut]
    exact map_filter_eq_some_iff.mpr ⟨hlocale, eq_stemFor_iff.mpr rfl⟩

end MessageCatalog.Storage
