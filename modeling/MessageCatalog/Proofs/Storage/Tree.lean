import Mathlib.Data.List.Basic
import MessageCatalog.Proofs.Index
import MessageCatalog.Storage.FileTree

/-!
# What is where in a file tree

A place in a tree is given by the names that lead to it. Whoever follows a path or reads a file sees
of a place whether there is nothing, a directory or a file, and of a file its content; what a
directory holds is seen at the places below it. This is the `view` of a tree, and a file that is put
into a directory changes it at one place only.

The view does not see all of a tree: an entry behind another of the same name is never reached, and
a directory outside need not be written down to be there. Where a file is put that is there already,
the tree itself stays the same.
-/

namespace MessageCatalog.Storage.Entry

/-! ## Places -/

theorem at?_directory_cons (entries : List (String × Entry)) (name : String)
    (rest : List String) :
    (directory entries).at? (name :: rest) = (named? entries name).bind (·.at? rest) := by
  rw [at?, entries?, Option.bind_some]
  cases named? entries name with
  | none => rfl
  | some child => rfl

@[simp] theorem at?_append (e : Entry) (names more : List String) :
    e.at? (names ++ more) = (e.at? names).bind (·.at? more) := by
  induction names generalizing e with
  | nil => rfl
  | cons name rest ih =>
    cases e with
    | file content => rfl
    | directory entries =>
      rw [List.cons_append, at?_directory_cons, at?_directory_cons]
      cases named? entries name with
      | none => rfl
      | some child => exact ih child

theorem at?_concat {e : Entry} {above : List String} {entries : List (String × Entry)}
    (h : e.at? above = some (directory entries)) (name : String) :
    e.at? (above ++ [name]) = named? entries name := by
  rw [at?_append, h, Option.bind_some, at?_directory_cons]
  cases named? entries name with
  | none => rfl
  | some child => rfl

theorem exists_of_at?_cons {e found : Entry} {name : String} {rest : List String}
    (h : e.at? (name :: rest) = some found) :
    ∃ entries child, e = directory entries ∧ named? entries name = some child
      ∧ child.at? rest = some found := by
  cases e with
  | file content => cases h
  | directory entries =>
    rw [at?_directory_cons] at h
    obtain ⟨child, hchild, hfound⟩ := Option.bind_eq_some_iff.mp h
    exact ⟨entries, child, rfl, hchild, hfound⟩

@[simp] theorem named?_set (entries : List (String × Entry)) (name : String) (new : Entry)
    (key : String) :
    named? (Index.set name new entries) key
      = if name = key then some new else named? entries key := by
  by_cases hkey : name = key <;> simp [named?, hkey]

def listed (entries : List (String × Entry)) : List String :=
  (entries.map (·.1)).filter fun name ↦ !isOutside name

/-- There is something under the names that are listed, and under no others inside the tree. -/
theorem named?_eq_none_iff {entries : List (String × Entry)} {name : String}
    (hinside : isOutside name = false) : named? entries name = none ↔ name ∉ listed entries := by
  have hlisted : name ∈ listed entries ↔ name ∈ entries.map (·.1) := by
    rw [listed, List.mem_filter, hinside, Bool.not_false, and_iff_left rfl]
  rw [hlisted, ← Index.get?_eq_none_iff, named?, hinside]
  rcases Index.get? entries name with - | e
  · exact iff_of_true rfl rfl
  · exact Iff.rfl

/-! ## The view -/

def content? : Entry → Option ByteArray
  | file content => some content
  | directory _ => none

/-- What is seen of a place: nothing, a directory, or a file with its content. -/
def view (tree : FileTree) (names : List String) : Option (Option ByteArray) :=
  (tree.at? names).map content?

@[simp] theorem view_eq_directory_iff {tree : FileTree} {names : List String} :
    tree.view names = some none ↔ ∃ entries, tree.at? names = some (directory entries) := by
  rw [view, Option.map_eq_some_iff]
  constructor
  · rintro ⟨e, he, hcontent⟩
    cases e with
    | file content => cases hcontent
    | directory entries => exact ⟨entries, he⟩
  · rintro ⟨entries, hentries⟩
    exact ⟨directory entries, hentries, rfl⟩

@[simp] theorem view_eq_file_iff {tree : FileTree} {names : List String} {content : ByteArray} :
    tree.view names = some (some content) ↔ tree.at? names = some (file content) := by
  rw [view, Option.map_eq_some_iff]
  constructor
  · rintro ⟨e, he, hcontent⟩
    cases e with
    | file content' =>
      obtain rfl := Option.some.inj hcontent
      exact he
    | directory entries => cases hcontent
  · intro h
    exact ⟨file content, h, rfl⟩

@[simp] theorem view_file_cons (content : ByteArray) (name : String) (rest : List String) :
    (file content).view (name :: rest) = none := rfl

@[simp] theorem view_directory_cons (entries : List (String × Entry)) (name : String)
    (rest : List String) :
    (directory entries).view (name :: rest) = (named? entries name).bind (·.view rest) := by
  rw [view, at?_directory_cons, Option.map_bind]
  rfl

/-! ## Putting a file into a directory -/

@[simp] theorem put_directory_singleton (new : Entry) (entries : List (String × Entry))
    (name : String) :
    put new (directory entries) [name] = directory (Index.set name new entries) := by
  rw [put]

theorem put_directory_cons {entries : List (String × Entry)} {name : String} {child : Entry}
    (hchild : named? entries name = some child) (new : Entry) {rest : List String}
    (hrest : rest ≠ []) :
    put new (directory entries) (name :: rest)
      = directory (Index.set name (put new child rest) entries) := by
  rw [put]
  · exact hchild
  · exact hrest

/-- Whether a file can be put under a name into the directory above: there is no directory of that
name. -/
def IsFree (tree : FileTree) (above : List String) (name : String) : Prop :=
  ∃ entries, tree.at? above = some (directory entries)
    ∧ ∀ inner, named? entries name ≠ some (directory inner)

theorem isFree_iff {tree : FileTree} {above : List String} {name : String} :
    IsFree tree above name
      ↔ tree.view above = some none ∧ tree.view (above ++ [name]) ≠ some none := by
  rw [view_eq_directory_iff, ne_eq, view_eq_directory_iff, not_exists]
  constructor
  · rintro ⟨entries, hentries, hfree⟩
    refine ⟨⟨entries, hentries⟩, ?_⟩
    rwa [at?_concat hentries]
  · rintro ⟨⟨entries, hentries⟩, hfree⟩
    refine ⟨entries, hentries, ?_⟩
    rwa [at?_concat hentries] at hfree

theorem IsFree.of_cons {entries : List (String × Entry)} {first : String} {above : List String}
    {name : String} (h : IsFree (directory entries) (first :: above) name) :
    ∃ child, named? entries first = some child ∧ IsFree child above name := by
  obtain ⟨inner, hinner, hfree⟩ := h
  rw [at?_directory_cons] at hinner
  obtain ⟨child, hchild, hinner⟩ := Option.bind_eq_some_iff.mp hinner
  exact ⟨child, hchild, inner, hinner, hfree⟩

/-- A file that is put into a tree is seen at its place, and everything else as it was before. -/
theorem view_put {name : String} {above : List String} (content : ByteArray) :
    ∀ {tree : FileTree}, IsFree tree above name → ∀ places,
      (put (file content) tree (above ++ [name])).view places
        = if places = above ++ [name] then some (some content) else tree.view places := by
  induction above with
  | nil =>
    rintro tree ⟨entries, hentries, hfree⟩ places
    obtain rfl := Option.some.inj hentries
    rw [List.nil_append, put_directory_singleton]
    cases places with
    | nil => rfl
    | cons key rest =>
      rw [view_directory_cons, view_directory_cons, named?_set]
      by_cases hkey : name = key
      · subst hkey
        rw [if_pos rfl, Option.bind_some]
        cases rest with
        | nil => rw [if_pos rfl]; rfl
        | cons second rest =>
          -- below the file there is nothing, as there was before
          rw [if_neg (by simp), view_file_cons]
          cases hnamed : named? entries name with
          | none => rfl
          | some old =>
            cases old with
            | file content' => rfl
            | directory inner => exact absurd hnamed (hfree inner)
      · rw [if_neg hkey, if_neg fun h ↦ hkey (List.cons.inj h).1.symm]
  | cons first above ih =>
    intro tree h places
    cases tree with
    | file content' =>
      obtain ⟨entries, hentries, -⟩ := h
      cases hentries
    | directory entries =>
      obtain ⟨child, hchild, hinner⟩ := h.of_cons
      rw [List.cons_append, put_directory_cons hchild _ (by simp)]
      cases places with
      | nil => rfl
      | cons key rest =>
        rw [view_directory_cons, view_directory_cons, named?_set]
        by_cases hkey : first = key
        · subst hkey
          rw [if_pos rfl, Option.bind_some, ih hinner, hchild, Option.bind_some]
          simp only [List.cons.injEq, true_and]
        · rw [if_neg hkey, if_neg fun h ↦ hkey (List.cons.inj h).1.symm]

theorem IsFree.put {tree : FileTree} {above : List String} {name : String}
    (h : IsFree tree above name) (content : ByteArray) :
    IsFree (put (file content) tree (above ++ [name])) above name := by
  have habove : above ≠ above ++ [name] := by simp
  rw [isFree_iff, view_put content h, view_put content h, if_neg habove, if_pos rfl]
  exact ⟨(isFree_iff.mp h).1, by simp⟩

/-- Directories that are not written down hold no files. -/
theorem at?_empty_ne_file (names : List String) (content : ByteArray) :
    (directory []).at? names ≠ some (file content) := by
  induction names with
  | nil => rintro ⟨⟩
  | cons name rest ih =>
    rw [at?_directory_cons, named?, Index.get?_nil]
    by_cases hname : isOutside name = true
    · rw [if_pos hname]
      exact ih
    · rw [if_neg hname]
      rintro ⟨⟩

/-- Putting a file where it is already changes nothing. -/
theorem put_eq_self {names : List String} {content : ByteArray} : ∀ {tree : FileTree},
    tree.at? names = some (file content) → put (file content) tree names = tree := by
  induction names with
  | nil =>
    intro tree h
    exact (Option.some.inj h).symm
  | cons name rest ih =>
    intro tree h
    obtain ⟨entries, child, rfl, hchild, hfile⟩ := exists_of_at?_cons h
    -- the entry is written down, for the other ones hold no files
    have hget : Index.get? entries name = some child := by
      rw [named?] at hchild
      cases hget : Index.get? entries name with
      | some e =>
        rw [hget] at hchild
        exact hchild
      | none =>
        rw [hget] at hchild
        by_cases houtside : isOutside name = true
        · rw [if_pos houtside] at hchild
          obtain rfl := Option.some.inj hchild
          exact absurd hfile (at?_empty_ne_file rest content)
        · rw [if_neg houtside] at hchild
          cases hchild
    cases rest with
    | nil =>
      obtain rfl := Option.some.inj hfile
      rw [put_directory_singleton, Index.set_eq_self hget]
    | cons second rest =>
      rw [put_directory_cons hchild _ (by simp), ih hfile, Index.set_eq_self hget]

end MessageCatalog.Storage.Entry
