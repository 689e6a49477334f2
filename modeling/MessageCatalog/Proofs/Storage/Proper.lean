import MessageCatalog.Proofs.Storage.Access

/-!
# Trees with proper names

A file system gives an entry no empty name, no name of dots that stands for a directory, and none
with a slash. The directories outside apart, the same holds of a tree that is put together file by
file and written to by paths, because paths are cut at their slashes. Below a directory of such a
tree, the path to a name leads to the entry of that name.
-/

namespace MessageCatalog.Storage

open Text

/-! ## Names in paths -/

/-- A name that an entry of a directory may have. -/
def IsEntryName (name : String) : Prop :=
  isOutside name = true ∨ IsName name

theorem isEntryName_of_mem_parts {path part : String} (h : part ∈ parts path) (hne : part ≠ "")
    (hdot : part ≠ ".") : IsEntryName part := by
  by_cases hup : part = ".."
  · exact Or.inl (by rw [hup]; rfl)
  · exact Or.inr ⟨hne, hdot, hup, slash_notMem_of_mem_parts h⟩

theorem isEntryName_of_into {path name : String}
    (h : .into name ∈ (parts path).map Step.ofPart) : IsEntryName name := by
  obtain ⟨part, hpart, hinto⟩ := List.mem_map.mp h
  rw [Step.ofPart] at hinto
  split_ifs at hinto with hhere
  obtain rfl := Step.into.inj hinto
  obtain ⟨hne, hdot⟩ := not_or.mp hhere
  exact isEntryName_of_mem_parts hpart hne hdot

theorem isEntryName_of_mem_trailAbove {trail : List String}
    (h : ∀ name ∈ trail, IsEntryName name) : ∀ name ∈ trailAbove trail, IsEntryName name := by
  have hup : IsEntryName ".." := Or.inl rfl
  cases trail with
  | nil => exact List.forall_mem_singleton.mpr hup
  | cons first trail =>
    rw [trailAbove]
    split
    · exact h
    · split
      · exact List.forall_mem_cons.mpr ⟨hup, h⟩
      · exact (List.forall_mem_cons.mp h).2

/-- Following steps leads through names that entries may have. -/
theorem isEntryName_of_follow {tree : FileTree} {steps : List Step}
    (hsteps : ∀ name, .into name ∈ steps → IsEntryName name) :
    ∀ {trail found : List String}, (∀ name ∈ trail, IsEntryName name) →
      follow tree trail steps = .ok found → ∀ name ∈ found, IsEntryName name := by
  induction steps with
  | nil =>
    intro trail found htrail h
    obtain rfl := Except.ok.inj h
    exact htrail
  | cons step rest ih =>
    intro trail found htrail h
    have hrest : ∀ name, .into name ∈ rest → IsEntryName name :=
      fun name hname ↦ hsteps name (List.mem_cons_of_mem _ hname)
    rw [follow.eq_def] at h
    dsimp only at h
    split at h
    · cases h
    · cases h
    · cases step with
      | here => exact ih hrest htrail h
      | up => exact ih hrest (isEntryName_of_mem_trailAbove htrail) h
      | into name =>
        dsimp only at h
        split at h
        · cases h
        · exact ih hrest (List.forall_mem_cons.mpr ⟨hsteps name List.mem_cons_self, htrail⟩) h

namespace Entry

/-! ## Proper trees -/

/-- A tree whose entries have names that they may have, at any depth. -/
inductive IsProper : Entry → Prop
  | of_file (content : ByteArray) : IsProper (file content)
  | of_directory {entries : List (String × Entry)} (names : ∀ pair ∈ entries, IsEntryName pair.1)
    (inner : ∀ pair ∈ entries, IsProper pair.2) : IsProper (directory entries)

variable {tree new e : Entry} {entries : List (String × Entry)} {name path : String}

theorem isProper_directory_iff : IsProper (directory entries)
    ↔ (∀ pair ∈ entries, IsEntryName pair.1) ∧ ∀ pair ∈ entries, IsProper pair.2 := by
  constructor
  · rintro ⟨⟩
    exact ⟨‹_›, ‹_›⟩
  · rintro ⟨hnames, hinner⟩
    exact .of_directory hnames hinner

@[simp] theorem isProper_empty : IsProper (directory []) :=
  .of_directory (fun _ h ↦ absurd h List.not_mem_nil) fun _ h ↦ absurd h List.not_mem_nil

theorem IsProper.get? (h : IsProper (directory entries)) (hget : Index.get? entries name = some e) :
    IsProper e :=
  (isProper_directory_iff.mp h).2 _ (Index.mem_of_get? hget)

theorem IsProper.named? (h : IsProper (directory entries)) (hnamed : named? entries name = some e) :
    IsProper e := by
  rw [Entry.named?] at hnamed
  split at hnamed
  · next found hget =>
    obtain rfl := Option.some.inj hnamed
    exact h.get? hget
  · split at hnamed
    · obtain rfl := Option.some.inj hnamed
      exact isProper_empty
    · cases hnamed

theorem IsProper.at? {names : List String} (h : IsProper tree) (hat : tree.at? names = some e) :
    IsProper e := by
  induction names generalizing tree with
  | nil =>
    obtain rfl := Option.some.inj hat
    exact h
  | cons name rest ih =>
    obtain ⟨entries, child, rfl, hchild, hfound⟩ := exists_of_at?_cons hat
    exact ih (h.named? hchild) hfound

theorem IsProper.locate (h : IsProper tree) (hlocate : tree.locate path = .ok e) : IsProper e := by
  obtain ⟨trail, -, hat⟩ := exists_of_locate hlocate
  exact h.at? hat

/-- The names that are listed in a directory are those of entries of its own. -/
theorem IsProper.isName (h : IsProper (directory entries)) (hname : name ∈ listed entries) :
    IsName name := by
  obtain ⟨hmem, hinside⟩ := List.mem_filter.mp hname
  obtain ⟨pair, hpair, rfl⟩ := List.mem_map.mp hmem
  refine ((isProper_directory_iff.mp h).1 pair hpair).resolve_left fun houtside ↦ ?_
  rw [houtside] at hinside
  cases hinside

/-! ## Trees that are put together -/

theorem IsProper.set (h : IsProper (directory entries)) (hname : IsEntryName name)
    (hnew : IsProper new) : IsProper (directory (Index.set name new entries)) := by
  obtain ⟨hnames, hinner⟩ := isProper_directory_iff.mp h
  refine .of_directory (fun pair hpair ↦ ?_) fun pair hpair ↦ ?_
  · rcases Index.mem_set hpair with rfl | hpair
    · exact hname
    · exact hnames pair hpair
  · rcases Index.mem_set hpair with rfl | hpair
    · exact hnew
    · exact hinner pair hpair

theorem IsProper.put {names : List String} (h : IsProper tree)
    (hnames : ∀ name ∈ names, IsEntryName name) (hnew : IsProper new) :
    IsProper (Entry.put new tree names) := by
  induction names generalizing tree with
  | nil =>
    rw [Entry.put]
    exact hnew
  | cons name rest ih =>
    obtain ⟨hname, hrest⟩ := List.forall_mem_cons.mp hnames
    cases tree with
    | file content =>
      rw [Entry.put]
      exact h
    | directory entries =>
      rw [Entry.put.eq_def]
      dsimp only
      split
      · exact h.set hname hnew
      · next hchild _ => exact h.set hname (ih (h.named? hchild) hrest)
      · exact h

theorem IsProper.makeDirectory {names : List String} (h : IsProper tree)
    (hnames : ∀ name ∈ names, IsEntryName name) : IsProper (Entry.makeDirectory tree names) := by
  induction names generalizing tree with
  | nil =>
    rw [Entry.makeDirectory]
    exact h
  | cons name rest ih =>
    obtain ⟨hname, hrest⟩ := List.forall_mem_cons.mp hnames
    cases tree with
    | file content =>
      rw [Entry.makeDirectory]
      exact h
    | directory entries =>
      rw [Entry.makeDirectory]
      refine h.set hname (ih ?_ hrest)
      cases hget : Index.get? entries name with
      | none => exact isProper_empty
      | some child => exact h.get? hget

theorem IsProper.provide (h : IsProper tree) (path : String) (content : Option ByteArray) :
    IsProper (Entry.provide tree path content) := by
  have hnames : ∀ name ∈ (parts path).filter fun part ↦ part ≠ "" && part ≠ ".",
      IsEntryName name := by
    intro name hname
    obtain ⟨hmem, hkept⟩ := List.mem_filter.mp hname
    rw [Bool.and_eq_true, decide_eq_true_iff, decide_eq_true_iff] at hkept
    exact isEntryName_of_mem_parts hmem hkept.1 hkept.2
  cases content with
  | none => exact h.makeDirectory hnames
  | some content =>
    exact (h.makeDirectory fun name hname ↦ hnames name ((List.dropLast_sublist _).mem hname)).put
      hnames (.of_file content)

theorem IsProper.writeText {content : String} {after : FileTree} (h : IsProper tree)
    (hwrite : tree.writeText path content = .ok after) : IsProper after := by
  obtain ⟨front, trail, name, haims, -, rfl⟩ := exists_aims_of_writeText hwrite
  have hsteps : ∀ place, .into place ∈ front ++ [.into name] → IsEntryName place := by
    rw [← haims.steps]
    exact fun place ↦ isEntryName_of_into
  have hbeginning : ∀ name ∈ beginning path, IsEntryName name := by
    rw [beginning]
    split
    · exact List.forall_mem_singleton.mpr (Or.inl rfl)
    · exact fun name hname ↦ absurd hname List.not_mem_nil
  have htrail := isEntryName_of_follow
    (fun place hplace ↦ hsteps place (List.mem_append_left _ hplace)) hbeginning haims.leads
  refine h.put (fun place hplace ↦ ?_) (.of_file _)
  rcases List.mem_append.mp hplace with hplace | hplace
  · exact htrail place (List.mem_reverse.mp hplace)
  · obtain rfl := List.mem_singleton.mp hplace
    exact hsteps place (List.mem_append_right _ List.mem_cons_self)

end Entry

end MessageCatalog.Storage
