import MessageCatalog.Proofs.Outcome
import MessageCatalog.Proofs.Storage.Path
import MessageCatalog.Proofs.Storage.Tree

/-!
# Files at paths

A path is followed through directories, and only its last step may lead to anything else. So what a
path leads to is known from the directory that all steps but the last lead to (`locate_of_steps`).
This serves both ways in which paths are used: the path of a file to write, whose last step is the
file's name (`Aims`), and the path of a name in a directory, which is joined to the directory's own
path (`locate_join`).

A file that is written is found again by its path (`readText_writeText`): the directories on the way
are still directories, and at the place itself is the file.
-/

namespace MessageCatalog.Storage

/-! ## Following steps -/

theorem follow_cons (tree : FileTree) (trail : List String) (step : Step) (rest : List Step) :
    follow tree trail (step :: rest)
      = (follow tree trail [step] >>= fun trail ↦ follow tree trail rest) := by
  rw [follow.eq_def tree trail (step :: rest), follow.eq_def tree trail [step]]
  dsimp only
  cases tree.at? trail.reverse with
  | none => rfl
  | some e =>
    cases e with
    | file content => rfl
    | directory entries =>
      cases step with
      | here => rfl
      | up => rfl
      | into name =>
        dsimp only
        by_cases hname : maxNameWidth < name.utf8ByteSize
        · rw [if_pos hname, if_pos hname]
          rfl
        · rw [if_neg hname, if_neg hname]
          rfl

theorem follow_append (tree : FileTree) (steps more : List Step) : ∀ trail : List String,
    follow tree trail (steps ++ more)
      = (follow tree trail steps >>= fun trail ↦ follow tree trail more) := by
  induction steps with
  | nil =>
    intro trail
    rfl
  | cons step rest ih =>
    intro trail
    rw [List.cons_append, follow_cons, follow_cons tree trail step rest]
    cases follow tree trail [step] with
    | error cause => rfl
    | ok next => exact ih next

theorem follow_into {tree : FileTree} {trail : List String} {entries : List (String × Entry)}
    (hat : tree.at? trail.reverse = some (.directory entries)) (name : String) :
    follow tree trail [.into name]
      = if maxNameWidth < name.utf8ByteSize then .error .nameTooLong else .ok (name :: trail) := by
  rw [follow, hat]
  rfl

theorem eq_of_follow_here {tree : FileTree} {trail found : List String}
    (h : follow tree trail [.here] = .ok found) : found = trail := by
  rw [follow] at h
  split at h
  · cases h
  · cases h
  · exact (Except.ok.inj h).symm

/-- A way that leads through directories is open as long as they are directories. -/
theorem follow_of_directories {tree after : FileTree}
    (h : ∀ names, tree.view names = some none → after.view names = some none) {steps : List Step} :
    ∀ {trail found : List String}, follow tree trail steps = .ok found →
      follow after trail steps = .ok found := by
  induction steps with
  | nil =>
    intro trail found hfound
    exact hfound
  | cons step rest ih =>
    intro trail found hfound
    rw [follow_cons] at hfound ⊢
    obtain ⟨next, hstep, hrest⟩ := exists_of_bind_eq_ok hfound
    have hafter : follow after trail [step] = .ok next := by
      rw [follow.eq_def] at hstep ⊢
      dsimp only at hstep ⊢
      split at hstep
      · cases hstep
      · cases hstep
      · next entries hat =>
        obtain ⟨entries', hat'⟩ :=
          Entry.view_eq_directory_iff.mp (h _ (Entry.view_eq_directory_iff.mpr ⟨entries, hat⟩))
        rw [hat']
        exact hstep
    rw [hafter]
    exact ih hrest

/-! ## Paths -/

/-- The names that lead to where a path begins. -/
def beginning (path : String) : List String :=
  if path.startsWith "/" then ["/"] else []

theorem followPath_of_none {path : String} (h : pathFault? path = none) (tree : FileTree)
    (steps : List Step) : followPath tree path steps = follow tree (beginning path) steps := by
  rw [followPath, h]
  rfl

theorem followPath_eq_ok {tree : FileTree} {path : String} {steps : List Step}
    {trail : List String} (h : followPath tree path steps = .ok trail) :
    pathFault? path = none ∧ follow tree (beginning path) steps = .ok trail := by
  rw [followPath] at h
  cases hfault : pathFault? path with
  | some cause =>
    rw [hfault] at h
    cases h
  | none =>
    rw [hfault] at h
    exact ⟨rfl, h⟩

theorem pathFault?_eq_none_iff {path : String} : pathFault? path = none
    ↔ '\x00' ∉ path.toList ∧ path ≠ "" ∧ path.utf8ByteSize ≤ maxPathWidth := by
  rw [pathFault?, ← Nat.not_lt]
  split_ifs <;> simp_all

theorem ne_empty_of_pathFault? {path : String} (h : pathFault? path = none) : path ≠ "" :=
  (pathFault?_eq_none_iff.mp h).2.1

/-- A null character in a joined path is one of the directory or of the name. -/
theorem pathFault?_join_eq_none_iff {dir name : String} (hname : IsName name) (hdir : dir ≠ "") :
    pathFault? (join dir name) = none ↔ '\x00' ∉ dir.toList ∧ '\x00' ∉ name.toList
      ∧ (join dir name).utf8ByteSize ≤ maxPathWidth := by
  rw [pathFault?_eq_none_iff, mem_join_iff hname.no_slash hdir (by decide), not_or, and_assoc]
  simp only [ne_eq, join_ne_empty hname hdir, not_false_eq_true, true_and]

theorem pathFault?_ne_notFound {path : String} (h : path ≠ "") :
    pathFault? path ≠ some .notFound := by
  rw [pathFault?, if_neg h]
  split_ifs <;> rintro ⟨⟩

namespace Entry

variable {tree : FileTree} {path name : String} {front : List Step} {trail : List String}
  {entries : List (String × Entry)}

theorem ne_empty_of_locate {e : Entry} (h : tree.locate path = .ok e) : path ≠ "" := by
  rintro rfl
  cases h

/-- A path leads to what is at the place that its steps lead to. -/
theorem exists_of_locate {e : Entry} (h : tree.locate path = .ok e) :
    ∃ trail, followPath tree path ((parts path).map Step.ofPart) = .ok trail
      ∧ tree.at? trail.reverse = some e := by
  rw [locate] at h
  obtain ⟨trail, hfollow, hat⟩ := exists_of_bind_eq_ok h
  refine ⟨trail, hfollow, ?_⟩
  split at hat
  · next found hfound => rw [hfound, Except.ok.inj hat]
  · cases hat

/-- What the last step of a path leads to, from the directory before it. -/
theorem locate_of_steps (hsteps : (parts path).map Step.ofPart = front ++ [.into name])
    (hfront : follow tree (beginning path) front = .ok trail)
    (hat : tree.at? trail.reverse = some (directory entries)) :
    tree.locate path = match pathFault? path with
      | some cause => .error cause
      | none =>
        if maxNameWidth < name.utf8ByteSize then .error .nameTooLong
        else match tree.at? (trail.reverse ++ [name]) with
          | some e => .ok e
          | none => .error .notFound := by
  rw [locate, hsteps]
  cases hfault : pathFault? path with
  | some cause =>
    rw [followPath, hfault]
    rfl
  | none =>
    rw [followPath_of_none hfault, follow_append, hfront]
    dsimp only
    change (follow tree trail [.into name] >>= _) = _
    rw [follow_into hat]
    by_cases hname : maxNameWidth < name.utf8ByteSize
    · rw [if_pos hname, if_pos hname]
      rfl
    · rw [if_neg hname, if_neg hname, ← List.reverse_cons]
      rfl

/-! ## Names in a directory -/

/-- The steps of a path below a directory lead to the directory and into the name. -/
theorem steps_join {dir : String} (hname : IsName name)
    (hdir : tree.locate dir = .ok (directory entries)) :
    ∃ front trail, (parts (join dir name)).map Step.ofPart = front ++ [.into name]
      ∧ follow tree (beginning (join dir name)) front = .ok trail
      ∧ tree.at? trail.reverse = some (directory entries) := by
  obtain ⟨trail, hfollow, hat⟩ := exists_of_locate hdir
  obtain ⟨hfault, hfollow⟩ := followPath_eq_ok hfollow
  have hne := ne_empty_of_pathFault? hfault
  obtain ⟨front, hparts, hfront⟩ := parts_join hname.no_slash hne
  refine ⟨front.map Step.ofPart, trail, ?steps, ?leads, hat⟩
  case steps =>
    have hstep : Step.ofPart name = .into name := by
      rw [Step.ofPart, if_neg (by simp [hname.ne_empty, hname.ne_dot]), if_neg hname.ne_up]
    rw [hparts, List.map_append, List.map_singleton, hstep]
  case leads =>
    rw [beginning, startsWith_join hname.no_slash hne, ← beginning]
    rcases hfront with hfront | hfront
    · rwa [← hfront]
    · -- the slash at the end of the directory's path stays where it is
      rw [hfront, List.map_append, follow_append] at hfollow
      obtain ⟨next, hnext, hhere⟩ := exists_of_bind_eq_ok hfollow
      rw [hnext, eq_of_follow_here hhere]

theorem locate_join {dir : String} (hname : IsName name)
    (hdir : tree.locate dir = .ok (directory entries)) :
    tree.locate (join dir name) = match pathFault? (join dir name) with
      | some cause => .error cause
      | none =>
        if maxNameWidth < name.utf8ByteSize then .error .nameTooLong
        else match named? entries name with
          | some e => .ok e
          | none => .error .notFound := by
  obtain ⟨front, trail, hsteps, hfront, hat⟩ := steps_join hname hdir
  rw [locate_of_steps hsteps hfront hat, at?_concat hat]

/-! ## Files to write -/

/-- A path that ends with a name in a directory, where there is no directory of that name. -/
structure Aims (tree : FileTree) (path : String) (front : List Step) (trail : List String)
    (name : String) : Prop where
  no_fault : pathFault? path = none
  no_slash : path.endsWith "/" = false
  steps : (parts path).map Step.ofPart = front ++ [.into name]
  leads : follow tree (beginning path) front = .ok trail
  short : ¬maxNameWidth < name.utf8ByteSize
  free : IsFree tree trail.reverse name

/-- Behind the last slash of a path that does not end with one, there is a name. -/
theorem dropWhile_parts (hpath : path ≠ "") (hslash : path.endsWith "/" = false) :
    (parts path).reverse.dropWhile (· = "") = (parts path).reverse := by
  have hlast := getLast?_parts_ne hpath hslash
  rw [← List.head?_reverse] at hlast
  cases hparts : (parts path).reverse with
  | nil => rfl
  | cons part rest =>
    rw [hparts, List.head?_cons] at hlast
    rw [List.dropWhile_cons, if_neg]
    exact fun h ↦ hlast (congrArg some (of_decide_eq_true h))

theorem exists_aims_of_target {names : List String} (h : tree.target path = .ok names) :
    ∃ front trail name, Aims tree path front trail name ∧ names = trail.reverse ++ [name] := by
  rw [target] at h
  split at h
  · next name steps hsteps =>
    obtain ⟨trail, hfollow, h⟩ := exists_of_bind_eq_ok h
    obtain ⟨hfault, hfollow⟩ := followPath_eq_ok hfollow
    cases hat : tree.at? trail.reverse with
    | none =>
      rw [hat] at h
      cases h
    | some e =>
      rw [hat] at h
      cases e with
      | file content => cases h
      | directory entries =>
        dsimp only at h
        split_ifs at h with hslash hname
        rw [Bool.not_eq_true] at hslash
        rw [dropWhile_parts (ne_empty_of_pathFault? hfault) hslash, List.map_reverse] at hsteps
        have hparts : (parts path).map Step.ofPart = steps.reverse ++ [.into name] := by
          rw [← List.reverse_reverse ((parts path).map Step.ofPart), hsteps, List.reverse_cons]
        split at h
        · cases h
        · next hfree =>
          refine ⟨steps.reverse, trail, name, ⟨hfault, hslash, hparts, hfollow, hname,
            entries, hat, fun inner hinner ↦ hfree inner hinner⟩, ?_⟩
          rw [← Except.ok.inj h, List.reverse_cons]
  · -- a path that does not end with a name is not written to
    obtain ⟨e, -, h⟩ := exists_of_bind_eq_ok h
    cases e <;> cases h

theorem Aims.target_eq (h : Aims tree path front trail name) :
    tree.target path = .ok (trail.reverse ++ [name]) := by
  obtain ⟨entries, hat, hfree⟩ := h.free
  have hsteps : ((parts path).reverse.dropWhile (· = "")).map Step.ofPart
      = .into name :: front.reverse := by
    rw [dropWhile_parts (ne_empty_of_pathFault? h.no_fault) h.no_slash, List.map_reverse, h.steps,
      List.reverse_concat]
  rw [target, hsteps]
  dsimp only
  rw [List.reverse_reverse, followPath_of_none h.no_fault, h.leads, ok_bind, hat]
  dsimp only
  rw [if_neg (by rw [h.no_slash]; exact Bool.false_ne_true), if_neg h.short, List.reverse_cons]
  split
  · next inner hinner => exact absurd hinner (hfree inner)
  · rfl

theorem Aims.locate_eq (h : Aims tree path front trail name) :
    tree.locate path = match tree.at? (trail.reverse ++ [name]) with
      | some e => .ok e
      | none => .error .notFound := by
  obtain ⟨entries, hat, -⟩ := h.free
  rw [locate_of_steps h.steps h.leads hat, h.no_fault]
  exact if_neg h.short

/-- After a file is put where a path aims, the path still aims there. -/
theorem Aims.put (h : Aims tree path front trail name) (content : ByteArray) :
    Aims (put (file content) tree (trail.reverse ++ [name])) path front trail name := by
  refine ⟨h.no_fault, h.no_slash, h.steps, ?_, h.short, h.free.put content⟩
  refine follow_of_directories (fun names hnames ↦ ?_) h.leads
  rw [view_put content h.free]
  by_cases hplace : names = trail.reverse ++ [name]
  · rw [hplace] at hnames
    exact absurd hnames (isFree_iff.mp h.free).2
  · rw [if_neg hplace, hnames]

/-- A path that can be written to aims at a place. -/
theorem exists_aims_of_writeText {content : String} {after : FileTree}
    (h : tree.writeText path content = .ok after) :
    ∃ front trail name, Aims tree path front trail name
      ∧ tree.target path = .ok (trail.reverse ++ [name])
      ∧ after = Entry.put (file content.toUTF8) tree (trail.reverse ++ [name]) := by
  rw [writeText] at h
  obtain ⟨names, htarget, rfl⟩ := exists_of_map_eq_ok h
  obtain ⟨front, trail, name, haims, rfl⟩ := exists_aims_of_target htarget
  exact ⟨front, trail, name, haims, htarget, rfl⟩

/-! ## Written files -/

variable {content : String} {after : FileTree}

/-- Writing to a path changes what is at its target, and nothing else. -/
theorem view_writeText (h : tree.writeText path content = .ok after) {names : List String}
    (hnames : tree.target path ≠ .ok names) : after.view names = tree.view names := by
  obtain ⟨front, trail, name, haims, htarget, rfl⟩ := exists_aims_of_writeText h
  have hplace : names ≠ trail.reverse ++ [name] := by
    rintro rfl
    exact hnames htarget
  rw [view_put _ haims.free, if_neg hplace]

theorem readText_writeText (h : tree.writeText path content = .ok after) :
    after.readText path = .ok content := by
  obtain ⟨front, trail, name, haims, -, rfl⟩ := exists_aims_of_writeText h
  have hview := view_put content.toUTF8 haims.free (trail.reverse ++ [name])
  rw [if_pos rfl, view_eq_file_iff] at hview
  have htext : String.fromUTF8? content.toUTF8 = some content := dif_pos content.isValidUTF8
  rw [readText, (haims.put _).locate_eq, hview, ok_bind]
  dsimp only
  rw [htext]
  rfl

/-- Writing the same text once more changes nothing. -/
theorem writeText_writeText (h : tree.writeText path content = .ok after) :
    after.writeText path content = .ok after := by
  obtain ⟨front, trail, name, haims, -, rfl⟩ := exists_aims_of_writeText h
  have hview := view_put content.toUTF8 haims.free (trail.reverse ++ [name])
  rw [if_pos rfl, view_eq_file_iff] at hview
  rw [writeText, (haims.put _).target_eq]
  exact congrArg Except.ok (put_eq_self hview)

/-! ## Trees that grow -/

/-- Whatever is seen in a tree is seen in another one too, which may hold more files. -/
def Extends (tree after : FileTree) : Prop :=
  ∀ names seen, tree.view names = some seen → after.view names = some seen

/-- A file that is new adds to a tree. -/
theorem extends_writeText (h : tree.writeText path content = .ok after)
    (hnew : tree.has path = false) : Extends tree after := by
  obtain ⟨front, trail, name, haims, -, rfl⟩ := exists_aims_of_writeText h
  intro names seen hseen
  rw [view_put _ haims.free, if_neg, hseen]
  rintro rfl
  obtain ⟨e, he, -⟩ := Option.map_eq_some_iff.mp hseen
  rw [has, haims.locate_eq, he] at hnew
  cases hnew

theorem locate_of_extends {found : ByteArray} (hextends : Extends tree after)
    (h : tree.locate path = .ok (file found)) : after.locate path = .ok (file found) := by
  obtain ⟨trail, hfollow, hat⟩ := exists_of_locate h
  obtain ⟨hfault, hfollow⟩ := followPath_eq_ok hfollow
  have hfollow' := follow_of_directories (fun names ↦ hextends names none) hfollow
  have hat' := view_eq_file_iff.mp (hextends _ _ (view_eq_file_iff.mpr hat))
  rw [locate, followPath_of_none hfault, hfollow', ok_bind, hat']
  rfl

/-- What can be read in a tree can be read when there is more in it. -/
theorem readText_of_extends {text : String} (hextends : Extends tree after)
    (h : tree.readText path = .ok text) : after.readText path = .ok text := by
  obtain ⟨e, hlocate, htext⟩ := exists_of_bind_eq_ok h
  rcases e with found | entries
  · rw [readText, locate_of_extends hextends hlocate]
    exact htext
  · cases htext

end Entry

end MessageCatalog.Storage
