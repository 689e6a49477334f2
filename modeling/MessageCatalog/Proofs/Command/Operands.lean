import Mathlib.Tactic.SplitIfs
import MessageCatalog.Command.Request
import MessageCatalog.Proofs.Outcome

/-!
# Operands

Whatever switches and options stand around them, the operands of a command line are the words that
were given as such, and each was taken because it is of its kind. So the files that a task is about
are known: there is at least one, and none has an empty name.

Any such files can be given. After two hyphens a name is an operand even if it begins with a hyphen
itself.
-/

namespace MessageCatalog.Command

variable {g : Grammar} {w after : Words} {flag : Flag} {word : String}

/-! ## Switches and options -/

theorem eq_ok_of_map_pair {α : Type} {x : Except Stop Words} {a b : α}
    (h : (x.map fun w ↦ (w, a)) = .ok (after, b)) : x = .ok after := by
  obtain ⟨w, hw, heq⟩ := exists_of_map_eq_ok h
  rw [hw, (Prod.mk.inj heq).1]

theorem Words.operands_give (h : w.give flag = .ok after) : after.operands = w.operands := by
  rw [give] at h
  split at h
  · split_ifs at h
    obtain rfl := Except.ok.inj h
    rfl
  · obtain rfl := Except.ok.inj h
    rfl
  · cases h
  · cases h

theorem Words.operands_giveValue {value : String} (h : w.giveValue flag value = .ok after) :
    after.operands = w.operands := by
  rw [giveValue] at h
  split_ifs at h
  obtain rfl := Except.ok.inj h
  rfl

namespace Grammar

theorem operands_takeLong {long : List Char} {waiting : Option Flag}
    (h : g.takeLong w long = .ok (after, waiting)) : after.operands = w.operands := by
  rw [takeLong] at h
  split at h
  · cases h
  · exact Words.operands_giveValue (eq_ok_of_map_pair h)
  · split_ifs at h
    · obtain ⟨rfl, -⟩ := Prod.mk.inj (Except.ok.inj h)
      rfl
    · exact Words.operands_give (eq_ok_of_map_pair h)

theorem operands_takeShort {short : List Char} {waiting : Option Flag}
    (h : g.takeShort w short = .ok (after, waiting)) : after.operands = w.operands := by
  induction short generalizing w with
  | nil =>
    obtain ⟨rfl, -⟩ := Prod.mk.inj (Except.ok.inj h)
    rfl
  | cons c rest ih =>
    rw [takeShort] at h
    split at h
    · cases h
    · split_ifs at h
      · split at h
        · obtain ⟨rfl, -⟩ := Prod.mk.inj (Except.ok.inj h)
          rfl
        · exact Words.operands_giveValue (eq_ok_of_map_pair h)
        · exact Words.operands_giveValue (eq_ok_of_map_pair h)
      · obtain ⟨w', hw', hrest⟩ := exists_of_bind_eq_ok h
        rw [ih hrest, Words.operands_give hw']

/-! ## Operands of their kinds -/

/-- Each operand is of the kind that the grammar has for its place. -/
def Fits (g : Grammar) (operands : List String) : Prop :=
  ∀ i word, operands[i]? = some word → (g.operand? i).any (·.accepts word) = true

@[simp] theorem fits_nil : g.Fits [] := by
  intro i word h
  rw [List.getElem?_nil] at h
  cases h

/-- An operand is taken if it is of the kind for the next place. -/
theorem fits_concat {operands : List String} (h : g.Fits operands)
    (hword : (g.operand? operands.length).any (·.accepts word) = true) :
    g.Fits (operands ++ [word]) := by
  intro i word' hi
  rcases Nat.lt_trichotomy i operands.length with hlt | rfl | hgt
  · rw [List.getElem?_append_left hlt] at hi
    exact h i word' hi
  · rw [List.getElem?_concat_length] at hi
    obtain rfl := Option.some.inj hi
    exact hword
  · rw [List.getElem?_eq_none (by rw [List.length_append, List.length_singleton]; omega)] at hi
    cases hi

theorem fits_giveOperand (h : g.giveOperand w word = .ok after) (hw : g.Fits w.operands) :
    g.Fits after.operands := by
  rw [giveOperand] at h
  split_ifs at h with hword
  obtain rfl := Except.ok.inj h
  exact fits_concat hw hword

theorem fits_foldlM {words : List String} (h : words.foldlM g.giveOperand w = .ok after)
    (hw : g.Fits w.operands) : g.Fits after.operands := by
  induction words generalizing w with
  | nil =>
    obtain rfl := Except.ok.inj h
    exact hw
  | cons word rest ih =>
    rw [List.foldlM_cons] at h
    obtain ⟨w', hw', hrest⟩ := exists_of_bind_eq_ok h
    exact ih hrest (fits_giveOperand hw' hw)

theorem fits_take {single : Bool} {waiting : Option Flag} {words rest : List String}
    (h : g.take single w waiting words = .ok (after, rest)) (hw : g.Fits w.operands) :
    g.Fits after.operands := by
  induction words generalizing w waiting with
  | nil =>
    rcases waiting with - | flag
    · obtain ⟨rfl, -⟩ := Prod.mk.inj (Except.ok.inj h)
      exact hw
    · cases h
  | cons word words ih =>
    rw [take.eq_def] at h
    dsimp only at h
    split at h
    case h_1 heq => cases heq
    case h_2 heq => cases heq
    case h_3 heq =>
    obtain ⟨rfl, rfl⟩ := List.cons.inj heq
    split at h
    -- after two hyphens only operands follow
    · split_ifs at h
      exact fits_foldlM (eq_ok_of_map_pair h) hw
    · cases h
    · cases h
    · obtain ⟨⟨w', waiting'⟩, hw', hrest⟩ := exists_of_bind_eq_ok h
      exact ih hrest (operands_takeLong hw' ▸ hw)
    · obtain ⟨⟨w', waiting'⟩, hw', hrest⟩ := exists_of_bind_eq_ok h
      exact ih hrest (operands_takeShort hw' ▸ hw)
    · obtain ⟨w', hw', hrest⟩ := exists_of_bind_eq_ok h
      exact ih hrest (Words.operands_giveValue hw' ▸ hw)
    · split_ifs at h
      · obtain ⟨rfl, -⟩ := Prod.mk.inj (Except.ok.inj h)
        exact hw
      · obtain ⟨w', hw', hrest⟩ := exists_of_bind_eq_ok h
        exact ih hrest (fits_giveOperand hw' hw)

/-- A command line that is taken has enough operands, each of its kind. -/
theorem fits_parse {words : List String} (h : g.parse words = .ok w) :
    g.Fits w.operands ∧ g.least ≤ w.operands.length := by
  obtain ⟨⟨w', rest⟩, htake, h⟩ := exists_of_bind_eq_ok h
  dsimp only at h
  split_ifs at h with hleast
  obtain rfl := Except.ok.inj h
  exact ⟨fits_take htake fits_nil, hleast⟩

/-! ## Files -/

theorem giveOperand_path (hkind : ∀ i, g.operand? i = some .path) (h : word ≠ "") :
    g.giveOperand w word = .ok { w with operands := w.operands ++ [word] } := by
  rw [giveOperand, hkind, if_pos]
  exact decide_eq_true h

theorem foldlM_giveOperand (hkind : ∀ i, g.operand? i = some .path) {files : List String}
    (h : "" ∉ files) :
    files.foldlM g.giveOperand w = .ok { w with operands := w.operands ++ files } := by
  induction files generalizing w with
  | nil =>
    rw [List.foldlM_nil, List.append_nil]
    rfl
  | cons file rest ih =>
    rw [List.mem_cons, not_or] at h
    obtain ⟨hfile, hrest⟩ := h
    rw [List.foldlM_cons, giveOperand_path hkind (Ne.symm hfile), ok_bind, ih hrest,
      List.append_assoc, List.singleton_append]

theorem foldlM_giveOperand_of_mem (hkind : ∀ i, g.operand? i = some .path) {files : List String}
    (h : "" ∈ files) : files.foldlM g.giveOperand w = .error .misuse := by
  induction files generalizing w with
  | nil => exact absurd h List.not_mem_nil
  | cons file rest ih =>
    rw [List.foldlM_cons]
    by_cases hfile : file = ""
    · rw [hfile, giveOperand, hkind]
      rfl
    · rw [giveOperand_path hkind hfile, ok_bind]
      exact ih (List.mem_of_ne_of_mem (Ne.symm hfile) h)

theorem ne_empty_of_parse {flags : List Flag} {words : List String}
    (h : (grammarOfFiles flags).parse words = .ok w) : w.operands ≠ [] ∧ "" ∉ w.operands := by
  obtain ⟨hfits, hleast⟩ := fits_parse h
  constructor
  · exact List.ne_nil_of_length_pos hleast
  · intro hmem
    obtain ⟨i, hi⟩ := List.mem_iff_getElem?.mp hmem
    have hpath : Kind.path.accepts "" = true := hfits i "" hi
    exact Bool.false_ne_true hpath

end Grammar

/-! ## Requests -/

/-- A task is described by words that the grammar of its subcommand takes. -/
theorem exists_of_parse? {words : List String} {quiet : Bool} {verbose : Nat}
    {task : Task String}
    (h : Request.parse? words = some (.run quiet verbose task)) :
    ∃ subcommand g rest w, grammars.get? subcommand = some g ∧ g.parse rest = .ok w
      ∧ w.task? subcommand = some task := by
  have hrequest : requestOf words = .ok (.run quiet verbose task) := by
    rw [Request.parse?] at h
    split at h
    case h_1 request hrequest =>
      rw [hrequest, Option.some.inj h]
    all_goals cases h
  obtain ⟨⟨w, rest⟩, -, h⟩ := exists_of_bind_eq_ok hrequest
  dsimp only at h
  split at h
  · cases h
  · cases h
  · rename_i subcommand rest _
    split at h
    · cases h
    · rename_i g hg
      obtain ⟨inner, hinner, h⟩ := exists_of_bind_eq_ok h
      split at h
      · rename_i task' htask
        cases h
        exact ⟨subcommand, g, rest, inner, hg, hinner, htask⟩
      · cases h

/-- Words that ask for files to be checked. The names stand after two hyphens. -/
def validateWords (files : List String) (json : Bool) : List String :=
  "validate" :: (if json then ["--json"] else []) ++ "--" :: files

/-- The files are taken one by one, and there has to be one. -/
theorem requestOf_validateWords (files : List String) (json : Bool) :
    requestOf (validateWords files json)
      = (files.foldlM (grammarOfFiles [⟨"json", none, .once⟩]).giveOperand
          { switches := if json then ["json"] else [] }).bind fun w ↦
        if 1 ≤ w.operands.length then
          .ok (.run ("quiet" ∈ w.switches) (w.switches.count "verbose")
            (.validate w.operands (w.isOn "json")))
        else .error .misuse := by
  let g := grammarOfFiles [⟨"json", none, .once⟩]
  have hrequest : requestOf (validateWords files json)
      = (g.parse ((if json then ["--json"] else []) ++ "--" :: files)).bind fun w ↦
        .ok (.run ("quiet" ∈ w.switches) (w.switches.count "verbose")
          (.validate w.operands (w.isOn "json"))) := rfl
  have htake : g.take false {} none ((if json then ["--json"] else []) ++ "--" :: files)
      = (files.foldlM g.giveOperand { switches := if json then ["json"] else [] }).map
        fun w ↦ (w, []) := by
    rcases json with - | -
    · rfl
    · rfl
  rw [hrequest, Grammar.parse, htake]
  rcases files.foldlM g.giveOperand _ with stop | w
  · rfl
  · change (if 1 ≤ w.operands.length then Except.ok w else .error Stop.misuse).bind _
      = if 1 ≤ w.operands.length then _ else _
    split_ifs
    · rfl
    · rfl

theorem parse?_validateWords {files : List String} (hne : files ≠ []) (hempty : "" ∉ files)
    (json : Bool) :
    Request.parse? (validateWords files json) = some (.run false 0 (.validate files json)) := by
  have hleast : 1 ≤ ([] ++ files).length := List.length_pos_iff.mpr hne
  rw [Request.parse?, requestOf_validateWords,
    Grammar.foldlM_giveOperand (fun _ ↦ rfl) hempty, Except.bind, if_pos hleast]
  rcases json with - | -
  · rfl
  · rfl

/-- Without a file, or with an empty name, there is nothing to be done. -/
theorem parse?_validateWords_eq_none {files : List String} (h : files = [] ∨ "" ∈ files)
    (json : Bool) : Request.parse? (validateWords files json) = none := by
  rw [Request.parse?, requestOf_validateWords]
  rcases h with rfl | hempty
  · rfl
  · rw [Grammar.foldlM_giveOperand_of_mem (fun _ ↦ rfl) hempty]
    rfl

theorem exists_parse?_validate_iff {files : List String} {json : Bool} :
    (∃ words quiet verbose,
      Request.parse? words = some (.run quiet verbose (.validate files json)))
      ↔ files ≠ [] ∧ "" ∉ files := by
  constructor
  · rintro ⟨words, quiet, verbose, h⟩
    obtain ⟨subcommand, g, rest, w, hg, hparse, htask⟩ := exists_of_parse? h
    rw [Words.task?.eq_def] at htask
    dsimp only at htask
    split at htask
    case h_3 files' =>
      obtain ⟨rfl, -⟩ := Task.validate.inj (Option.some.inj htask)
      obtain rfl := Option.some.inj hg
      exact Grammar.ne_empty_of_parse hparse
    all_goals cases htask
  · rintro ⟨hne, hempty⟩
    exact ⟨_, _, _, parse?_validateWords hne hempty json⟩

end MessageCatalog.Command
