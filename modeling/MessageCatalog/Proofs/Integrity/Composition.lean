import Mathlib.Data.List.Basic
import MessageCatalog.Catalog.Live
import MessageCatalog.Integrity.Soundness

/-!
# Checking a catalog in parts

The check goes along contexts, and along the messages of each. All that it carries from one to the
next are the names, or the keys, that it has seen, and those matter only where they come again. So
the check can stop anywhere and go on from what it has seen by then.

Hence the report on a catalog is that on its first contexts and then that on the others, unless a
name comes again: a duplicate of a context can only be seen with both parts at hand. The language is
looked at first and once, so the second part is not to report it another time.
-/

namespace MessageCatalog.Integrity

open Plural

/-! ## Going on from what was seen -/

/-- To have seen a list is to have seen its first member and then the others. -/
theorem reverse_map_cons_append {α β : Type} (key : α → β) (a : α) (l : List α) (seen : List β) :
    ((a :: l).map key).reverse ++ seen = (l.map key).reverse ++ key a :: seen := by
  rw [List.map_cons, List.reverse_cons, ← List.append_cons]

theorem issuesInMessages_append (rules : Option RuleSet) (context : String)
    (first others : List Message) : ∀ seen : List (String × String),
    issuesInMessages rules context seen (first ++ others)
      = issuesInMessages rules context seen first
        ++ issuesInMessages rules context ((first.map messageKey).reverse ++ seen) others := by
  induction first with
  | nil =>
    intro seen
    rfl
  | cons m rest ih =>
    intro seen
    rw [List.cons_append, issuesInMessages, issuesInMessages, ih, reverse_map_cons_append,
      List.append_assoc, List.append_assoc, List.append_assoc]

theorem issuesInContexts_append (rules : Option RuleSet) (first others : List Context) :
    ∀ seen : List String,
    issuesInContexts rules seen (first ++ others)
      = issuesInContexts rules seen first
        ++ issuesInContexts rules ((first.map (·.name)).reverse ++ seen) others := by
  induction first with
  | nil =>
    intro seen
    rfl
  | cons k rest ih =>
    intro seen
    rw [List.cons_append, issuesInContexts, issuesInContexts, ih, reverse_map_cons_append,
      List.append_assoc, List.append_assoc, List.append_assoc]

/-- Names that were seen matter only if they come again. -/
theorem issuesInContexts_congr (rules : Option RuleSet) {contexts : List Context} :
    ∀ {seen seen' : List String}, (∀ k ∈ contexts, k.name ∈ seen ↔ k.name ∈ seen') →
      issuesInContexts rules seen contexts = issuesInContexts rules seen' contexts := by
  induction contexts with
  | nil =>
    intro seen seen' _
    rfl
  | cons k rest ih =>
    intro seen seen' h
    have hrest : ∀ k' ∈ rest, k'.name ∈ k.name :: seen ↔ k'.name ∈ k.name :: seen' := by
      intro k' hk'
      rw [List.mem_cons, List.mem_cons, h k' (List.mem_cons_of_mem _ hk')]
    have hname := propext (h k List.mem_cons_self)
    simp only [issuesInContexts, hname, ih hrest]

/-! ## What is reported where -/

/-- Whether something is wrong with the language of a catalog. -/
def Kind.isAboutLanguage : Kind → Bool
  | .missingLanguage | .unknownLanguage _ => true
  | _ => false

/-- Whether something is wrong with a message by itself. -/
def Kind.isAboutMessage : Kind → Bool
  | .emptyFinished | .formCount .. | .numerusMismatch | .placeholderMismatch .. => true
  | _ => false

theorem Kind.not_isAboutLanguage {kind : Kind} (h : kind.isAboutMessage = true) :
    kind.isAboutLanguage = false := by
  cases kind with
  | emptyFinished | formCount | numerusMismatch | placeholderMismatch => rfl
  | duplicateContext | duplicateMessage | missingLanguage | unknownLanguage => cases h

theorem formIssues_cases {rules : Option RuleSet} {m : Message} {kind : Kind}
    (h : kind ∈ formIssues rules m) :
    kind = .numerusMismatch ∨ ∃ expected found, kind = .formCount expected found := by
  unfold formIssues at h
  split at h
  · exact Or.inl (List.mem_singleton.mp h)
  · split at h
    · cases h
    · split at h
      · exact Or.inr ⟨_, _, List.mem_singleton.mp h⟩
      · cases h

theorem messageIssues_cases {rules : Option RuleSet} {m : Message} {found : Severity × Kind}
    (h : found ∈ messageIssues rules m) :
    found.2 = .numerusMismatch ∨ (∃ expected count, found.2 = .formCount expected count)
      ∨ found.2 = .emptyFinished
      ∨ ∃ expected other, placeholderMismatch? m = some (expected, other)
        ∧ found.2 = .placeholderMismatch (expected.map ("%" ++ ·)) (other.map ("%" ++ ·)) := by
  rw [messageIssues, List.mem_append, List.mem_append] at h
  obtain (hforms | htexts) | hplaceholders := h
  · obtain ⟨kind, hkind, rfl⟩ := List.mem_map.mp hforms
    rcases formIssues_cases hkind with hmismatch | hcount
    · exact Or.inl hmismatch
    · exact Or.inr (Or.inl hcount)
  · split at htexts
    · rw [List.mem_singleton.mp htexts]
      exact Or.inr (Or.inr (Or.inl rfl))
    · cases htexts
  · split at hplaceholders
    · cases hplaceholders
    · next expected other hmismatch =>
      rw [List.mem_singleton.mp hplaceholders]
      exact Or.inr (Or.inr (Or.inr ⟨expected, other, hmismatch, rfl⟩))

theorem isAboutMessage_of_mem_messageIssues {rules : Option RuleSet} {m : Message}
    {found : Severity × Kind} (h : found ∈ messageIssues rules m) :
    found.2.isAboutMessage = true := by
  rcases messageIssues_cases h with hkind | ⟨expected, count, hkind⟩ | hkind
    | ⟨expected, other, -, hkind⟩
  all_goals
    rw [hkind]
    rfl

theorem exists_of_mem_issuesInMessages {rules : Option RuleSet} {context : String}
    {messages : List Message} : ∀ {seen : List (String × String)} {i : Issue},
    i ∈ issuesInMessages rules context seen messages →
      ∃ m ∈ messages, i.context = some context ∧ i.source = some m.source
        ∧ (i.kind = .duplicateMessage ∨ (i.severity, i.kind) ∈ messageIssues rules m) := by
  induction messages with
  | nil =>
    intro seen i h
    cases h
  | cons m rest ih =>
    intro seen i h
    rw [issuesInMessages, List.mem_append, List.mem_append] at h
    obtain (hduplicate | hown) | hrest := h
    · split at hduplicate
      · rw [List.mem_singleton.mp hduplicate]
        exact ⟨m, List.mem_cons_self, rfl, rfl, Or.inl rfl⟩
      · cases hduplicate
    · obtain ⟨found, hfound, rfl⟩ := List.mem_map.mp hown
      exact ⟨m, List.mem_cons_self, rfl, rfl, Or.inr hfound⟩
    · obtain ⟨m', hm', hwhere⟩ := ih hrest
      exact ⟨m', List.mem_cons_of_mem m hm', hwhere⟩

/-- An issue is reported of a context, named as it is, or of one of its live messages. -/
theorem exists_of_mem_issuesInContexts {rules : Option RuleSet} {contexts : List Context} :
    ∀ {seen : List String} {i : Issue}, i ∈ issuesInContexts rules seen contexts →
      ∃ k ∈ contexts, i.context = some k.name
        ∧ (i.kind = .duplicateContext ∧ i.source = none
          ∨ ∃ m ∈ k.live, i.source = some m.source
            ∧ (i.kind = .duplicateMessage ∨ (i.severity, i.kind) ∈ messageIssues rules m)) := by
  induction contexts with
  | nil =>
    intro seen i h
    cases h
  | cons k rest ih =>
    intro seen i h
    rw [issuesInContexts, List.mem_append, List.mem_append] at h
    obtain (hduplicate | hmessages) | hrest := h
    · split at hduplicate
      · rw [List.mem_singleton.mp hduplicate]
        exact ⟨k, List.mem_cons_self, rfl, Or.inl ⟨rfl, rfl⟩⟩
      · cases hduplicate
    · obtain ⟨m, hm, hcontext, hmessage⟩ := exists_of_mem_issuesInMessages hmessages
      exact ⟨k, List.mem_cons_self, hcontext, Or.inr ⟨m, hm, hmessage⟩⟩
    · obtain ⟨k', hk', hwhere⟩ := ih hrest
      exact ⟨k', List.mem_cons_of_mem k hk', hwhere⟩

theorem kind_of_mem_issuesInMessages {rules : Option RuleSet} {context : String}
    {messages : List Message} {seen : List (String × String)} {i : Issue}
    (h : i ∈ issuesInMessages rules context seen messages) :
    i.kind = .duplicateMessage ∨ i.kind.isAboutMessage = true := by
  obtain ⟨m, -, -, -, hkind⟩ := exists_of_mem_issuesInMessages h
  exact hkind.imp_right isAboutMessage_of_mem_messageIssues

theorem kind_of_mem_issuesInContexts {rules : Option RuleSet} {contexts : List Context}
    {seen : List String} {i : Issue} (h : i ∈ issuesInContexts rules seen contexts) :
    i.kind = .duplicateContext ∨ i.kind = .duplicateMessage
      ∨ i.kind.isAboutMessage = true := by
  obtain ⟨k, -, -, ⟨hkind, -⟩ | ⟨m, -, -, hkind⟩⟩ := exists_of_mem_issuesInContexts h
  · exact Or.inl hkind
  · exact Or.inr (hkind.imp_right isAboutMessage_of_mem_messageIssues)

theorem not_isAboutLanguage_of_mem_issuesInContexts {rules : Option RuleSet}
    {contexts : List Context} {seen : List String} {i : Issue}
    (h : i ∈ issuesInContexts rules seen contexts) : i.kind.isAboutLanguage = false := by
  obtain hkind | hkind | hkind := kind_of_mem_issuesInContexts h
  · rw [hkind]
    rfl
  · rw [hkind]
    rfl
  · exact Kind.not_isAboutLanguage hkind

/-! ## Two parts -/

/-- Issues without the leading one, if that is about the language. -/
def withoutLanguageIssue : List Issue → List Issue
  | [] => []
  | i :: rest => if i.kind.isAboutLanguage then rest else i :: rest

theorem withoutLanguageIssue_eq_self {found : List Issue}
    (h : ∀ i ∈ found, i.kind.isAboutLanguage = false) : withoutLanguageIssue found = found := by
  cases found with
  | nil => rfl
  | cons i rest => exact if_neg (Bool.eq_false_iff.mp (h i List.mem_cons_self))

/-- The language is reported at the head of a report and nowhere else. -/
theorem withoutLanguageIssue_issues (c : Catalog) :
    withoutLanguageIssue (issues c)
      = issuesInContexts (RuleSet.ofLanguage? c.language) [] c.contexts := by
  have hnone : withoutLanguageIssue
      (issuesInContexts (RuleSet.ofLanguage? c.language) [] c.contexts)
        = issuesInContexts (RuleSet.ofLanguage? c.language) [] c.contexts :=
    withoutLanguageIssue_eq_self fun i ↦ not_isAboutLanguage_of_mem_issuesInContexts
  rw [issues, languageIssues]
  split
  · rfl
  · split
    · exact hnone
    · rfl

/-- If no name of one catalog's contexts occurs in another one of the same language, the report on
both together is that on the one and then, without what it says of the language, that on the other.
-/
theorem issues_append {c d both : Catalog} (hlanguage : d.language = c.language)
    (hnames : ∀ k ∈ c.contexts, ∀ k' ∈ d.contexts, k.name ≠ k'.name)
    (hboth : both.language = c.language) (hcontexts : both.contexts = c.contexts ++ d.contexts) :
    issues both = issues c ++ withoutLanguageIssue (issues d) := by
  have hseen : issuesInContexts (RuleSet.ofLanguage? c.language)
      ((c.contexts.map (·.name)).reverse ++ []) d.contexts
        = issuesInContexts (RuleSet.ofLanguage? c.language) [] d.contexts := by
    refine issuesInContexts_congr _ fun k' hk' ↦ ?_
    refine iff_of_false (fun hmem ↦ ?_) List.not_mem_nil
    rw [List.append_nil, List.mem_reverse] at hmem
    obtain ⟨k, hk, hname⟩ := List.mem_map.mp hmem
    exact hnames k hk k' hk' hname
  rw [withoutLanguageIssue_issues, hlanguage, issues, issues, languageIssues, hboth,
    ← languageIssues, hcontexts, issuesInContexts_append, hseen, List.append_assoc]

/-- A catalog without a language, with a name and a key that come twice. -/
def menuCatalog : Catalog where
  contexts := [
    { name := "Menu", messages := [
      .ofTranslation "Open %1" ⟨.finished, .single ""⟩,
      .ofTranslation "Open %1" ⟨.finished, .single "Otwórz %1"⟩] },
    { name := "Menu" }]

/-- A catalog without a language, with the same source text in another context. -/
def dialogCatalog : Catalog where
  contexts := [
    { name := "Dialog", messages := [.ofTranslation "Open %1" ⟨.finished, .single "Otwórz"⟩] }]

theorem issues_append_dialogCatalog :
    (dialogCatalog.language = menuCatalog.language
        ∧ ∀ k ∈ menuCatalog.contexts, ∀ k' ∈ dialogCatalog.contexts, k.name ≠ k'.name)
      ∧ issues { menuCatalog with contexts := menuCatalog.contexts ++ dialogCatalog.contexts }
        = issues menuCatalog
          ++ [⟨.error, .placeholderMismatch ["%1"] [], some "Dialog", some "Open %1"⟩] := by
  have hnames : ∀ k ∈ menuCatalog.contexts, ∀ k' ∈ dialogCatalog.contexts, k.name ≠ k'.name := by
    decide
  have hdialog : withoutLanguageIssue (issues dialogCatalog)
      = [⟨.error, .placeholderMismatch ["%1"] [], some "Dialog", some "Open %1"⟩] := by
    decide +kernel
  have hlanguage : dialogCatalog.language = menuCatalog.language := rfl
  refine ⟨⟨hlanguage, hnames⟩, ?_⟩
  rw [← hdialog]
  exact issues_append hlanguage hnames rfl rfl

end MessageCatalog.Integrity
