import Mathlib.Data.List.Nodup
import MessageCatalog.Catalog.Live
import MessageCatalog.Integrity.Soundness

/-!
# What the check of a catalog decides

No error is found in a catalog exactly if it is sound, and no issue at all exactly if it is
immaculate.

Both say the same of different severities. Some set of severities is *refused*, the errors among
them, and the check is followed once: it spares a catalog, finding nothing that is refused, exactly
if the catalog is sound and, where warnings are refused too, has what else an immaculate one has.

## Duplicates

The check goes along names and along keys with a list of those before. What it reports depends on
that list, so the induction is over any list of names seen before, of which those that follow have
to be free.
-/

namespace MessageCatalog.Integrity

open Plural

/-! ## Distinct from those before -/

/-- The members of a list are distinct, and none of them was seen before. -/
def AreFresh {α : Type} (seen l : List α) : Prop :=
  l.Nodup ∧ ∀ a ∈ l, a ∉ seen

@[simp] theorem areFresh_nil {α : Type} (seen : List α) : AreFresh seen [] :=
  ⟨List.nodup_nil, fun _ h ↦ absurd h List.not_mem_nil⟩

theorem areFresh_cons {α : Type} {seen l : List α} {a : α} :
    AreFresh seen (a :: l) ↔ a ∉ seen ∧ AreFresh (a :: seen) l := by
  constructor
  · rintro ⟨hnodup, hseen⟩
    obtain ⟨hmem, hrest⟩ := List.nodup_cons.mp hnodup
    refine ⟨hseen a List.mem_cons_self, hrest, fun b hb hbseen ↦ ?_⟩
    rcases List.mem_cons.mp hbseen with rfl | hbseen
    · exact hmem hb
    · exact hseen b (List.mem_cons_of_mem _ hb) hbseen
  · rintro ⟨hseen, hnodup, hrest⟩
    refine ⟨List.nodup_cons.mpr ⟨fun hmem ↦ hrest a hmem List.mem_cons_self, hnodup⟩, ?_⟩
    intro b hb
    rcases List.mem_cons.mp hb with rfl | hb
    · exact hseen
    · exact fun hbseen ↦ hrest b hb (List.mem_cons_of_mem _ hbseen)

@[simp] theorem areFresh_nil_left {α : Type} {l : List α} : AreFresh [] l ↔ l.Nodup :=
  ⟨And.left, fun h ↦ ⟨h, fun _ _ ↦ List.not_mem_nil⟩⟩

/-! ## A message by itself -/

theorem formIssues_eq_nil_iff (rules : Option RuleSet) (m : Message) :
    formIssues rules m = []
      ↔ (m.numerus = true ↔ m.translation.wording.isPlural = true)
        ∧ (m.numerus = true → ∀ r ∈ rules,
            m.forms.length = r.formCount ∨ m.forms.length = r.categoryCount) := by
  have haccepts : ∀ r : RuleSet, r.accepts m.forms.length = true
      ↔ m.forms.length = r.formCount ∨ m.forms.length = r.categoryCount := by
    intro r
    rw [RuleSet.accepts, Bool.or_eq_true, decide_eq_true_eq, decide_eq_true_eq]
  rw [← Bool.eq_iff_iff]
  unfold formIssues
  by_cases hflag : m.numerus = m.translation.wording.isPlural
  · rw [if_neg (not_not.mpr hflag)]
    cases rules with
    | none => simp [hflag]
    | some r => cases hnumerus : m.numerus <;> simp [← hflag, hnumerus, haccepts]
  · simp [hflag]

theorem isEmptyFinished_eq_false_iff (m : Message) :
    isEmptyFinished m = false
      ↔ (m.status = .finished → m.forms ≠ [] ∧ ∀ form ∈ m.forms, form ≠ "") := by
  rw [isEmptyFinished, Bool.and_eq_false_imp, decide_eq_true_eq, Bool.or_eq_false_iff,
    List.isEmpty_eq_false_iff, List.any_eq_false]
  simp only [String.isEmpty_iff]

theorem placeholderMismatch?_eq_none_iff (m : Message) :
    placeholderMismatch? m = none ↔ placeholdersMatch m := by
  simp only [placeholderMismatch?, placeholdersMatch, Option.map_eq_none_iff,
    List.find?_eq_none, List.forall_mem_map, List.mem_filter, Bool.not_eq_true',
    String.isEmpty_eq_false_iff, and_imp, decide_eq_true_eq, not_not]

theorem IsSound.nodup_keys {c : Catalog} (h : IsSound c) {k : Context} (hk : k ∈ c.contexts) :
    (k.live.map messageKey).Nodup := by
  rw [k.live_eq_filter]
  exact h.keys_distinct k hk

theorem isSound_iff (c : Catalog) : IsSound c ↔ (c.contexts.map (·.name)).Nodup
    ∧ ∀ k ∈ c.contexts, (k.live.map messageKey).Nodup
      ∧ ∀ m ∈ k.live, IsSoundMessage (RuleSet.ofLanguage? c.language) m := by
  constructor
  · intro h
    refine ⟨h.names_distinct, fun k hk ↦ ⟨h.nodup_keys hk, fun m hm ↦ ?_⟩⟩
    obtain ⟨hmem, hlive⟩ := Context.mem_live_iff.mp hm
    exact h.messages k hk m hmem hlive
  · rintro ⟨hnames, hcontexts⟩
    refine ⟨hnames, fun k hk ↦ ?_, fun k hk m hm hlive ↦ ?_⟩
    · have hkeys := (hcontexts k hk).1
      rwa [k.live_eq_filter] at hkeys
    · exact (hcontexts k hk).2 m (Context.mem_live_iff.mpr ⟨hm, hlive⟩)

/-! ## Nothing that is refused -/

/-- None of the issues is of a refused severity. -/
def Spares (refused : Severity → Prop) (found : List Issue) : Prop :=
  ∀ i ∈ found, ¬refused i.severity

section

variable {refused : Severity → Prop}

@[simp] theorem spares_append {a b : List Issue} :
    Spares refused (a ++ b) ↔ Spares refused a ∧ Spares refused b :=
  List.forall_mem_append

theorem spares_map {α : Type} {f : α → Issue} (severity : α → Severity) (l : List α)
    (h : ∀ a, (f a).severity = severity a) :
    Spares refused (l.map f) ↔ ∀ a ∈ l, ¬refused (severity a) := by
  simp only [Spares, List.forall_mem_map, h]

theorem hasErrors_eq_false_iff (found : List Issue) :
    hasErrors found = false ↔ Spares (· = .error) found := by
  simp only [hasErrors, Spares, List.any_eq_false, decide_eq_true_eq]

theorem eq_nil_iff_spares (found : List Issue) : found = [] ↔ Spares (fun _ ↦ True) found := by
  simp only [Spares, not_true_eq_false, List.eq_nil_iff_forall_not_mem, imp_false]

theorem spares_languageIssues (c : Catalog) :
    Spares refused (languageIssues c)
      ↔ (refused .warning → (RuleSet.ofLanguage? c.language).isSome) := by
  rw [languageIssues, RuleSet.ofLanguage?]
  cases c.language with
  | none => simp [Spares]
  | some language =>
    rw [Option.bind_some]
    cases hrules : RuleSet.ofLocale language <;> simp [Spares, hrules, Except.toOption]

variable (herror : refused .error)
include herror

theorem spares_if_error {p : Prop} [Decidable p] (kind : Kind) (context source : Option String) :
    Spares refused (if p then [⟨.error, kind, context, source⟩] else []) ↔ ¬p := by
  split_ifs with hp <;> simp [Spares, hp, herror]

/-- Only what is wrong with the placeholders of a message may be a warning. -/
theorem placeholderSeverity_refused_iff (m : Message) :
    (refused (placeholderSeverity m) → placeholdersMatch m)
      ↔ (m.status = .finished → placeholdersMatch m)
        ∧ (refused .warning → placeholdersMatch m) := by
  rw [placeholderSeverity]
  by_cases hstatus : m.status = .finished
  · simp only [hstatus, if_true, herror, forall_const]
    exact ⟨fun h ↦ ⟨h, fun _ ↦ h⟩, And.left⟩
  · simp only [hstatus, if_false, false_imp_iff, true_and]

theorem spares_messageIssues (rules : Option RuleSet) (m : Message) :
    (∀ found ∈ messageIssues rules m, ¬refused found.1)
      ↔ IsSoundMessage rules m ∧ (refused .warning → placeholdersMatch m) := by
  have hforms : (∀ found ∈ (formIssues rules m).map fun kind ↦ (Severity.error, kind),
      ¬refused found.1) ↔ formIssues rules m = [] := by
    simp [herror, List.eq_nil_iff_forall_not_mem]
  have htexts : (∀ found ∈ (if isEmptyFinished m then [(Severity.error, Kind.emptyFinished)]
      else []), ¬refused found.1) ↔ isEmptyFinished m = false := by
    cases isEmptyFinished m <;> simp [herror]
  rw [messageIssues, List.forall_mem_append, List.forall_mem_append, hforms, htexts,
    formIssues_eq_nil_iff, isEmptyFinished_eq_false_iff]
  refine (and_congr_right' (?placeholders : _
    ↔ (refused (placeholderSeverity m) → placeholdersMatch m))).trans ?assembled
  case placeholders =>
    rw [← placeholderMismatch?_eq_none_iff]
    cases placeholderMismatch? m <;> simp
  case assembled =>
    rw [placeholderSeverity_refused_iff herror]
    constructor
    · rintro ⟨⟨⟨hnumerus, hcount⟩, htexts⟩, hfinished, hwarning⟩
      exact ⟨⟨hnumerus, hcount, htexts, hfinished⟩, hwarning⟩
    · rintro ⟨⟨hnumerus, hcount, htexts, hfinished⟩, hwarning⟩
      exact ⟨⟨⟨hnumerus, hcount⟩, htexts⟩, hfinished, hwarning⟩

theorem spares_issuesInMessages (rules : Option RuleSet) (context : String)
    (messages : List Message) : ∀ seen : List (String × String),
    Spares refused (issuesInMessages rules context seen messages)
      ↔ AreFresh seen (messages.map messageKey)
        ∧ ∀ m ∈ messages, IsSoundMessage rules m ∧ (refused .warning → placeholdersMatch m) := by
  induction messages with
  | nil =>
    intro seen
    simp [issuesInMessages, Spares, areFresh_nil]
  | cons m rest ih =>
    intro seen
    rw [issuesInMessages, spares_append, spares_append, spares_if_error herror,
      spares_map Prod.fst _ fun _ ↦ rfl, spares_messageIssues herror, ih, List.map_cons,
      areFresh_cons, List.forall_mem_cons]
    tauto

theorem spares_issuesInContexts (rules : Option RuleSet) (contexts : List Context) :
    ∀ seen : List String, Spares refused (issuesInContexts rules seen contexts)
      ↔ AreFresh seen (contexts.map (·.name))
        ∧ ∀ k ∈ contexts, (k.live.map messageKey).Nodup
          ∧ ∀ m ∈ k.live, IsSoundMessage rules m ∧ (refused .warning → placeholdersMatch m) := by
  induction contexts with
  | nil =>
    intro seen
    simp [issuesInContexts, Spares, areFresh_nil]
  | cons k rest ih =>
    intro seen
    rw [issuesInContexts, spares_append, spares_append, spares_if_error herror,
      spares_issuesInMessages herror, areFresh_nil_left, ih, List.map_cons, areFresh_cons,
      List.forall_mem_cons, Context.live]
    tauto

/-- What has to hold of a catalog for nothing that is refused to be found. -/
theorem spares_issues (c : Catalog) :
    Spares refused (issues c)
      ↔ IsSound c ∧ (refused .warning → (RuleSet.ofLanguage? c.language).isSome
          ∧ ∀ k ∈ c.contexts, ∀ m ∈ k.live, placeholdersMatch m) := by
  rw [issues, spares_append, spares_languageIssues, spares_issuesInContexts herror,
    areFresh_nil_left, isSound_iff]
  constructor
  · rintro ⟨hrules, hnames, hcontexts⟩
    refine ⟨⟨hnames, fun k hk ↦ ⟨(hcontexts k hk).1, fun m hm ↦ ((hcontexts k hk).2 m hm).1⟩⟩, ?_⟩
    exact fun hwarning ↦ ⟨hrules hwarning, fun k hk m hm ↦ ((hcontexts k hk).2 m hm).2 hwarning⟩
  · rintro ⟨⟨hnames, hcontexts⟩, hwarnings⟩
    refine ⟨fun hwarning ↦ (hwarnings hwarning).1, hnames, fun k hk ↦ ⟨(hcontexts k hk).1, ?_⟩⟩
    intro m hm
    exact ⟨(hcontexts k hk).2 m hm, fun hwarning ↦ (hwarnings hwarning).2 k hk m hm⟩

end

/-! ## The verdict -/

theorem hasErrors_issues_eq_false_iff (c : Catalog) :
    hasErrors (issues c) = false ↔ IsSound c := by
  rw [hasErrors_eq_false_iff, @spares_issues (· = .error) rfl]
  exact and_iff_left fun hwarning ↦ by cases hwarning

/-- No error is found exactly in sound catalogs, and no issue exactly in immaculate ones. -/
theorem verdict_iff (c : Catalog) :
    (hasErrors (issues c) = false ↔ IsSound c) ∧ (issues c = [] ↔ IsImmaculate c) := by
  refine ⟨hasErrors_issues_eq_false_iff c, ?_⟩
  rw [eq_nil_iff_spares, spares_issues trivial]
  constructor
  · rintro ⟨hsound, hrest⟩
    obtain ⟨hrules, hplaceholders⟩ := hrest trivial
    refine ⟨hsound, hrules, fun k hk m hm hlive ↦ ?_⟩
    exact hplaceholders k hk m (Context.mem_live_iff.mpr ⟨hm, hlive⟩)
  · rintro ⟨hsound, hrules, hplaceholders⟩
    refine ⟨hsound, fun _ ↦ ⟨hrules, fun k hk m hm ↦ ?_⟩⟩
    obtain ⟨hmem, hlive⟩ := Context.mem_live_iff.mp hm
    exact hplaceholders k hk m hmem hlive

end MessageCatalog.Integrity
