import Mathlib.Data.List.Basic
import MessageCatalog.Catalog.Live
import MessageCatalog.Integrity.Soundness
import MessageCatalog.Proofs.Catalog.NormalShape

/-!
# Mismatches of numerus flags

The check reports a live message whose numerus flag and wording do not agree. In a catalog that has
been read only one of the two ways to disagree occurs: a message that depends on a count always has
a list of forms, possibly an empty one, so that whatever is reported has numerus forms without the
flag.

The reports of this kind are told exactly, as the list of the messages that they are about. What the
check finds besides, and the keys and names that it has seen, have no part in them.
-/

namespace MessageCatalog.Integrity

open Plural

/-! ## The mismatches of any catalog -/

def isMismatch (i : Issue) : Bool :=
  i.kind = .numerusMismatch

/-- The mismatch of a message of the context with a name. -/
def mismatch (context : String) (m : Message) : Issue :=
  ⟨.error, .numerusMismatch, some context, some m.source⟩

/-- Whether the numerus flag and the wording of a message do not agree. -/
def isMismatched (m : Message) : Bool :=
  m.numerus != m.translation.wording.isPlural

/-- What is reported under a condition does not matter if it is not looked for. -/
theorem filter_ite_singleton {α : Type} {f : α → Bool} {a : α} {p : Prop} [Decidable p]
    (h : f a = false) : (if p then [a] else []).filter f = [] := by
  by_cases hp : p
  · rw [if_pos hp, List.filter_cons_of_neg (Bool.eq_false_iff.mp h), List.filter_nil]
  · rw [if_neg hp, List.filter_nil]

theorem filter_languageIssues (c : Catalog) : (languageIssues c).filter isMismatch = [] := by
  rw [languageIssues]
  split
  · rfl
  · split
    · rfl
    · rfl

theorem filter_formIssues (rules : Option RuleSet) (m : Message) :
    (formIssues rules m).filter (· = .numerusMismatch)
      = if isMismatched m then [.numerusMismatch] else [] := by
  unfold formIssues isMismatched
  by_cases hflag : m.numerus = m.translation.wording.isPlural
  · rw [if_neg (not_not.mpr hflag), if_neg (Bool.eq_false_iff.mp (bne_eq_false_iff_eq.mpr hflag))]
    -- all that may still be wrong is the number of the forms
    cases rules with
    | none => rfl
    | some r => exact filter_ite_singleton rfl
  · rw [if_pos hflag, if_pos (bne_iff_ne.mpr hflag)]
    rfl

theorem filter_messageIssues (rules : Option RuleSet) (m : Message) :
    (messageIssues rules m).filter (·.2 = .numerusMismatch)
      = if isMismatched m then [(.error, .numerusMismatch)] else [] := by
  have hforms : ((formIssues rules m).map fun kind ↦ (Severity.error, kind)).filter
      (·.2 = .numerusMismatch) = if isMismatched m then [(.error, .numerusMismatch)] else [] := by
    rw [List.filter_map]
    refine (congrArg _ (filter_formIssues rules m)).trans ?_
    split
    · rfl
    · rfl
  have hempty : (if isEmptyFinished m then [(Severity.error, Kind.emptyFinished)] else []).filter
      (·.2 = .numerusMismatch) = [] := filter_ite_singleton rfl
  rw [messageIssues, List.filter_append, List.filter_append, hforms, hempty, List.append_nil]
  cases placeholderMismatch? m with
  | none => exact List.append_nil _
  | some found => exact List.append_nil _

theorem filter_ownIssues (rules : Option RuleSet) (context : String) (m : Message) :
    ((messageIssues rules m).map fun (severity, kind) ↦
      (⟨severity, kind, some context, some m.source⟩ : Issue)).filter isMismatch
        = if isMismatched m then [mismatch context m] else [] := by
  rw [List.filter_map]
  refine (congrArg _ (filter_messageIssues rules m)).trans ?_
  split
  · rfl
  · rfl

theorem filter_issuesInMessages (rules : Option RuleSet) (context : String)
    (messages : List Message) : ∀ seen : List (String × String),
    (issuesInMessages rules context seen messages).filter isMismatch
      = (messages.filter isMismatched).map (mismatch context) := by
  induction messages with
  | nil =>
    intro seen
    rfl
  | cons m rest ih =>
    intro seen
    have hduplicate : (if messageKey m ∈ seen then
        [(⟨.error, .duplicateMessage, some context, some m.source⟩ : Issue)] else []).filter
          isMismatch = [] := filter_ite_singleton rfl
    rw [issuesInMessages, List.filter_append, List.filter_append, hduplicate, filter_ownIssues, ih,
      List.nil_append]
    by_cases hm : isMismatched m = true
    · rw [if_pos hm, List.filter_cons_of_pos hm]
      rfl
    · rw [if_neg hm, List.filter_cons_of_neg hm]
      rfl

theorem filter_issuesInContexts (rules : Option RuleSet) (contexts : List Context) :
    ∀ seen : List String, (issuesInContexts rules seen contexts).filter isMismatch
      = contexts.flatMap fun k ↦ (k.live.filter isMismatched).map (mismatch k.name) := by
  induction contexts with
  | nil =>
    intro seen
    rfl
  | cons k rest ih =>
    intro seen
    have hduplicate : (if k.name ∈ seen then
        [(⟨.error, .duplicateContext, some k.name, none⟩ : Issue)] else []).filter isMismatch
          = [] := filter_ite_singleton rfl
    rw [issuesInContexts, List.filter_append, List.filter_append, hduplicate, ih,
      filter_issuesInMessages, List.nil_append, List.flatMap_cons, Context.live]

/-- The mismatches of a catalog are those of its live messages, in document order. -/
theorem filter_issues (c : Catalog) :
    (issues c).filter isMismatch
      = c.contexts.flatMap fun k ↦ (k.live.filter isMismatched).map (mismatch k.name) := by
  rw [issues, List.filter_append, filter_languageIssues, List.nil_append,
    filter_issuesInContexts]

/-! ## The mismatches of a catalog that has been read -/

/-- Whether a message has numerus forms although it does not depend on a count. -/
def hasStrayForms (m : Message) : Bool :=
  !m.numerus && m.translation.wording.isPlural && !m.forms.isEmpty

theorem isNormal_iff_shape (m : Message) :
    m.isNormal = true
      ↔ (m.numerus = true → m.translation.wording.isPlural = true)
        ∧ (m.translation.wording = .plural [] → m.numerus = true) := by
  rw [Message.isNormal]
  cases m.translation.wording with
  | single text => simp [Wording.isPlural]
  | plural forms =>
    cases forms with
    | nil => simp [Wording.isPlural]
    | cons form forms => simp [Wording.isPlural]

/-- In normal shape, only forms without the flag are a mismatch. -/
theorem isMismatched_eq_hasStrayForms {m : Message} (h : m.isNormal = true) :
    isMismatched m = hasStrayForms m := by
  rw [Message.isNormal] at h
  rw [isMismatched, hasStrayForms, Message.forms]
  cases hwording : m.translation.wording with
  | single text =>
    rw [hwording, Bool.not_eq_true'] at h
    rw [h]
    rfl
  | plural forms =>
    rw [hwording, Bool.or_eq_true] at h
    cases hnumerus : m.numerus with
    | true => rfl
    | false =>
      rcases h with h | h
      · exact absurd (hnumerus.symm.trans h) Bool.false_ne_true
      · exact h.symm

/-- In a catalog that has been read, a message that depends on a count has a list of forms, and a
message with an empty list depends on a count. So a flag is reported exactly for the live messages
that have numerus forms without it, and writing the catalog changes no shape. -/
theorem shapes_of_parse {document : String} {c : Catalog} (h : Catalog.parse document = .ok c) :
    (∀ m ∈ c.messages,
        (m.2.numerus = true → m.2.translation.wording.isPlural = true)
          ∧ (m.2.translation.wording = .plural [] → m.2.numerus = true))
      ∧ (issues c).filter isMismatch
        = c.contexts.flatMap (fun k ↦ (k.live.filter hasStrayForms).map (mismatch k.name))
      ∧ c.normal = c := by
  have hnormal := normal_of_parse h
  refine ⟨?shapes, ?mismatches, hnormal⟩
  case shapes =>
    intro m hm
    exact (isNormal_iff_shape m.2).mp ((Catalog.normal_eq_self_iff c).mp hnormal m hm)
  case mismatches =>
    rw [filter_issues]
    refine List.flatMap_congr fun k hk ↦ ?_
    have hk' := (Catalog.normal_eq_self_iff_contexts c).mp hnormal k hk
    refine congrArg _ (List.filter_congr fun m hm ↦ ?_)
    have hmem : m ∈ k.messages := (List.mem_filter.mp hm).1
    exact isMismatched_eq_hasStrayForms ((Context.normal_eq_self_iff k).mp hk' m hmem)

/-- A document with a form where there is no count. -/
def strayDocument : String :=
  "<TS><context><name>a</name><message><source>b</source><translation><numerusform/></translation>"
    ++ "</message></context></TS>"

def strayCatalog : Catalog where
  contexts := [{ name := "a", messages := [
    { source := "b", translation := ⟨.finished, .plural [""]⟩ }] }]

theorem shapes_of_parse_strayDocument :
    Catalog.parse strayDocument = .ok strayCatalog
      ∧ (issues strayCatalog).filter isMismatch
        = [⟨.error, .numerusMismatch, some "a", some "b"⟩]
      ∧ strayCatalog.normal = strayCatalog := by
  have hparse : Catalog.parse strayDocument = .ok strayCatalog := by decide +kernel
  obtain ⟨-, hmismatches, hnormal⟩ := shapes_of_parse hparse
  exact ⟨hparse, hmismatches, hnormal⟩

end MessageCatalog.Integrity
