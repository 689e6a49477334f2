import MessageCatalog.Locale.Preference
import MessageCatalog.Proofs.Integrity.Verdict
import MessageCatalog.Proofs.Lookup.FirstMatch
import MessageCatalog.Proofs.Plural.Forms
import MessageCatalog.Proofs.Text.Blank

/-!
# The spelling of a locale does not matter

Two texts spell the same locale if they are equal once trimmed and written with underscores. Tags
are read from the trimmed text written with hyphens. The two ways of comparing agree, since a text
that is written in one notation and then in the other is the same as if it had been written in the
other at once. So both spellings have the same tag, and their rules differ in nothing but the name
that was asked for.

Rules *agree* if they answer alike: which forms there are, whether a number of forms fits, and which
form a count gets. The check and the lookup ask nothing else of them, in particular not for their
name, so they cannot tell two catalogs with the same contexts apart whose rules agree. The language
itself comes up in one place only, in the warning that it has no rules.
-/

namespace MessageCatalog

open Text Plural MessageCatalog.Locale

/-! ## Spellings -/

namespace Locale

variable {a b : String}

/-- Locales may as well be compared with hyphens. -/
theorem sameLocale_iff :
    sameLocale a b = true ↔ replaceChar '_' '-' (trim a) = replaceChar '_' '-' (trim b) := by
  rw [sameLocale, decide_eq_true_eq]
  constructor
  · intro h
    rw [← replaceChar_replaceChar '-' '_' (trim a), h, replaceChar_replaceChar]
  · intro h
    rw [← replaceChar_replaceChar '_' '-' (trim a), h, replaceChar_replaceChar]

theorem Tag.ofLocale_eq (locale : String) :
    Tag.ofLocale locale
      = Tag.ofSubtags (splitOn '-' (replaceChar '_' '-' (trim locale)).toList) := by
  rw [toList_replaceChar, toList_trim]
  rfl

theorem Tag.ofLocale_of_sameLocale (h : sameLocale a b = true) :
    Tag.ofLocale a = Tag.ofLocale b := by
  rw [Tag.ofLocale_eq, Tag.ofLocale_eq, sameLocale_iff.mp h]

end Locale

/-! ## Rules that agree -/

namespace Plural.RuleSet

/-- Two rule sets that answer every question alike, whatever their names are. -/
structure Agree (r s : RuleSet) : Prop where
  forms_eq : r.forms = s.forms
  formCount_eq : r.formCount = s.formCount
  categoryCount_eq : r.categoryCount = s.categoryCount
  accepts_eq : ∀ found, r.accepts found = s.accepts found
  select_eq : ∀ count, r.select count = s.select count

/-- The same rules under another name. -/
def renamed (r : RuleSet) (locale : String) : RuleSet :=
  { r with locale }

theorem agree_renamed (r : RuleSet) (locale : String) : Agree r (r.renamed locale) where
  forms_eq := rfl
  formCount_eq := rfl
  categoryCount_eq := rfl
  accepts_eq _ := rfl
  select_eq _ := rfl

variable {a b : String}

/-- Another spelling of a locale has the same rules under that name, or fails for the same reason.
-/
theorem ofLocale_of_sameLocale (h : sameLocale a b = true) :
    ofLocale b = (ofLocale a).map (·.renamed b) := by
  rw [ofLocale, ofLocale, Tag.ofLocale_of_sameLocale h]
  cases Tag.ofLocale b with
  | error reason => rfl
  | ok tag =>
    -- the forms are those of the rules, so that the name does not decide whether there are any
    change (if (⟨b, rulesOf tag⟩ : RuleSet).forms = [] then _ else _)
      = Except.map _ (if (⟨b, rulesOf tag⟩ : RuleSet).forms = [] then _ else _)
    split_ifs <;> rfl

theorem ofLocale_cases (h : sameLocale a b = true) :
    (∃ r, ofLocale a = .ok r ∧ ofLocale b = .ok (r.renamed b))
      ∨ ∃ reason, ofLocale a = .error reason ∧ ofLocale b = .error reason := by
  rw [ofLocale_of_sameLocale h]
  cases ofLocale a with
  | ok r => exact .inl ⟨r, rfl, rfl⟩
  | error reason => exact .inr ⟨reason, rfl, rfl⟩

theorem ofLanguage?_of_sameLocale (h : sameLocale a b = true) :
    Option.Rel Agree (ofLanguage? (some a)) (ofLanguage? (some b)) := by
  rw [ofLanguage?, ofLanguage?, Option.bind_some, Option.bind_some]
  obtain ⟨r, ha, hb⟩ | ⟨reason, ha, hb⟩ := ofLocale_cases h
  · rw [ha, hb]
    exact .some (r.agree_renamed b)
  · rw [ha, hb]
    exact .none

end Plural.RuleSet

/-! ## The check -/

namespace Integrity

section

variable {rules rules' : Option RuleSet} (h : Option.Rel RuleSet.Agree rules rules')
include h

theorem formIssues_of_rel (m : Message) : formIssues rules m = formIssues rules' m := by
  cases h with
  | none => rfl
  | some hagree => simp only [formIssues, hagree.formCount_eq, hagree.accepts_eq]

theorem issuesInMessages_of_rel (context : String) (seen : List (String × String))
    (messages : List Message) :
    issuesInMessages rules context seen messages
      = issuesInMessages rules' context seen messages := by
  induction messages generalizing seen with
  | nil => rfl
  | cons m rest ih =>
    have hown : messageIssues rules m = messageIssues rules' m := by
      rw [messageIssues, messageIssues, formIssues_of_rel h]
    rw [issuesInMessages, issuesInMessages, hown, ih]

theorem issuesInContexts_of_rel (seen : List String) (contexts : List Context) :
    issuesInContexts rules seen contexts = issuesInContexts rules' seen contexts := by
  induction contexts generalizing seen with
  | nil => rfl
  | cons k rest ih => rw [issuesInContexts, issuesInContexts, issuesInMessages_of_rel h, ih]

end

theorem errors_languageIssues (c : Catalog) : errors (languageIssues c) = [] := by
  have hspared : Spares (· = .error) (languageIssues c) := (spares_languageIssues c).mpr nofun
  rw [errors, List.filter_eq_nil_iff]
  intro i hi
  rw [decide_eq_true_eq]
  exact hspared i hi

theorem languageIssues_of_isSome {c : Catalog} (h : (RuleSet.ofLanguage? c.language).isSome) :
    languageIssues c = [] :=
  (eq_nil_iff_spares _).mpr ((spares_languageIssues c).mpr fun _ ↦ h)

section

variable {c d : Catalog} (hcontexts : c.contexts = d.contexts)
  (hrules : Option.Rel RuleSet.Agree (RuleSet.ofLanguage? c.language)
    (RuleSet.ofLanguage? d.language))
include hcontexts hrules

theorem errors_issues_of_rel : errors (issues c) = errors (issues d) := by
  have herrors : ∀ e : Catalog, errors (issues e)
      = errors (issuesInContexts (RuleSet.ofLanguage? e.language) [] e.contexts) := by
    intro e
    rw [issues, errors, List.filter_append]
    exact congrArg (· ++ _) (errors_languageIssues e)
  rw [herrors, herrors, hcontexts, issuesInContexts_of_rel hrules]

theorem issues_of_rel (h : (RuleSet.ofLanguage? c.language).isSome) : issues c = issues d := by
  have h' : (RuleSet.ofLanguage? d.language).isSome := by
    generalize RuleSet.ofLanguage? c.language = rules, RuleSet.ofLanguage? d.language = rules'
      at h hrules
    cases hrules with
    | none => exact h
    | some => rfl
  rw [issues, issues, languageIssues_of_isSome h, languageIssues_of_isSome h', hcontexts,
    issuesInContexts_of_rel hrules]

end

end Integrity

/-! ## Lookups -/

namespace Lookup.Table

theorem formIndex_of_rel {t u : Table} (h : Option.Rel RuleSet.Agree t.rules u.rules) (e : Entry)
    (count : Option Nat) : t.formIndex e count = u.formIndex e count := by
  unfold formIndex
  generalize t.rules = rules, u.rules = rules' at h
  cases h with
  | none => rfl
  | some hagree =>
    cases count with
    | none => rfl
    | some count => simp only [hagree.select_eq]

theorem translate?_of_rel {c d : Catalog} (hcontexts : c.contexts = d.contexts)
    (hrules : Option.Rel RuleSet.Agree (RuleSet.ofLanguage? c.language)
      (RuleSet.ofLanguage? d.language))
    (includeUnfinished : Bool) (q : Query) :
    (ofCatalog c includeUnfinished).translate? q
      = (ofCatalog d includeUnfinished).translate? q := by
  have hanswer : answering? c includeUnfinished q = answering? d includeUnfinished q := by
    simp only [answering?, firstUsable?, Catalog.messages, hcontexts]
  rw [← rules_ofCatalog c includeUnfinished, ← rules_ofCatalog d includeUnfinished] at hrules
  simp only [translate?, answer?_ofCatalog, hanswer, formIndex_of_rel hrules]

end Lookup.Table

/-! ## Catalogs in either spelling -/

namespace Locale

/-- Spellings of one locale have rules for the one if for the other, and then rules that agree. Of
two catalogs that differ in the spelling of their language only, the check finds the same errors,
and altogether the same issues if the language has rules; and they answer every query alike. -/
theorem alike_of_sameLocale {a b : String} (h : sameLocale a b = true) :
    ((∃ r, RuleSet.ofLocale a = .ok r) ↔ ∃ s, RuleSet.ofLocale b = .ok s)
      ∧ (∀ r s, RuleSet.ofLocale a = .ok r → RuleSet.ofLocale b = .ok s → r.Agree s)
      ∧ ∀ c d : Catalog, c.language = some a → d = { c with language := some b } →
        Integrity.errors (Integrity.issues c) = Integrity.errors (Integrity.issues d)
          ∧ ((∃ r, RuleSet.ofLocale a = .ok r) → Integrity.issues c = Integrity.issues d)
          ∧ ∀ includeUnfinished q,
            (Lookup.Table.ofCatalog c includeUnfinished).translate? q
              = (Lookup.Table.ofCatalog d includeUnfinished).translate? q := by
  refine ⟨?loads, ?agree, ?catalogs⟩
  case loads =>
    obtain ⟨r, ha, hb⟩ | ⟨reason, ha, hb⟩ := RuleSet.ofLocale_cases h
    · exact iff_of_true ⟨r, ha⟩ ⟨_, hb⟩
    · rw [ha, hb]
  case agree =>
    intro r s hr hs
    rw [RuleSet.ofLocale_of_sameLocale h, hr] at hs
    obtain rfl := Except.ok.inj hs
    exact r.agree_renamed b
  case catalogs =>
    intro c d hc hd
    have hcontexts : c.contexts = d.contexts := by rw [hd]
    have hrules := RuleSet.ofLanguage?_of_sameLocale h
    have hlanguage : d.language = some b := by rw [hd]
    rw [← hc, ← hlanguage] at hrules
    refine ⟨Integrity.errors_issues_of_rel hcontexts hrules, ?_,
      Lookup.Table.translate?_of_rel hcontexts hrules⟩
    rintro ⟨r, hr⟩
    refine Integrity.issues_of_rel hcontexts hrules ?_
    rw [hc, RuleSet.ofLanguage?, Option.bind_some, hr]
    rfl

/-- A catalog with a translation that lacks two of its three forms. -/
def folderCatalog : Catalog where
  language := some "pl-PL"
  contexts := [
    { name := "Folder"
      messages := [
        .ofTranslation "%n file(s)" { wording := .plural ["%n plik", "%n pliki", "%n plików"] },
        .ofTranslation "%n link(s)" { wording := .plural ["%n łącze"] }] }]

/-- The same catalog with the language in another spelling, and white space around it. -/
def respelledFolderCatalog : Catalog :=
  { folderCatalog with language := some "\u3000pl_PL\t" }

theorem alike_of_sameLocale_folderCatalog :
    sameLocale "pl-PL" "\u3000pl_PL\t" = true
      ∧ (∃ s, RuleSet.ofLocale "\u3000pl_PL\t" = .ok s ∧ s.formCount = 3 ∧ s.select 22 = 1)
      ∧ Integrity.issues respelledFolderCatalog
        = [⟨.error, .formCount 3 1, some "Folder", some "%n link(s)"⟩]
      ∧ (Lookup.Table.ofCatalog respelledFolderCatalog false).translate?
          ⟨"Folder", "%n file(s)", "", some 22⟩ = some "%n pliki" := by
  have hsame : sameLocale "pl-PL" "\u3000pl_PL\t" = true := by decide +kernel
  obtain ⟨hloads, hagree, hcatalogs⟩ := alike_of_sameLocale hsame
  have hpolish : RuleSet.ofLocale "pl-PL" = .ok ⟨"pl-PL", Cardinal.rulesOf "pl"⟩ := by decide
  obtain ⟨s, hs⟩ := hloads.mp ⟨_, hpolish⟩
  have hs_agree := hagree _ s hpolish hs
  have hcount : RuleSet.formCount ⟨"pl-PL", Cardinal.rulesOf "pl"⟩ = 3 := by decide
  have hselect : RuleSet.select ⟨"pl-PL", Cardinal.rulesOf "pl"⟩ 22 = 1 := by decide
  obtain ⟨-, hissues, htranslate⟩ := hcatalogs folderCatalog respelledFolderCatalog rfl rfl
  rw [← hissues ⟨_, hpolish⟩, ← htranslate]
  refine ⟨hsame, ⟨s, hs, ?_, ?_⟩, ?_, ?_⟩
  · rw [← hs_agree.formCount_eq, hcount]
  · rw [← hs_agree.select_eq, hselect]
  · decide +kernel
  · decide +kernel

end Locale

end MessageCatalog
