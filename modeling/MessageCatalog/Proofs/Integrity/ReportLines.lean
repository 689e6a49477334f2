import Mathlib.Data.List.Basic
import MessageCatalog.Catalog.Reader
import MessageCatalog.Proofs.Integrity.Composition

/-!
# Reports line by line

A report has one line for each issue, so that it can be cut back into issues at its line breaks. A
line repeats texts of the catalog as they are: the name of a context, a source text, and a language
that is not known. If one of these has a line break, its line is cut in two, and that is the only
thing that can go wrong: the wording of issues has no line break, and what is repeated of a
placeholder is a percent sign with a number or an `n`.
-/

namespace MessageCatalog.Integrity

open Plural

/-! ## What a line repeats -/

def Kind.language? : Kind → Option String
  | .unknownLanguage language => some language
  | _ => none

def Kind.placeholders : Kind → List String
  | .placeholderMismatch expected found => expected ++ found
  | _ => []

/-- The texts of a catalog that the line of an issue repeats. -/
def Issue.repeats (i : Issue) : List String :=
  i.kind.language?.toList ++ i.context.toList ++ i.source.toList

theorem newline_notMem_intercalate {texts : List String}
    (h : ∀ text ∈ texts, '\n' ∉ text.toList) : '\n' ∉ (", ".intercalate texts).toList := by
  induction texts with
  | nil => simp
  | cons text rest ih =>
    obtain ⟨htext, hrest⟩ := List.forall_mem_cons.mp h
    by_cases hnil : rest = []
    · subst hnil
      rwa [String.intercalate_singleton]
    · rw [String.intercalate_cons_of_ne_nil hnil, String.toList_append, String.toList_append,
        List.mem_append, List.mem_append, not_or, not_or]
      exact ⟨⟨htext, by decide⟩, ih hrest⟩

theorem newline_notMem_toString (n : Nat) : '\n' ∉ (toString n).toList := by
  rw [Nat.toString_eq_ofList_toDigits, String.toList_ofList]
  intro hmem
  exact absurd (Nat.isDigit_of_mem_toDigits (by decide) (by decide) hmem) (by decide)

/-- In this form the characters of a literal are at hand. -/
theorem newline_notMem_ofList {cs : List Char} (h : '\n' ∉ cs) :
    '\n' ∉ (String.ofList cs).toList := by
  rwa [String.toList_ofList]

/-- The wording of a kind has no line break but those of the language that it names. -/
theorem newline_mem_message_iff {kind : Kind} (h : ∀ p ∈ kind.placeholders, '\n' ∉ p.toList) :
    '\n' ∈ kind.message.toList ↔ ∃ language ∈ kind.language?, '\n' ∈ language.toList := by
  have hnone : ∀ {message : String}, '\n' ∉ message.toList →
      ('\n' ∈ message.toList ↔ ∃ language ∈ (none : Option String), '\n' ∈ language.toList) := by
    intro message hmessage
    simp [hmessage]
  cases kind with
  | duplicateContext | duplicateMessage | emptyFinished | numerusMismatch | missingLanguage =>
    exact hnone (newline_notMem_ofList (by decide))
  | formCount expected found =>
    have hfirst : '\n' ∉ "expected ".toList := newline_notMem_ofList (by decide)
    have hsecond : '\n' ∉ " numerus form(s), found ".toList := newline_notMem_ofList (by decide)
    have hexpected := newline_notMem_toString expected
    have hfound := newline_notMem_toString found
    change '\n' ∈ ("expected " ++ toString expected ++ " numerus form(s), found "
      ++ toString found).toList ↔ _
    refine hnone ?_
    simp only [String.toList_append, List.mem_append, hfirst, hexpected, hsecond, hfound, or_self,
      not_false_eq_true]
  | placeholderMismatch expected found =>
    have hfirst : '\n' ∉ "format specifiers differ: source has [".toList :=
      newline_notMem_ofList (by decide)
    have hsecond : '\n' ∉ "], translation has [".toList := newline_notMem_ofList (by decide)
    have hend : '\n' ∉ "]".toList := newline_notMem_ofList (by decide)
    have hexpected := newline_notMem_intercalate fun p hp ↦ h p (List.mem_append_left found hp)
    have hfound := newline_notMem_intercalate fun p hp ↦ h p (List.mem_append_right expected hp)
    change '\n' ∈ ("format specifiers differ: source has [" ++ ", ".intercalate expected
      ++ "], translation has [" ++ ", ".intercalate found ++ "]").toList ↔ _
    refine hnone ?_
    simp only [String.toList_append, List.mem_append, hfirst, hexpected, hsecond, hfound, hend,
      or_self, not_false_eq_true]
  | unknownLanguage language =>
    have hfirst : '\n' ∉ "no plural rules for language '".toList :=
      newline_notMem_ofList (by decide)
    have hend : '\n' ∉ "'".toList := newline_notMem_ofList (by decide)
    change '\n' ∈ ("no plural rules for language '" ++ language ++ "'").toList ↔ _
    simp only [String.toList_append, List.mem_append, hfirst, hend, false_or, or_false]
    simp [Kind.language?]

/-- The line of an issue has no line break but those of the texts that it repeats. -/
theorem newline_mem_line_iff {i : Issue} (h : ∀ p ∈ i.kind.placeholders, '\n' ∉ p.toList) :
    '\n' ∈ i.line.toList ↔ ∃ text ∈ i.repeats, '\n' ∈ text.toList := by
  have hline : i.line = i.severity.name ++ ": " ++ i.kind.message
      ++ (i.context.elim "" fun name ↦ " in context '" ++ name ++ "'")
      ++ (i.source.elim "" fun text ↦ " for \"" ++ text ++ "\"") := by
    rw [Issue.line]
    cases i.context <;> cases i.source <;> rfl
  have hseverity : '\n' ∉ i.severity.name.toList := by cases i.severity <;> decide
  have hmessage := newline_mem_message_iff h
  have hcontext : '\n' ∈ (i.context.elim "" fun name ↦ " in context '" ++ name ++ "'").toList
      ↔ ∃ name ∈ i.context, '\n' ∈ name.toList := by
    cases i.context <;> simp
  have hsource : '\n' ∈ (i.source.elim "" fun text ↦ " for \"" ++ text ++ "\"").toList
      ↔ ∃ text ∈ i.source, '\n' ∈ text.toList := by
    cases i.source <;> simp
  rw [hline]
  simp only [String.toList_append, List.mem_append, hseverity, hmessage, hcontext, hsource,
    Issue.repeats, Option.mem_toList, or_and_right, exists_or]
  simp

/-! ## What the issues of a catalog repeat -/

/-- A reference is made of digits or of an `n`, none of which comes before the digits. -/
theorem zero_le_of_mem_reference? {cs r : List Char} :
    reference? cs = some r → ∀ c ∈ r, '0' ≤ c := by
  have hone : ∀ a : Char, '1' ≤ a → '0' ≤ a := fun a ha ↦
    Char.le_trans (by decide) ha
  fun_cases reference? cs with
  | case1 =>
    rintro ⟨⟩
    simp
  | case2 a _ ha b _ hb =>
    rintro ⟨⟩
    simp [hone a ha.1, hb.1]
  | case3 a _ ha b _ hb =>
    rintro ⟨⟩
    simp [hone a ha.1]
  | case4 a _ ha =>
    rintro ⟨⟩
    simp [hone a ha.1]
  | case5 | case6 =>
    rintro ⟨⟩

theorem zero_le_of_mem_referencesFrom (skip : Nat) (cs : List Char) :
    ∀ r ∈ referencesFrom skip cs, ∀ c ∈ r, '0' ≤ c := by
  fun_induction referencesFrom skip cs with
  | case1 => simp
  | case2 skip c cs ih => exact ih
  | case3 c cs r length hfound ih =>
    refine List.forall_mem_cons.mpr ⟨?_, ih⟩
    rw [placeholder?.eq_def] at hfound
    split at hfound
    · obtain ⟨found, hreference, heq⟩ := Option.map_eq_some_iff.mp hfound
      cases heq
      exact zero_le_of_mem_reference? hreference
    · obtain ⟨found, hreference, heq⟩ := Option.map_eq_some_iff.mp hfound
      cases heq
      exact zero_le_of_mem_reference? hreference
    · cases hfound
  | case4 c cs hfound ih => exact ih

theorem newline_notMem_references {text : String} {numerus : Bool} :
    ∀ r ∈ references text numerus, '\n' ∉ r.toList := by
  intro r hr hmem
  rw [references, List.mem_mergeSort] at hr
  obtain ⟨found, hfound, rfl⟩ := List.mem_map.mp (List.mem_of_mem_filter hr)
  rw [String.toList_ofList] at hmem
  exact absurd (zero_le_of_mem_referencesFrom 0 text.toList found hfound _ hmem) (by decide)

theorem newline_notMem_placeholders {rules : Option RuleSet} {m : Message}
    {found : Severity × Kind} (h : found ∈ messageIssues rules m) :
    ∀ p ∈ found.2.placeholders, '\n' ∉ p.toList := by
  rcases messageIssues_cases h with hkind | ⟨expected, count, hkind⟩ | hkind
    | ⟨expected, other, hmismatch, hkind⟩
  · simp [hkind, Kind.placeholders]
  · simp [hkind, Kind.placeholders]
  · simp [hkind, Kind.placeholders]
  · obtain ⟨other', hfind, heq⟩ := Option.map_eq_some_iff.mp hmismatch
    cases heq
    obtain ⟨form, -, rfl⟩ := List.mem_map.mp (List.mem_of_find?_eq_some hfind)
    have hpercent : ∀ r : String, '\n' ∉ r.toList → '\n' ∉ ("%" ++ r).toList := by
      intro r hr
      simpa using hr
    intro p hp
    rw [hkind] at hp
    rcases List.mem_append.mp hp with hp | hp
    · obtain ⟨r, hr, rfl⟩ := List.mem_map.mp hp
      exact hpercent r (newline_notMem_references r hr)
    · obtain ⟨r, hr, rfl⟩ := List.mem_map.mp hp
      exact hpercent r (newline_notMem_references r hr)

theorem languageIssues_cases {c : Catalog} {i : Issue} (h : i ∈ languageIssues c) :
    i.context = none ∧ i.source = none
      ∧ (i.kind = .missingLanguage
        ∨ ∃ language ∈ c.language, i.kind = .unknownLanguage language) := by
  unfold languageIssues at h
  split at h
  · rw [List.mem_singleton.mp h]
    exact ⟨rfl, rfl, Or.inl rfl⟩
  · next language hlanguage =>
    split at h
    · cases h
    · rw [List.mem_singleton.mp h]
      exact ⟨rfl, rfl, Or.inr ⟨language, hlanguage, rfl⟩⟩

theorem newline_notMem_placeholders_of_mem_issues {c : Catalog} {i : Issue} (h : i ∈ issues c) :
    ∀ p ∈ i.kind.placeholders, '\n' ∉ p.toList := by
  rw [issues, List.mem_append] at h
  rcases h with hlanguage | hcontexts
  · obtain ⟨-, -, hkind | ⟨language, -, hkind⟩⟩ := languageIssues_cases hlanguage
    · simp [hkind, Kind.placeholders]
    · simp [hkind, Kind.placeholders]
  · obtain ⟨k, -, -, ⟨hkind, -⟩ | ⟨m, -, -, hkind | hmessage⟩⟩ :=
      exists_of_mem_issuesInContexts hcontexts
    · simp [hkind, Kind.placeholders]
    · simp [hkind, Kind.placeholders]
    · exact newline_notMem_placeholders hmessage

theorem language?_eq_none {kind : Kind} (h : kind.isAboutLanguage = false) :
    kind.language? = none := by
  cases kind with
  | missingLanguage | unknownLanguage => cases h
  | _ => rfl

/-- Whether a text is the language of a catalog, the name of one of its contexts, or the source
text of a live message. -/
def IsTextOf (c : Catalog) (text : String) : Prop :=
  text ∈ c.language ∨ ∃ k ∈ c.contexts, text = k.name ∨ ∃ m ∈ k.live, text = m.source

theorem isTextOf_of_mem_repeats {c : Catalog} {i : Issue} (h : i ∈ issues c) :
    ∀ text ∈ i.repeats, IsTextOf c text := by
  intro text htext
  rw [Issue.repeats, List.mem_append, List.mem_append] at htext
  rw [issues, List.mem_append] at h
  rcases h with hlanguage | hcontexts
  · obtain ⟨hcontext, hsource, hkind⟩ := languageIssues_cases hlanguage
    rw [hcontext, hsource] at htext
    rcases hkind with hkind | ⟨language, hmem, hkind⟩
    · simp [hkind, Kind.language?] at htext
    · obtain rfl : text = language := by simpa [hkind, Kind.language?] using htext
      exact Or.inl hmem
  · have hnone := language?_eq_none (not_isAboutLanguage_of_mem_issuesInContexts hcontexts)
    obtain ⟨k, hk, hcontext, hwhere⟩ := exists_of_mem_issuesInContexts hcontexts
    refine Or.inr ⟨k, hk, ?_⟩
    rw [hnone, hcontext] at htext
    rcases hwhere with ⟨-, hsource⟩ | ⟨m, hm, hsource, -⟩
    · exact Or.inl (by simpa [hsource] using htext)
    · rcases htext with htext | htext
      · exact Or.inl (by simpa using htext)
      · exact Or.inr ⟨m, hm, by simpa [hsource] using htext⟩

/-! ## Cutting a report at its line breaks -/

/-- Texts that end in a separator each are what lies between separators if and only if none has one
inside. What follows the last separator is empty. -/
theorem splitOn_flatMap_eq_iff {sep : Char} {texts : List (List Char)} :
    (texts.flatMap (· ++ [sep])).splitOn sep = texts ++ [[]] ↔ ∀ text ∈ texts, sep ∉ text := by
  induction texts with
  | nil => simp
  | cons text rest ih =>
    rw [List.flatMap_cons, List.append_assoc, List.singleton_append,
      List.splitOn_append_cons_self, List.forall_mem_cons, ← ih]
    constructor
    · intro heq
      have htext : sep ∉ text := by
        -- the first piece would end before the separator
        intro hmem
        obtain ⟨before, after, rfl, hbefore⟩ := List.eq_append_cons_of_mem hmem
        rw [List.splitOn_append_cons_self_of_not_mem hbefore] at heq
        have hlength := congrArg List.length (List.cons.inj heq).1
        rw [List.length_append, List.length_cons] at hlength
        omega
      rw [List.splitOn_eq_singleton htext] at heq
      exact ⟨htext, (List.cons.inj heq).2⟩
    · rintro ⟨htext, hrest⟩
      rw [List.splitOn_eq_singleton htext, hrest, List.singleton_append, List.cons_append]

theorem toList_report (file : String) (found : List Issue) :
    (report file found).toList
      = (found.map fun i ↦ (file ++ ": " ++ i.line).toList).flatMap (· ++ ['\n']) := by
  have hline : ∀ i : Issue,
      s!"{file}: {i.line}\n".toList = (file ++ ": " ++ i.line).toList ++ ['\n'] :=
    fun i ↦ String.toList_append
  rw [report, String.toList_join, List.flatMap_map, List.flatMap_map]
  simp only [hline]

/-- The report on a catalog can be cut into the lines of its issues at its line breaks if and only
if no text has a line break of those that its issues repeat. These are texts of the catalog. -/
theorem splitOn_report {file : String} (hfile : '\n' ∉ file.toList) (c : Catalog) :
    ((report file (issues c)).toList.splitOn '\n'
          = (issues c).map (fun i ↦ (file ++ ": " ++ i.line).toList) ++ [[]]
        ↔ ∀ i ∈ issues c, ∀ text ∈ i.repeats, '\n' ∉ text.toList)
      ∧ ∀ i ∈ issues c, ∀ text ∈ i.repeats, IsTextOf c text := by
  refine ⟨?_, fun i ↦ isTextOf_of_mem_repeats⟩
  rw [toList_report, splitOn_flatMap_eq_iff, List.forall_mem_map]
  refine forall₂_congr fun i hi ↦ ?_
  have hprefix : '\n' ∉ (file ++ ": ").toList := by
    simpa using hfile
  have hline := newline_mem_line_iff (newline_notMem_placeholders_of_mem_issues hi)
  rw [String.toList_append, List.mem_append, or_iff_right hprefix, hline]
  simp only [not_exists, not_and]

/-- A catalog in a language without rules, with a translation that takes another argument, one
without text, and a name that comes twice. -/
def mailCatalog : Catalog where
  language := some "C"
  contexts := [
    { name := "Mail", messages := [
      .ofTranslation "Open %1" ⟨.finished, .single "%2"⟩,
      .ofTranslation "Close" ⟨.finished, .single ""⟩] },
    { name := "Mail" }]

theorem splitOn_report_mailCatalog :
    '\n' ∉ "mail.ts".toList
      ∧ (report "mail.ts" (issues mailCatalog)).toList.splitOn '\n'
        = ["mail.ts: warning: no plural rules for language 'C'",
          "mail.ts: error: format specifiers differ: source has [%1], translation has [%2]"
            ++ " in context 'Mail' for \"Open %1\"",
          "mail.ts: error: finished translation is empty in context 'Mail' for \"Close\"",
          "mail.ts: error: duplicate context in context 'Mail'"].map String.toList ++ [[]] := by
  have hfile : '\n' ∉ "mail.ts".toList := by decide
  have hissues : issues mailCatalog = [
      ⟨.warning, .unknownLanguage "C", none, none⟩,
      ⟨.error, .placeholderMismatch ["%1"] ["%2"], some "Mail", some "Open %1"⟩,
      ⟨.error, .emptyFinished, some "Mail", some "Close"⟩,
      ⟨.error, .duplicateContext, some "Mail", none⟩] := by
    decide +kernel
  have hsplit := (splitOn_report hfile mailCatalog).1.mpr (by rw [hissues]; decide)
  refine ⟨hfile, hsplit.trans ?_⟩
  rw [hissues]
  rfl

/-- A document whose only message has a source text of two lines and a translation without text. -/
def twoLineDocument : String :=
  "<TS language=\"en\"><context><name>a</name><message><source>x\ny</source>"
    ++ "<translation></translation></message></context></TS>"

def twoLineCatalog : Catalog where
  language := some "en"
  contexts := [
    { name := "a", messages := [.ofTranslation "x\ny" ⟨.finished, .single ""⟩] }]

theorem not_splitOn_report :
    ¬∀ (document file : String) (c : Catalog), Catalog.parse document = .ok c →
      '\n' ∉ file.toList →
      (report file (issues c)).toList.splitOn '\n'
        = (issues c).map (fun i ↦ (file ++ ": " ++ i.line).toList) ++ [[]] := by
  intro h
  have hparse : Catalog.parse twoLineDocument = .ok twoLineCatalog := by
    decide +kernel
  have hsplit := h twoLineDocument "f.ts" twoLineCatalog hparse (by decide)
  have hlines : ((report "f.ts" (issues twoLineCatalog)).toList.splitOn '\n').length = 3 := by
    decide +kernel
  have hissues : (issues twoLineCatalog).length = 1 := by
    decide +kernel
  rw [hsplit, List.length_append, List.length_map, hissues] at hlines
  exact absurd hlines (by decide)

end MessageCatalog.Integrity
