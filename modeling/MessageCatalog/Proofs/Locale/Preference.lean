import Mathlib.Data.List.Basic
import MessageCatalog.Locale.Preference
import MessageCatalog.Proofs.Text.Blank

/-!
# The locale that is used

Two searches decide the locale. The inner one goes through the system's variables for one that names
a language, and its answer is the last candidate of the outer one, which goes through the command
line, the stored setting and the system for one that is not blank. Both pass over what is absent and
what says nothing, each in its own sense, and so both are the same search: for the first of some
optional values of which something can be made.

The locale that is used is *proper*: it has a text, without white space around it and with
underscores for hyphens. A proper locale on the command line is used as it is.
-/

namespace MessageCatalog.Locale

open Text

/-! ## The first value that says something -/

/-- The first of some optional values that has a property. -/
def IsFirst (p : String → Prop) (values : List (Option String)) (value : String) : Prop :=
  ∃ before after, values = before ++ some value :: after ∧ p value
    ∧ ∀ earlier ∈ before, ∀ text ∈ earlier, ¬p text

/-- The first thing that can be made of a value is made of the first value of which any can be made.
-/
theorem findSome?_bind_eq_some_iff {make : String → Option String} {values : List (Option String)}
    {made : String} :
    values.findSome? (·.bind make) = some made
      ↔ ∃ value, IsFirst (make · ≠ none) values value ∧ make value = some made := by
  rw [List.findSome?_eq_some_iff]
  constructor
  · rintro ⟨before, found, after, hvalues, hfound, hbefore⟩
    obtain ⟨value, rfl, hvalue⟩ := Option.bind_eq_some_iff.mp hfound
    refine ⟨value, ⟨before, after, hvalues, by simp [hvalue], fun earlier hearlier text htext ↦ ?_⟩,
      hvalue⟩
    rw [not_not]
    exact Option.bind_eq_none_iff.mp (hbefore earlier hearlier) text htext
  · rintro ⟨value, ⟨before, after, hvalues, -, hbefore⟩, hvalue⟩
    refine ⟨before, some value, after, hvalues, hvalue, fun earlier hearlier ↦ ?_⟩
    rw [Option.bind_eq_none_iff]
    exact fun text htext ↦ not_not.mp (hbefore earlier hearlier text htext)

theorem findSome?_bind_eq_none_iff {make : String → Option String} {values : List (Option String)} :
    values.findSome? (·.bind make) = none
      ↔ ∀ value ∈ values, ∀ text ∈ value, make text = none := by
  simp only [List.findSome?_eq_none_iff, Option.bind_eq_none_iff, Option.mem_def]

/-! ## The system -/

/-- What stands before the first dot or at sign of a variable's value, trimmed. -/
def languagePart (value : String) : String :=
  trim (String.ofList (value.toList.takeWhile fun c ↦ c ≠ '.' && c ≠ '@'))

/-- Whether the value of a variable names a language. -/
def NamesLanguage (value : String) : Prop :=
  languagePart value ∉ ["", "C", "POSIX"]

theorem ofPosix?_eq_some_iff {value locale : String} :
    ofPosix? value = some locale ↔ NamesLanguage value ∧ languagePart value = locale := by
  have hpart : languagePart value
      = String.ofList (trimChars (value.toList.takeWhile fun c ↦ c ≠ '.' && c ≠ '@')) := by
    rw [languagePart, trim, String.toList_ofList]
  have hnames : NamesLanguage value ↔ ¬(languagePart value = "" ∨ languagePart value = "C"
      ∨ languagePart value = "POSIX") := by
    simp [NamesLanguage]
  rw [ofPosix?, ← hpart, hnames]
  split_ifs with hnone
  · simp [hnone]
  · rw [Option.some_inj, and_iff_right hnone]

theorem ofPosix?_ne_none_iff {value : String} : ofPosix? value ≠ none ↔ NamesLanguage value := by
  rw [Option.ne_none_iff_exists']
  simp [ofPosix?_eq_some_iff]

theorem systemLocale?_eq_some_iff {env : Environment} {locale : String} :
    systemLocale? env = some locale
      ↔ ∃ value, IsFirst NamesLanguage [env "LC_ALL", env "LC_MESSAGES", env "LANG"] value
        ∧ languagePart value = locale := by
  have hsearch : systemLocale? env
      = [env "LC_ALL", env "LC_MESSAGES", env "LANG"].findSome? (·.bind ofPosix?) := rfl
  rw [hsearch, findSome?_bind_eq_some_iff]
  simp only [ofPosix?_ne_none_iff]
  refine exists_congr fun value ↦ and_congr_right fun hfirst ↦ ?_
  obtain ⟨-, -, -, hnames, -⟩ := hfirst
  rw [ofPosix?_eq_some_iff, and_iff_right hnames]

/-! ## The candidates -/

namespace Preference

/-- The text of a candidate, unless it is blank. -/
def stated? (text : String) : Option String :=
  if trim text = "" then none else some (trim text)

theorem stated?_eq_none_iff {text : String} : stated? text = none ↔ trim text = "" := by
  rw [stated?]
  split_ifs with hblank <;> simp [hblank]

theorem stated?_of_ne {text : String} (h : trim text ≠ "") : stated? text = some (trim text) :=
  if_neg h

theorem find?_map_trim (values : List (Option String)) :
    ((values.filterMap id).map trim).find? (· ≠ "") = values.findSome? (·.bind stated?) := by
  induction values with
  | nil => rfl
  | cons value rest ih =>
    cases value with
    | none => exact ih
    | some text =>
      change (trim text :: (rest.filterMap id).map trim).find? (· ≠ "") = _
      rw [List.findSome?_cons, Option.bind_some]
      by_cases hblank : trim text = ""
      · rw [stated?_eq_none_iff.mpr hblank, List.find?_cons_of_neg (by simpa using hblank), ih]
      · rw [stated?_of_ne hblank, List.find?_cons_of_pos (by simpa using hblank)]

/-- The locale is that of the first candidate that is not blank, or else the default one. -/
theorem resolve_cases (p : Preference) :
    (∃ text, IsFirst (trim · ≠ "") [p.commandLine, p.stored, p.system] text
        ∧ p.resolve = replaceChar '-' '_' (trim text))
      ∨ (∀ candidate ∈ [p.commandLine, p.stored, p.system], ∀ text ∈ candidate, trim text = "")
        ∧ p.resolve = defaultLocale := by
  rw [resolve, candidates, find?_map_trim]
  cases hfound : [p.commandLine, p.stored, p.system].findSome? (·.bind stated?) with
  | none =>
    rw [findSome?_bind_eq_none_iff] at hfound
    simp only [stated?_eq_none_iff] at hfound
    exact .inr ⟨hfound, rfl⟩
  | some locale =>
    obtain ⟨text, hfirst, htext⟩ := findSome?_bind_eq_some_iff.mp hfound
    simp only [ne_eq, stated?_eq_none_iff] at hfirst
    obtain ⟨-, -, -, hstated, -⟩ := id hfirst
    rw [stated?_of_ne hstated] at htext
    obtain rfl := Option.some.inj htext
    exact .inl ⟨text, hfirst, rfl⟩

/-! ## Proper locales -/

/-- A locale as it is used: not empty, without white space around it, and with underscores. -/
structure IsProper (locale : String) : Prop where
  ne_empty : locale ≠ ""
  no_hyphen : '-' ∉ locale.toList
  tight : IsTight locale.toList

theorem isProper_replaceChar {text : String} (h : trim text ≠ "") :
    IsProper (replaceChar '-' '_' (trim text)) where
  ne_empty := replaceChar_eq_empty_iff.not.mpr h
  no_hyphen := notMem_replaceChar (by decide)
  tight := by
    refine IsTight.replaceChar ?_ (by decide)
    rw [toList_trim]
    exact isTight_trimChars text.toList

theorem isProper_defaultLocale : IsProper defaultLocale where
  ne_empty := by decide
  no_hyphen := by decide
  tight := by
    have hchars : defaultLocale.toList = ['e', 'n', '_', 'U', 'S'] := rfl
    rw [hchars]
    constructor
    case head =>
      intro c hc
      obtain rfl := Option.mem_some.mp hc
      rfl
    case last =>
      intro c hc
      obtain rfl := Option.mem_some.mp hc
      rfl

theorem isProper_resolve (p : Preference) : IsProper p.resolve := by
  obtain ⟨text, ⟨-, -, -, htext, -⟩, hresolve⟩ | ⟨-, hresolve⟩ := p.resolve_cases
  · rw [hresolve]
    exact isProper_replaceChar htext
  · rw [hresolve]
    exact isProper_defaultLocale

theorem resolve_of_isProper {locale : String} (h : IsProper locale) {p : Preference}
    (hp : p.commandLine = some locale) : p.resolve = locale := by
  have hcandidates : p.candidates = locale :: [p.stored, p.system].filterMap id := by
    rw [candidates, hp]
    rfl
  have hfound : (p.candidates.map trim).find? (· ≠ "") = some locale := by
    rw [hcandidates, List.map_cons, trim_eq_self h.tight]
    exact List.find?_cons_of_pos (decide_eq_true h.ne_empty)
  rw [resolve, hfound]
  exact replaceChar_eq_self h.no_hyphen

/-- The locale that is used is that of the first candidate that is not blank: the command line, the
stored setting, or what the first of the system's variables that names a language has before its
first dot or at sign. It is written with underscores, and is the default one if there is no such
candidate. In any case it is proper, so that it is used again when it is given on the command line.
Trimming leaves what stands between white space and has none at its ends. -/
theorem resolve_ofEnvironment (commandLine : Option String) (env : Environment) :
    let resolved := (ofEnvironment commandLine env).resolve
    let candidates := [commandLine, env "TSCAT_LANGUAGE", systemLocale? env]
    (∀ locale, systemLocale? env = some locale
        ↔ ∃ value, IsFirst NamesLanguage [env "LC_ALL", env "LC_MESSAGES", env "LANG"] value
          ∧ languagePart value = locale)
      ∧ ((∃ text, IsFirst (trim · ≠ "") candidates text
            ∧ resolved = replaceChar '-' '_' (trim text))
          ∨ (∀ candidate ∈ candidates, ∀ text ∈ candidate, trim text = "")
            ∧ resolved = "en_US")
      ∧ IsProper resolved
      ∧ (∀ env', (ofEnvironment (some resolved) env').resolve = resolved)
      ∧ ∀ text trimmed : String, trim text = trimmed
          ↔ IsTight trimmed.toList ∧ ∃ front back : String, text = front ++ trimmed ++ back
            ∧ (∀ c ∈ front.toList, isBlank c = true) ∧ ∀ c ∈ back.toList, isBlank c = true := by
  have hproper := isProper_resolve (ofEnvironment commandLine env)
  exact ⟨fun locale ↦ systemLocale?_eq_some_iff, resolve_cases (ofEnvironment commandLine env),
    hproper, fun env' ↦ resolve_of_isProper hproper rfl, fun text trimmed ↦ trim_eq_iff⟩

/-- A value that is all suffix names no language and leaves the choice to the next variable. -/
example :
    let env : Environment := fun name ↦
      if name = "LC_ALL" then some ".UTF-8" else if name = "LANG" then some " pt-BR @euro" else none
    (ofEnvironment (some "\t") env).resolve = "pt_BR" := by
  decide +kernel

end Preference

end MessageCatalog.Locale
