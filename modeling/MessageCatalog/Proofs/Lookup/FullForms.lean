import MessageCatalog.Proofs.Lookup.Sound
import MessageCatalog.Proofs.Plural.Coverage

/-!
# Catalogs with a form for every category

A translation may have a form for every category of its language, those that only fractions reach
included, one after another in the order of the categories. A count should then get the form at the
place of its category. It does, unless the category is `other` and comes after a `many` that has no
form for whole counts: then it gets the form of `many`.
-/

namespace MessageCatalog.Lookup

open Plural

/-- A message with a form for every category is translated by the form at the place of the count's
category, unless this is `other` in a language without a form for `many`; then the form before it
is taken, which is that of `many`. -/
theorem translate_full {c : Catalog} {locale : String} {r : RuleSet}
    (hlanguage : c.language = some locale) (hrules : RuleSet.ofLocale locale = .ok r)
    {includeUnfinished : Bool} {q : Query} {m : Message}
    (hanswer : answering? c includeUnfinished q = some m) (hnumerus : m.numerus = true)
    {count : Nat} (hcount : q.count = some count) (hlength : m.forms.length = r.categoryCount)
    (htexts : ∀ form ∈ m.forms, form ≠ "") :
    r.allCategories.length = r.categoryCount
      ∧ ∃ form, (Table.ofCatalog c includeUnfinished).translate? q = some form
        ∧ if r.category count = .other
              ∧ tableLanguage locale ∈ languagesOfUntriedMany ++ languagesOfFractionalMany then
            r.select count + 1 = r.place count ∧ m.forms[r.place count - 1]? = some form
          else r.select count = r.place count ∧ m.forms[r.place count]? = some form := by
  refine ⟨length_allCategories hrules, ?_⟩
  have hof : RuleSet.ofLanguage? c.language = some r := by
    rw [hlanguage, RuleSet.ofLanguage?, Option.bind_some, hrules]
    rfl
  have hindex : formIndexOf (RuleSet.ofLanguage? c.language) m q.count = r.select count := by
    simp only [formIndexOf, hof, hcount, hnumerus]
  have hlt : r.select count < m.forms.length := by
    have hselect := RuleSet.select_lt (RuleSet.ofLocale_eq_ok hrules).2 count
    have hle := r.formCount_le_categoryCount
    omega
  obtain ⟨form, hform⟩ : ∃ form, m.forms[r.select count]? = some form :=
    ⟨_, List.getElem?_eq_getElem hlt⟩
  have htranslate : (Table.ofCatalog c includeUnfinished).translate? q = some form := by
    rw [← hindex] at hform
    exact translate?_of_answering? hanswer hform (htexts form (List.mem_of_getElem? hform))
  refine ⟨form, htranslate, ?_⟩
  have hplace := select_eq_place hrules count
  split_ifs at hplace ⊢ with hother
  · exact ⟨hplace, by rw [← hplace, Nat.add_sub_cancel, hform]⟩
  · exact ⟨hplace, by rw [← hplace, hform]⟩

/-- Polish has no form for `other`, the last of its categories. -/
theorem translate_full_polish :
    (answering? polishCatalog false ⟨"Status", "%n file(s)", "", some 5⟩ = some polishFiles
      ∧ RuleSet.ofLocale "pl_PL" = .ok ⟨"pl_PL", Cardinal.rulesOf "pl"⟩
      ∧ polishFiles.forms.length = RuleSet.categoryCount ⟨"pl_PL", Cardinal.rulesOf "pl"⟩)
    ∧ (Table.ofCatalog polishCatalog false).translate? ⟨"Status", "%n file(s)", "", some 5⟩
      = some "%n plików" := by
  have hanswer : answering? polishCatalog false ⟨"Status", "%n file(s)", "", some 5⟩
      = some polishFiles := by decide
  have hrules : RuleSet.ofLocale "pl_PL" = .ok ⟨"pl_PL", Cardinal.rulesOf "pl"⟩ := by decide
  have hlength : polishFiles.forms.length
      = RuleSet.categoryCount ⟨"pl_PL", Cardinal.rulesOf "pl"⟩ := by decide
  obtain ⟨-, form, htranslate, hplace⟩ :=
    translate_full rfl hrules hanswer rfl rfl hlength (by decide)
  rw [if_neg (by decide)] at hplace
  have hform : some "%n plików" = some form := hplace.2
  exact ⟨⟨hanswer, hrules, hlength⟩, htranslate.trans hform.symm⟩

/-- A message with a form for each of the four categories of Czech. -/
def czechFiles : Message where
  source := "%n file(s)"
  numerus := true
  translation := ⟨.finished, .plural ["%n soubor", "%n soubory", "%n souboru", "%n souborů"]⟩

def czechCatalog : Catalog where
  language := some "cs"
  contexts := [{ name := "Status", messages := [czechFiles] }]

/-- A message with a form for every category is not always translated by the form at the place of
the count's category: in Czech 5 is `other`, but gets the form for fractions. -/
theorem not_translate_full :
    ¬∀ (c : Catalog) (locale : String) (r : RuleSet) (includeUnfinished : Bool) (q : Query)
      (m : Message) (count : Nat), c.language = some locale → RuleSet.ofLocale locale = .ok r →
      answering? c includeUnfinished q = some m → m.numerus = true → m.status = .finished →
      q.count = some count → m.forms.length = r.categoryCount → (∀ form ∈ m.forms, form ≠ "") →
        (Table.ofCatalog c includeUnfinished).translate? q = m.forms[r.place count]?
          ∧ r.select count = r.place count := by
  intro h
  have hczech := (h czechCatalog "cs" ⟨"cs", Cardinal.rulesOf "cs"⟩ false
    ⟨"Status", "%n file(s)", "", some 5⟩ czechFiles 5 rfl (by decide) (by decide) rfl rfl rfl
    (by decide) (by decide)).1
  exact absurd hczech (by decide)

end MessageCatalog.Lookup
