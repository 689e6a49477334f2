import Mathlib.Data.List.Nodup
import MessageCatalog.Proofs.Plural.Forms
import MessageCatalog.Proofs.Plural.Representative

/-!
# Which categories have a form

The probes find a form for every category that a whole count is in, but for `many` in some
languages: there it holds round millions, or a few numbers, that are not among the probes. The
counts in it then get the last form, which is that of `other`.

## Arrangements

A category has one place among all categories of a language and its form has another among the
forms. They are the same as long as nothing that comes before is without a form. Three arrangements
occur, and `Coverage` lists them: all categories have a form; `other`, the last one, has none, as no
whole count is in it; or `many`, the last but one, has none. In the last case the places of `other`
differ by one. The place of `many` itself does not: the last form stands in for the missing one, and
it happens to have its place.
-/

namespace MessageCatalog.Plural

open MessageCatalog.Locale

/-! ## Categories with and without a form -/

/-- How the categories that have a form lie among all categories of some rules. -/
inductive Coverage (rules : Rules) : Prop
  | complete (h : rules.reached = rules.categories)
  | withoutOther (h : rules.categories = rules.reached ++ [.other])
      (hnever : ∀ count, rules.category count ≠ .other)
  | withoutMany (before : List Category) (h : rules.categories = before ++ [.many, .other])
      (hreached : rules.reached = before ++ [.other])

theorem Rules.category_mem_categories (rules : Rules) (count : Nat) :
    rules.category count ∈ rules.categories := by
  rw [category, categories, List.mem_append]
  cases hfind : rules.find? fun rule ↦ Condition.holds rule.2 count with
  | none => exact Or.inr (List.mem_singleton_self _)
  | some rule => exact Or.inl (List.mem_map_of_mem (List.mem_of_find?_eq_some hfind))

/-- Only `many` may lack a form although a count is in it, and then `other` has the last form. -/
theorem Coverage.of_notMem_reached {rules : Rules} (h : Coverage rules) {count : Nat}
    (hnot : rules.category count ∉ rules.reached) :
    rules.category count = .many ∧ ∃ before, rules.reached = before ++ [.other] := by
  have hmem := rules.category_mem_categories count
  cases h with
  | complete hall => exact absurd (hall ▸ hmem) hnot
  | withoutOther hother hnever =>
    rw [hother, List.mem_append, List.mem_singleton] at hmem
    exact absurd (hmem.resolve_right (hnever count)) hnot
  | withoutMany before hmany hreached =>
    refine ⟨?_, before, hreached⟩
    rw [hmany] at hmem
    rw [hreached] at hnot
    simp only [List.mem_append, List.mem_cons, List.not_mem_nil, or_false] at hmem hnot
    tauto

/-- The arrangement of a row can be read off it, but for what no count is in: this is decided for
the representatives. -/
theorem arrangement_of_mem_table : ∀ row ∈ Cardinal.table,
    row.2.reached = row.2.categories
      ∨ (row.2.categories = row.2.reached ++ [.other]
        ∧ ∀ n ∈ representatives, row.2.category n ≠ .other)
      ∨ (row.2.categories = row.2.reached.dropLast ++ [.many, .other]
        ∧ row.2.reached = row.2.reached.dropLast ++ [.other]) := by
  decide +kernel

/-- The languages in which some counts are `many`, but none that is tried. -/
def languagesOfUntriedMany : List String :=
  ["br", "ca", "cy", "es", "fr", "ga", "gl", "it", "lld", "pt", "pt-PT", "scn", "vec"]

/-- The languages in which only fractions are `many`. -/
def languagesOfFractionalMany : List String := ["cs", "lt", "sk"]

theorem many_of_mem_table : ∀ row ∈ Cardinal.table, ∀ language ∈ row.1,
    .many ∈ row.2.categories → .many ∉ row.2.reached →
      language ∈ languagesOfUntriedMany
        ∨ language ∈ languagesOfFractionalMany
          ∧ ∀ n ∈ representatives, row.2.category n ≠ .many := by
  decide +kernel

theorem many_of_mem_languages : ∀ language ∈ languagesOfUntriedMany ++ languagesOfFractionalMany,
    .many ∈ (Cardinal.rulesOf language).categories
      ∧ .many ∉ (Cardinal.rulesOf language).reached := by
  decide +kernel

/-! ## The rules of a language -/

theorem rulesOf_cases (language : String) : Cardinal.rulesOf language = []
    ∨ ∃ row ∈ Cardinal.table, language ∈ row.1 ∧ Cardinal.rulesOf language = row.2 := by
  unfold Cardinal.rulesOf
  cases hfind : Cardinal.table.find? fun row ↦ language ∈ row.1 with
  | none => exact Or.inl rfl
  | some row =>
    have hlanguage := List.find?_some hfind
    exact Or.inr ⟨row, List.mem_of_find?_eq_some hfind, of_decide_eq_true hlanguage, rfl⟩

theorem coverage (language : String) : Coverage (Cardinal.rulesOf language) := by
  rcases rulesOf_cases language with hnone | ⟨row, hrow, -, hrules⟩
  · rw [hnone]
    exact .complete rfl
  · rw [hrules]
    rcases arrangement_of_mem_table row hrow with hall | ⟨hother, hnever⟩ | ⟨hmany, hreached⟩
    · exact .complete hall
    · exact .withoutOther hother (category_ne_of_representatives hrow hnever)
    · exact .withoutMany _ hmany hreached

theorem category_ne_many {language : String} (h : language ∉ languagesOfUntriedMany)
    (hreached : .many ∉ (Cardinal.rulesOf language).reached) (count : Nat) :
    (Cardinal.rulesOf language).category count ≠ .many := by
  intro hcategory
  have hmem := (Cardinal.rulesOf language).category_mem_categories count
  rw [hcategory] at hmem
  rcases rulesOf_cases language with hnone | ⟨row, hrow, hlanguage, hrules⟩
  · rw [hnone] at hcategory
    cases hcategory
  · rw [hrules] at hcategory hmem hreached
    rcases many_of_mem_table row hrow language hlanguage hmem hreached with hin | ⟨-, hnever⟩
    · exact h hin
    · exact category_ne_of_representatives hrow hnever count hcategory

/-- A count has a form, unless it is `many` in a language of which no probe is. -/
theorem category_mem_reached_iff (language : String) (count : Nat) :
    (Cardinal.rulesOf language).category count ∈ (Cardinal.rulesOf language).reached
      ↔ ¬((Cardinal.rulesOf language).category count = .many
        ∧ language ∈ languagesOfUntriedMany) := by
  constructor
  · rintro hmem ⟨hcategory, hlanguage⟩
    rw [hcategory] at hmem
    exact (many_of_mem_languages language (List.mem_append_left _ hlanguage)).2 hmem
  · intro h
    by_contra hnot
    obtain ⟨hmany, -⟩ := (coverage language).of_notMem_reached hnot
    exact category_ne_many (fun hlanguage ↦ h ⟨hmany, hlanguage⟩) (hmany ▸ hnot) count hmany

/-! ## The rules of a locale -/

/-- The language in the table whose rules a locale follows, or else a word that is not there. -/
def tableLanguage (locale : String) : String :=
  match Tag.ofLocale locale with
  | .ok tag => (ruleLanguage? tag).getD "und"
  | .error _ => "und"

theorem rulesOf_eq (tag : Tag) :
    rulesOf tag = Cardinal.rulesOf ((ruleLanguage? tag).getD "und") := by
  rw [rulesOf]
  cases ruleLanguage? tag with
  | none => rfl
  | some language => rfl

theorem rules_of_ofLocale {locale : String} {r : RuleSet} (h : RuleSet.ofLocale locale = .ok r) :
    r.rules = Cardinal.rulesOf (tableLanguage locale) := by
  obtain ⟨⟨tag, htag, rfl⟩, -⟩ := RuleSet.ofLocale_eq_ok h
  rw [tableLanguage, htag]
  exact rulesOf_eq tag

/-- Every count has a form of its category and gets that form, unless it is `many` in a language of
which no probe is; such a count gets the form of `other`. -/
theorem category_of_select {locale : String} {r : RuleSet}
    (h : RuleSet.ofLocale locale = .ok r) (count : Nat) :
    if r.category count = .many ∧ tableLanguage locale ∈ languagesOfUntriedMany then
      r.category count ∉ r.forms.map (·.category)
        ∧ (r.forms[r.select count]?).map (·.category) = some .other
    else
      r.category count ∈ r.forms.map (·.category)
        ∧ (r.forms[r.select count]?).map (·.category) = some (r.category count) := by
  have hrules := rules_of_ofLocale h
  have hmem := category_mem_reached_iff (tableLanguage locale) count
  rw [← hrules] at hmem
  split_ifs with hmany
  · have hnot : r.category count ∉ r.rules.reached := fun hreached ↦ hmem.mp hreached hmany
    have hcoverage : Coverage r.rules := hrules ▸ coverage (tableLanguage locale)
    obtain ⟨-, before, hreached⟩ := hcoverage.of_notMem_reached hnot
    refine ⟨hnot, ?_⟩
    rw [← List.getElem?_map, RuleSet.map_category_forms, RuleSet.select_of_notMem hnot,
      ← RuleSet.length_reached, hreached, List.length_append, List.length_singleton,
      Nat.add_sub_cancel, List.getElem?_concat_length]
  · have hreached : r.category count ∈ r.rules.reached := hmem.mpr hmany
    exact ⟨hreached, RuleSet.getElem?_select hreached⟩

/-- In Slovenian, counts are `two` by their last two digits. -/
theorem category_of_select_slovenian :
    RuleSet.ofLocale "sl_SI" = .ok ⟨"sl_SI", Cardinal.rulesOf "sl"⟩
      ∧ .two ∈ (RuleSet.forms ⟨"sl_SI", Cardinal.rulesOf "sl"⟩).map (·.category)
      ∧ ((RuleSet.forms ⟨"sl_SI", Cardinal.rulesOf "sl"⟩)[
          RuleSet.select ⟨"sl_SI", Cardinal.rulesOf "sl"⟩ 1002]?).map (·.category)
        = some .two := by
  have hrules : RuleSet.ofLocale "sl_SI" = .ok ⟨"sl_SI", Cardinal.rulesOf "sl"⟩ := by decide
  have hselect := category_of_select hrules 1002
  rw [if_neg (by decide)] at hselect
  exact ⟨hrules, hselect⟩

/-- Not every count has a form of its category: in Welsh 6 has none. -/
theorem not_category_mem_forms :
    ¬∀ locale r, RuleSet.ofLocale locale = .ok r → ∀ count < 18446744073709551616,
      r.category count ∈ r.forms.map (·.category)
        ∧ (r.forms[r.select count]?).map (·.category) = some (r.category count) := by
  intro h
  have hwelsh := (h "cy" ⟨"cy", Cardinal.rulesOf "cy"⟩ (by decide) 6 (by decide)).1
  exact absurd hwelsh (by decide)

/-! ## The place of a form among all categories -/

/-- All categories of a locale, in the order in which a catalog lists the forms for them. -/
def RuleSet.allCategories (r : RuleSet) : List Category :=
  Category.all.filter (· ∈ r.rules.categories)

def RuleSet.place (r : RuleSet) (count : Nat) : Nat :=
  r.allCategories.idxOf (r.category count)

theorem filter_all_of_mem_table : ∀ row ∈ Cardinal.table,
    Category.all.filter (· ∈ row.2.categories) = row.2.categories := by
  decide

theorem allCategories_eq {locale : String} {r : RuleSet} (h : RuleSet.ofLocale locale = .ok r) :
    r.allCategories = r.rules.categories := by
  rw [RuleSet.allCategories, rules_of_ofLocale h]
  rcases rulesOf_cases (tableLanguage locale) with hnone | ⟨row, hrow, -, hrules⟩
  · rw [hnone]
    rfl
  · rw [hrules]
    exact filter_all_of_mem_table row hrow

theorem nodup_allCategories (r : RuleSet) : r.allCategories.Nodup :=
  List.Nodup.filter _ (by decide)

theorem Coverage.length_le {rules : Rules} (h : Coverage rules) :
    rules.reached.length ≤ rules.categories.length := by
  cases h with
  | complete hall => rw [hall]
  | withoutOther hother _ =>
    rw [hother, List.length_append]
    omega
  | withoutMany before hmany hreached =>
    rw [hmany, hreached, List.length_append, List.length_append]
    exact Nat.add_le_add_left (by decide) _

theorem length_allCategories {locale : String} {r : RuleSet}
    (h : RuleSet.ofLocale locale = .ok r) : r.allCategories.length = r.categoryCount := by
  have hle := (coverage (tableLanguage locale)).length_le
  rw [← rules_of_ofLocale h, RuleSet.length_reached] at hle
  rw [allCategories_eq h, RuleSet.categoryCount, Nat.max_eq_left hle]

/-- Up to the first category without a form, the forms have the places of their categories. -/
theorem select_eq_idxOf_of_prefix {r : RuleSet} {before : List Category}
    (hreached : before <+: r.rules.reached) (hcategories : before <+: r.rules.categories)
    {count : Nat} (hmem : r.category count ∈ before) :
    r.select count = r.rules.categories.idxOf (r.category count) := by
  rw [RuleSet.select_of_mem (hreached.subset hmem), ← hreached.idxOf_eq_of_mem hmem,
    hcategories.idxOf_eq_of_mem hmem]

theorem notMem_of_nodup {before : List Category}
    (h : (before ++ [Category.many, Category.other]).Nodup) :
    .many ∉ before ∧ .other ∉ before := by
  have hapart := (List.nodup_append'.mp h).2.2
  exact ⟨fun hin ↦ hapart hin (by simp), fun hin ↦ hapart hin (by simp)⟩

theorem Coverage.select_eq_idxOf {r : RuleSet} (h : Coverage r.rules)
    (hnodup : r.rules.categories.Nodup) (count : Nat) :
    if r.category count = .other ∧ .many ∈ r.rules.categories ∧ .many ∉ r.rules.reached then
      r.select count + 1 = r.rules.categories.idxOf (r.category count)
    else r.select count = r.rules.categories.idxOf (r.category count) := by
  have hmem : r.category count ∈ r.rules.categories := r.rules.category_mem_categories count
  cases h with
  | complete hall =>
    rw [if_neg fun hmany ↦ hmany.2.2 (hall ▸ hmany.2.1)]
    exact select_eq_idxOf_of_prefix (hall ▸ List.prefix_rfl) List.prefix_rfl hmem
  | withoutOther hother hnever =>
    rw [if_neg fun hmany ↦ hnever count hmany.1]
    refine select_eq_idxOf_of_prefix List.prefix_rfl (hother ▸ List.prefix_append _ _) ?_
    rw [hother, List.mem_append, List.mem_singleton] at hmem
    exact hmem.resolve_right (hnever count)
  | withoutMany before hmany hreached =>
    have hlength : r.formCount = before.length + 1 := by
      rw [← RuleSet.length_reached, hreached, List.length_append, List.length_singleton]
    obtain ⟨hno, hother⟩ := notMem_of_nodup (hmany ▸ hnodup)
    have hunreached : .many ∉ r.rules.reached := by
      rw [hreached]
      simp [hno]
    rw [hmany, List.mem_append, List.mem_cons, List.mem_singleton] at hmem
    obtain hin | heq | heq := hmem
    · have hne : r.category count ≠ .other := fun heq ↦ hother (heq ▸ hin)
      rw [if_neg fun hall ↦ hne hall.1]
      exact select_eq_idxOf_of_prefix (hreached ▸ List.prefix_append _ _)
        (hmany ▸ List.prefix_append _ _) hin
    · -- it has no form of its own, but the last one has its place
      have hne : r.category count ≠ .other := by
        rw [heq]
        decide
      rw [if_neg fun hall ↦ hne hall.1, RuleSet.select_of_notMem (heq ▸ hunreached), hlength, heq,
        hmany, List.idxOf_append_of_notMem hno]
      rfl
    · have hform : r.category count ∈ r.rules.reached := by
        rw [heq, hreached]
        simp
      rw [if_pos ⟨heq, by simp [hmany], hunreached⟩, RuleSet.select_of_mem hform, heq, hreached,
        hmany, List.idxOf_append_of_notMem hother, List.idxOf_append_of_notMem hother]
      rfl

theorem mem_languages_iff (language : String) :
    language ∈ languagesOfUntriedMany ++ languagesOfFractionalMany
      ↔ .many ∈ (Cardinal.rulesOf language).categories
        ∧ .many ∉ (Cardinal.rulesOf language).reached := by
  constructor
  · exact many_of_mem_languages language
  · rintro ⟨hmany, hreached⟩
    rcases rulesOf_cases language with hnone | ⟨row, hrow, hlanguage, hrules⟩
    · rw [hnone] at hmany
      exact absurd hmany (by decide)
    · rw [hrules] at hmany hreached
      rw [List.mem_append]
      exact (many_of_mem_table row hrow language hlanguage hmany hreached).imp_right And.left

/-- The form for a count has the place of its category among all categories, unless the category is
`other` and the language has no form for `many`, which comes before it. -/
theorem select_eq_place {locale : String} {r : RuleSet} (h : RuleSet.ofLocale locale = .ok r)
    (count : Nat) :
    if r.category count = .other
        ∧ tableLanguage locale ∈ languagesOfUntriedMany ++ languagesOfFractionalMany then
      r.select count + 1 = r.place count
    else r.select count = r.place count := by
  have hcoverage : Coverage r.rules := rules_of_ofLocale h ▸ coverage (tableLanguage locale)
  have hselect := hcoverage.select_eq_idxOf (allCategories_eq h ▸ nodup_allCategories r) count
  have hlanguage := mem_languages_iff (tableLanguage locale)
  rw [← rules_of_ofLocale h] at hlanguage
  rw [RuleSet.place, allCategories_eq h, if_congr (and_congr_right' hlanguage) rfl rfl]
  exact hselect

end MessageCatalog.Plural
