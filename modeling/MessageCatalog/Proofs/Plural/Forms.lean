import Mathlib.Data.List.Basic
import MessageCatalog.Plural.RuleSet

/-!
# Choosing a form

The forms of a locale stand for the categories that its probes reach. To choose the form for a count
is to find the place of its category among them, and a category without a form gets the last one.
Either way there is such a form, as a locale without forms is refused: nothing here depends on the
rules of any language.

The probes go through the categories in order and take one count at most for each. So no category
has two forms, the forms are in the order of the categories, and the sample of a form is a count
that gets this form.
-/

namespace MessageCatalog.Plural

open MessageCatalog.Locale

/-- The categories that have a form, in the order of the forms. -/
def Rules.reached (rules : Rules) : List Category :=
  (formsOf rules.category).map (·.category)

/-! ## Any way of sorting counts into categories -/

/-- The index of the form for a count: that of its category, or the last one. -/
def selectBy (category : Nat → Category) (count : Nat) : Nat :=
  ((formsOf category).findIdx? fun form ↦ form.category = category count).getD
    ((formsOf category).length - 1)

section

variable {category : Nat → Category}

theorem category_sample {form : Form} (h : form ∈ formsOf category) :
    category form.sample = form.category := by
  obtain ⟨⟨expected, samples⟩, -, hform⟩ := List.mem_filterMap.mp h
  obtain ⟨sample, hsample, rfl⟩ := Option.map_eq_some_iff.mp hform
  exact of_decide_eq_true (List.find?_some (p := fun count ↦ category count = expected) hsample)

/-- The forms are in the order of the categories, and no category has two. -/
theorem pairwise_formsOf (category : Nat → Category) :
    (formsOf category).Pairwise fun a b ↦ a.category.rank < b.category.rank := by
  have hprobes : probes.Pairwise fun a b ↦ a.1.rank < b.1.rank := by decide
  refine hprobes.filterMap _ fun a b hlt form hform form' hform' ↦ ?_
  obtain ⟨-, -, rfl⟩ := Option.map_eq_some_iff.mp hform
  obtain ⟨-, -, rfl⟩ := Option.map_eq_some_iff.mp hform'
  exact hlt

theorem nodup_category_formsOf (category : Nat → Category) :
    ((formsOf category).map (·.category)).Nodup := by
  rw [List.Nodup, List.pairwise_map]
  exact (pairwise_formsOf category).imp fun hlt heq ↦ Nat.ne_of_lt hlt (congrArg Category.rank heq)

/-- The index of a form is the place of its category among those that have one. -/
theorem selectBy_eq (category : Nat → Category) (count : Nat) :
    selectBy category count
      = if category count ∈ (formsOf category).map (·.category) then
          ((formsOf category).map (·.category)).idxOf (category count)
        else (formsOf category).length - 1 := by
  have hfind : ((formsOf category).findIdx? fun form ↦ form.category = category count)
      = ((formsOf category).map (·.category)).idxOf? (category count) := by
    rw [List.idxOf?, List.findIdx?_map]
    rfl
  rw [selectBy, hfind]
  split_ifs with hmem
  · rw [List.idxOf_eq_getD_idxOf?]
    cases hplace : ((formsOf category).map (·.category)).idxOf? (category count) with
    | none => exact absurd hmem (List.idxOf?_eq_none_iff.mp hplace)
    | some place => rfl
  · rw [List.idxOf?_eq_none_iff.mpr hmem, Option.getD_none]

theorem selectBy_lt (h : formsOf category ≠ []) (count : Nat) :
    selectBy category count < (formsOf category).length := by
  rw [selectBy_eq]
  split_ifs with hmem
  · rw [← List.length_map (·.category)]
    exact List.idxOf_lt_length_iff.mpr hmem
  · have hpos : 0 < (formsOf category).length := List.length_pos_iff.mpr h
    omega

theorem selectBy_of_getElem? {i : Nat} {form : Form} (h : (formsOf category)[i]? = some form)
    {count : Nat} (hcount : category count = form.category) : selectBy category count = i := by
  have hplace : ((formsOf category).map (·.category))[i]? = some form.category := by
    rw [List.getElem?_map, h, Option.map_some]
  obtain ⟨hi, hget⟩ := List.getElem?_eq_some_iff.mp hplace
  rw [selectBy_eq, hcount, if_pos (List.mem_of_getElem? hplace), ← hget,
    (nodup_category_formsOf category).idxOf_getElem]

end

/-- How forms stand for the categories that counts are sorted into, and how one is chosen. -/
structure IsArranged (category : Nat → Category) (forms : List Form) (select : Nat → Nat) :
    Prop where
  /-- The forms are in the order of the categories, and no category has two. -/
  ascending : forms.Pairwise fun a b ↦ a.category.rank < b.category.rank
  nonempty : 1 ≤ forms.length
  /-- The sample of a form gets that form. -/
  select_sample : ∀ (i : Nat) (form : Form), forms[i]? = some form → select form.sample = i
  /-- Every count gets a form. -/
  select_lt : ∀ count, select count < forms.length
  /-- A count whose category has a form gets it. -/
  getElem?_select : ∀ count, ∀ form ∈ forms, form.category = category count →
    forms[select count]? = some form

theorem isArranged_formsOf {category : Nat → Category} (h : formsOf category ≠ []) :
    IsArranged category (formsOf category) (selectBy category) where
  ascending := pairwise_formsOf category
  nonempty := List.length_pos_iff.mpr h
  select_sample i form hform :=
    selectBy_of_getElem? hform (category_sample (List.mem_of_getElem? hform))
  select_lt := selectBy_lt h
  getElem?_select count form hform hcount := by
    obtain ⟨i, hi⟩ := List.getElem?_of_mem hform
    rw [selectBy_of_getElem? hi hcount.symm, hi]

/-! ## Rule sets -/

namespace RuleSet

@[simp] theorem map_category_forms (r : RuleSet) : r.forms.map (·.category) = r.rules.reached := rfl

@[simp] theorem length_reached (r : RuleSet) : r.rules.reached.length = r.formCount :=
  List.length_map _

theorem select_eq (r : RuleSet) (count : Nat) :
    r.select count
      = if r.category count ∈ r.rules.reached then r.rules.reached.idxOf (r.category count)
        else r.formCount - 1 :=
  selectBy_eq r.category count

theorem select_of_mem {r : RuleSet} {count : Nat} (h : r.category count ∈ r.rules.reached) :
    r.select count = r.rules.reached.idxOf (r.category count) := by
  rw [select_eq, if_pos h]

theorem select_of_notMem {r : RuleSet} {count : Nat} (h : r.category count ∉ r.rules.reached) :
    r.select count = r.formCount - 1 := by
  rw [select_eq, if_neg h]

theorem select_lt {r : RuleSet} (h : r.forms ≠ []) (count : Nat) : r.select count < r.formCount :=
  selectBy_lt h count

theorem getElem?_select {r : RuleSet} {count : Nat} (h : r.category count ∈ r.rules.reached) :
    (r.forms[r.select count]?).map (·.category) = some (r.category count) := by
  rw [← List.getElem?_map, map_category_forms, select_of_mem h, List.getElem?_idxOf h]

theorem formCount_le_categoryCount (r : RuleSet) : r.formCount ≤ r.categoryCount :=
  Nat.le_max_right _ _

/-! ## The rules of a locale -/

theorem ofLocale_eq_ok {locale : String} {r : RuleSet} (h : ofLocale locale = .ok r) :
    (∃ tag, Tag.ofLocale locale = .ok tag ∧ r = ⟨locale, rulesOf tag⟩) ∧ r.forms ≠ [] := by
  unfold ofLocale at h
  cases htag : Tag.ofLocale locale with
  | error reason =>
    rw [htag] at h
    cases h
  | ok tag =>
    rw [htag] at h
    change (if (⟨locale, rulesOf tag⟩ : RuleSet).forms = [] then .error Reason.noCategories
      else .ok ⟨locale, rulesOf tag⟩) = Except.ok r at h
    split_ifs at h with hforms
    cases h
    exact ⟨⟨tag, rfl, rfl⟩, hforms⟩

theorem ofLanguage?_eq_some {language : Option String} {r : RuleSet}
    (h : ofLanguage? language = some r) : ∃ locale ∈ language, ofLocale locale = .ok r := by
  obtain ⟨locale, hlocale, hrules⟩ := Option.bind_eq_some_iff.mp h
  refine ⟨locale, hlocale, ?_⟩
  cases hof : ofLocale locale with
  | error reason =>
    rw [hof] at hrules
    cases hrules
  | ok r' =>
    rw [hof] at hrules
    cases hrules
    rfl

theorem forms_ne_nil {language : Option String} : ∀ r ∈ ofLanguage? language, r.forms ≠ [] := by
  intro r hr
  obtain ⟨locale, -, hlocale⟩ := ofLanguage?_eq_some hr
  exact (ofLocale_eq_ok hlocale).2

/-! ## What every rule set keeps -/

/-- The forms of a locale are arranged in the order of the categories, whatever sorts its counts.
There is one at least, and no more than there are categories. -/
theorem isArranged_of_ofLocale :
    (∀ category : Nat → Category, formsOf category ≠ [] →
      IsArranged category (formsOf category) (selectBy category))
    ∧ ∀ (locale : String) (r : RuleSet), ofLocale locale = .ok r →
      r.forms = formsOf r.category ∧ r.select = selectBy r.category
        ∧ IsArranged r.category r.forms r.select
        ∧ 1 ≤ r.formCount ∧ r.formCount ≤ r.categoryCount := by
  refine ⟨fun category ↦ isArranged_formsOf, fun locale r h ↦ ?_⟩
  obtain ⟨-, hforms⟩ := ofLocale_eq_ok h
  have harranged : IsArranged r.category r.forms r.select := isArranged_formsOf hforms
  exact ⟨rfl, rfl, harranged, harranged.nonempty, r.formCount_le_categoryCount⟩

/-- Counts sorted as no language sorts them. -/
def oddCategory (count : Nat) : Category :=
  if count = 101 then .many else .zero

theorem isArranged_of_ofLocale_polish :
    (formsOf oddCategory ≠ [] ∧ selectBy oddCategory 101 = 1
      ∧ (formsOf oddCategory)[selectBy oddCategory 7]? = some ⟨.zero, 0⟩)
    ∧ ∃ r, ofLocale "pl_PL" = .ok r ∧ r.select 5 = 2 ∧ r.formCount ≤ r.categoryCount := by
  obtain ⟨hany, hlocale⟩ := isArranged_of_ofLocale
  have hforms : formsOf oddCategory ≠ [] := by decide
  have hodd := hany oddCategory hforms
  have hrules : ofLocale "pl_PL" = .ok ⟨"pl_PL", Cardinal.rulesOf "pl"⟩ := by decide
  obtain ⟨-, -, hpolish, -, hle⟩ := hlocale _ _ hrules
  have hmany := hodd.select_sample 1 ⟨.many, 101⟩ rfl
  have hzero := hodd.getElem?_select 7 ⟨.zero, 0⟩ (by decide) rfl
  exact ⟨⟨hforms, hmany, hzero⟩, _, hrules, hpolish.select_sample 2 ⟨.many, 5⟩ rfl, hle⟩

end RuleSet

end MessageCatalog.Plural
