import MessageCatalog.Plural.Language

/-!
# Numerus forms

A catalog for a language carries one form of a translation for each category that a count can be
in. Which these are is found by probing: for each category a few counts are tried, and the first
that falls into it becomes the category's sample. A category that no probe reaches has no form;
the last form stands in for it.

Some languages have categories that fractions alone reach, and catalogs for them often carry a form
for those as well. A translation therefore fits a language if it has as many forms as there are
probed categories, or as there are categories at all.
-/

namespace MessageCatalog.Plural

open MessageCatalog.Locale

/-- A category with a count that selects it. -/
structure Form where
  category : Category
  sample : Nat
  deriving DecidableEq, Repr

/-- The counts tried for each category, in order. -/
def probes : List (Category × List Nat) := [
  (.zero, [0]),
  (.one, [1, 21, 31, 41]),
  (.two, [2, 22, 32]),
  (.few, [3, 4, 23, 24]),
  (.many, [5, 11, 101]),
  (.other, [6, 7, 8, 9, 10, 25, 100, 1000])]

/-- The forms that the probes find for a way of sorting counts into categories. -/
def formsOf (category : Nat → Category) : List Form :=
  probes.filterMap fun (expected, samples) ↦
    (samples.find? fun count ↦ category count = expected).map (Form.mk expected)

/-- The plural rules of a locale, as named by whoever asked for them. -/
structure RuleSet where
  locale : String
  rules : Rules
  deriving DecidableEq, Repr

namespace RuleSet

def category (r : RuleSet) (count : Nat) : Category :=
  r.rules.category count

def forms (r : RuleSet) : List Form :=
  formsOf r.category

/-- The number of forms that a translation carries. -/
def formCount (r : RuleSet) : Nat :=
  r.forms.length

/-- The number of categories, those that only fractions reach included. -/
def categoryCount (r : RuleSet) : Nat :=
  max r.rules.categories.length r.formCount

/-- Whether a translation with this number of forms fits the locale. -/
def accepts (r : RuleSet) (found : Nat) : Bool :=
  found = r.formCount || found = r.categoryCount

/-- The index of the form for a count: that of its category, or the last one. -/
def select (r : RuleSet) (count : Nat) : Nat :=
  (r.forms.findIdx? fun form ↦ form.category = r.category count).getD (r.formCount - 1)

/-- The rules of a locale named in either notation. -/
def ofLocale (locale : String) : Except Reason RuleSet := do
  let tag ← Tag.ofLocale locale
  let r : RuleSet := ⟨locale, rulesOf tag⟩
  if r.forms = [] then throw .noCategories else pure r

/-- The rules of a catalog's language, if it states one that has rules. -/
def ofLanguage? (language : Option String) : Option RuleSet :=
  language.bind fun locale ↦ (ofLocale locale).toOption

end RuleSet

end MessageCatalog.Plural
