import MessageCatalog.Plural.RuleSet
import MessageCatalog.Text.Literal

/-!
# Describing rules

A line for diagnostics that shows a locale, its forms and how many categories it has.
-/

namespace MessageCatalog.Plural

/-- A form as it stands in a description. -/
def Form.describe (f : Form) : String :=
  s!"PluralForm \x7b category: {f.category.name.capitalize}, sample: {f.sample} \x7d"

/-- A description of a locale's rules. -/
def RuleSet.describe (r : RuleSet) : String :=
  let forms := ", ".intercalate (r.forms.map Form.describe)
  s!"PluralRuleSet \x7b locale: {Text.literal r.locale.toList}, forms: [{forms}], "
    ++ s!"category_count: {r.categoryCount} \x7d"

end MessageCatalog.Plural
