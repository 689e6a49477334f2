import MessageCatalog.Integrity.Check

/-!
# Soundness

What it takes for a catalog to be sound, said of the catalog and not of a list of issues. A sound
catalog may still have warnings; an immaculate one has none.

Messages count as long as their translations are finished or unfinished. They are told apart by
their source texts and comments, an absent comment being an empty one.
-/

namespace MessageCatalog.Integrity

open Plural

/-- Whether the forms of a message have the placeholders of its source, empty forms left aside. -/
def placeholdersMatch (m : Message) : Prop :=
  ∀ form ∈ m.forms, form ≠ "" → references form m.numerus = references m.source m.numerus

/-- A message that a program can use under the rules of its language. -/
structure IsSoundMessage (rules : Option RuleSet) (m : Message) : Prop where
  numerus_iff : m.numerus = true ↔ m.translation.wording.isPlural = true
  form_count : m.numerus = true → ∀ r ∈ rules,
    m.forms.length = r.formCount ∨ m.forms.length = r.categoryCount
  has_forms : m.status = .finished → m.forms ≠ [] ∧ ∀ form ∈ m.forms, form ≠ ""
  placeholders : m.status = .finished → placeholdersMatch m

/-- A catalog that a program can use. -/
structure IsSound (c : Catalog) : Prop where
  names_distinct : (c.contexts.map (·.name)).Nodup
  keys_distinct : ∀ k ∈ c.contexts,
    ((k.messages.filter fun m ↦ m.status = .finished ∨ m.status = .unfinished).map
      fun m ↦ (m.source, m.comment.getD "")).Nodup
  messages : ∀ k ∈ c.contexts, ∀ m ∈ k.messages, m.status = .finished ∨ m.status = .unfinished →
    IsSoundMessage (RuleSet.ofLanguage? c.language) m

/-- A sound catalog without anything suspicious. -/
structure IsImmaculate (c : Catalog) : Prop extends IsSound c where
  has_rules : (RuleSet.ofLanguage? c.language).isSome
  all_placeholders : ∀ k ∈ c.contexts, ∀ m ∈ k.messages,
    m.status = .finished ∨ m.status = .unfinished → placeholdersMatch m

end MessageCatalog.Integrity
