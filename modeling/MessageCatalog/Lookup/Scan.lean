import MessageCatalog.Lookup.Table

/-!
# Looking up without a table

What a lookup means, said of the catalog itself: the first usable message in document order with the
key that is asked for, over all contexts with the name. A table answers the same, faster.
-/

namespace MessageCatalog.Lookup

open Plural

/-- Whether a message of a context has a key. -/
def hasKey (context source comment : String) (m : String × Message) : Bool :=
  m.1 = context && m.2.source = source && m.2.commentKey = comment

/-- The first usable message with a key. -/
def firstUsable? (c : Catalog) (includeUnfinished : Bool) (context source comment : String) :
    Option Message :=
  (c.messages.find? fun m ↦
    isUsable includeUnfinished m.2 && hasKey context source comment m).map (·.2)

/-- The message that answers a query. -/
def answering? (c : Catalog) (includeUnfinished : Bool) (q : Query) : Option Message :=
  (firstUsable? c includeUnfinished q.context q.source q.comment).or
    (if q.comment = "" then none else firstUsable? c includeUnfinished q.context q.source "")

/-- The index of the form of a message that a count selects under rules. -/
def formIndexOf (rules : Option RuleSet) (m : Message) (count : Option Nat) : Nat :=
  match m.numerus, count, rules with
  | true, some count, some rules => rules.select count
  | _, _, _ => 0

/-- The translation that a query asks for, found by going through the catalog. -/
def scan? (c : Catalog) (includeUnfinished : Bool) (q : Query) : Option String :=
  (answering? c includeUnfinished q).bind fun m ↦
    let index := formIndexOf (RuleSet.ofLanguage? c.language) m q.count
    let form := m.forms[min index (m.forms.length - 1)]?
    form.filter (· ≠ "")

end MessageCatalog.Lookup
