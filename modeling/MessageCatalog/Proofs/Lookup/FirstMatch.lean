import Mathlib.Data.List.Basic
import MessageCatalog.Lookup.Scan

/-!
# A table answers as its catalog does

What a table finds for a key is the first of the messages that it was built from with that key,
however they are spread over contexts, and whatever other messages came between. This holds of any
table that messages are added to, so that no invariant of tables is needed: a message whose key is
taken changes no answer, and any other one is found by its own key only.

Whatever a query adds to this, its retry without a comment, the form that its count selects and the
form that stands in for a missing one, is done with the entry as it is with the message.
-/

namespace MessageCatalog.Lookup

open Plural

@[simp] theorem hasKey_iff {context source comment : String} {m : String × Message} :
    hasKey context source comment m = true
      ↔ m.1 = context ∧ m.2.source = source ∧ m.2.commentKey = comment := by
  simp [hasKey, and_assoc]

namespace Table

/-! ## Adding a message -/

/-- A message whose key is new joins the group of its own source text in its own context. -/
theorem group_add (t : Table) (context : String) (m : Message) (h : t.holds context m = false)
    (k source : String) :
    (t.add context m).group k source
      = if context = k ∧ m.source = source then t.group k source ++ [Entry.ofMessage m]
        else t.group k source := by
  have hadd : (t.add context m).entries = t.entries.update []
      (Index.update [] (· ++ [Entry.ofMessage m]) m.source) context := by
    rw [add, if_neg (Bool.eq_false_iff.mp h)]
  rw [group, hadd, Index.get?_update]
  by_cases hcontext : context = k
  · rw [if_pos hcontext, Option.bind_some, Index.get?_update, hcontext]
    have hsources : ∀ name, ((t.entries.get? k).getD []).get? name
        = (t.entries.get? k).bind (·.get? name) := by
      intro name
      cases t.entries.get? k with
      | none => rfl
      | some sources => rfl
    rw [hsources, hsources]
    by_cases hsource : m.source = source
    · rw [if_pos hsource, if_pos ⟨rfl, hsource⟩, hsource]
      rfl
    · rw [if_neg hsource, if_neg fun hboth ↦ hsource hboth.2]
      rfl
  · rw [if_neg hcontext, if_neg fun hboth ↦ hcontext hboth.1]
    rfl

/-- Adding a message changes what is found for its own key, and that only if nothing was. -/
theorem find?_add (t : Table) (context : String) (m : Message) (k source comment : String) :
    (t.add context m).find? k source comment
      = (t.find? k source comment).or
          (if hasKey k source comment (context, m) then some (Entry.ofMessage m) else none) := by
  by_cases hkey : hasKey k source comment (context, m) = true
  · -- the key of the message itself, which may be taken
    obtain ⟨rfl, rfl, rfl⟩ := hasKey_iff.mp hkey
    rw [if_pos hkey]
    cases hheld : t.holds context m with
    | true =>
      obtain ⟨e, he⟩ := Option.isSome_iff_exists.mp hheld
      rw [add, if_pos hheld, he, Option.some_or]
    | false =>
      rw [find?, group_add t context m hheld, if_pos ⟨rfl, rfl⟩, List.find?_append, find?]
      refine congrArg _ (List.find?_cons_of_pos ?_)
      exact decide_eq_true rfl
  · rw [if_neg hkey, Option.or_none]
    cases hheld : t.holds context m with
    | true => rw [add, if_pos hheld]
    | false =>
      rw [find?, group_add t context m hheld, find?]
      by_cases hgroup : context = k ∧ m.source = source
      · -- the same group, but another comment
        obtain ⟨rfl, rfl⟩ := hgroup
        have hcomment : ¬m.commentKey = comment := fun h ↦ hkey (hasKey_iff.mpr ⟨rfl, rfl, h⟩)
        rw [if_pos ⟨rfl, rfl⟩, List.find?_append, List.find?_cons_of_neg, List.find?_nil,
          Option.or_none]
        rwa [decide_eq_true_eq]
      · rw [if_neg hgroup]

theorem find?_foldl_add (messages : List (String × Message)) (t : Table)
    (k source comment : String) :
    (messages.foldl (fun t (context, m) ↦ t.add context m) t).find? k source comment
      = (t.find? k source comment).or
          ((messages.find? (hasKey k source comment)).map fun m ↦ Entry.ofMessage m.2) := by
  induction messages generalizing t with
  | nil => rw [List.foldl_nil, List.find?_nil, Option.map_none, Option.or_none]
  | cons m rest ih =>
    rw [List.foldl_cons, ih, find?_add, Option.or_assoc]
    refine congrArg _ ?_
    by_cases hkey : hasKey k source comment m = true
    · rw [if_pos hkey, List.find?_cons_of_pos hkey, Option.some_or, Option.map_some]
    · rw [if_neg hkey, List.find?_cons_of_neg hkey, Option.none_or]

@[simp] theorem rules_foldl_add (messages : List (String × Message)) (t : Table) :
    (messages.foldl (fun t (context, m) ↦ t.add context m) t).rules = t.rules := by
  induction messages generalizing t with
  | nil => rfl
  | cons m rest ih =>
    obtain ⟨context, m⟩ := m
    refine (ih _).trans ?_
    change (t.add context m).rules = t.rules
    rw [add]
    split_ifs <;> rfl

/-! ## The table of a catalog -/

variable (c : Catalog) (includeUnfinished : Bool)

/-- To search the messages that a table may hold is to search the catalog for one of them. -/
theorem find?_usable (p : String × Message → Bool) :
    (usable includeUnfinished c).find? p
      = c.messages.find? fun m ↦ isUsable includeUnfinished m.2 && p m := by
  simp only [usable, List.find?_filter, Bool.decide_and, Bool.decide_eq_true]

theorem find?_ofCatalog (k source comment : String) :
    (ofCatalog c includeUnfinished).find? k source comment
      = (firstUsable? c includeUnfinished k source comment).map Entry.ofMessage := by
  rw [ofCatalog, find?_foldl_add, find?_usable, firstUsable?, Option.map_map]
  exact Option.none_or

@[simp] theorem rules_ofCatalog :
    (ofCatalog c includeUnfinished).rules = RuleSet.ofLanguage? c.language := by
  rw [ofCatalog, rules_foldl_add]
  rfl

theorem answer?_ofCatalog (q : Query) :
    (ofCatalog c includeUnfinished).answer? q
      = (answering? c includeUnfinished q).map Entry.ofMessage := by
  rw [answer?, answering?, find?_ofCatalog, find?_ofCatalog, Option.map_or]
  split_ifs <;> rfl

/-! ## Forms -/

@[simp] theorem formIndex_ofMessage (t : Table) (m : Message) (count : Option Nat) :
    t.formIndex (Entry.ofMessage m) count = formIndexOf t.rules m count := by
  have hnumerus : (Entry.ofMessage m).numerus = m.numerus := rfl
  unfold formIndex formIndexOf
  rw [hnumerus]
  cases m.numerus <;> cases count <;> cases t.rules <;> rfl

theorem getElem?_or_getLast? (forms : List String) (index : Nat) :
    forms[index]?.or forms.getLast? = forms[min index (forms.length - 1)]? := by
  by_cases hindex : index < forms.length
  · have hmin : min index (forms.length - 1) = index := by omega
    rw [hmin, List.getElem?_eq_getElem hindex, Option.some_or]
  · have hmin : min index (forms.length - 1) = forms.length - 1 := by omega
    rw [hmin, List.getElem?_eq_none (by omega), Option.none_or, List.getLast?_eq_getElem?]

end Table

/-- A table answers every query as going through the catalog does. -/
theorem translate_ofCatalog (c : Catalog) (includeUnfinished : Bool) (q : Query) :
    (Table.ofCatalog c includeUnfinished).translate? q = scan? c includeUnfinished q
      ∧ (Table.ofCatalog c includeUnfinished).translate q
        = (scan? c includeUnfinished q).getD q.source := by
  have htranslate : (Table.ofCatalog c includeUnfinished).translate? q
      = scan? c includeUnfinished q := by
    rw [Table.translate?, Table.answer?_ofCatalog, scan?, Option.bind_map]
    refine congrArg _ (funext fun m ↦ ?_)
    rw [Function.comp_apply, Table.formAt?, Table.formIndex_ofMessage, Table.rules_ofCatalog,
      Table.getElem?_or_getLast?]
    rfl
  rw [Table.translate, htranslate]
  exact ⟨rfl, rfl⟩

-- the message without a comment answers, and 2 selects its second form
example :
    (Table.ofCatalog
      { language := some "de"
        contexts := [
          { name := "Main", messages := [{
            source := "%n file(s)", comment := some "list", numerus := true
            translation := { status := .unfinished, wording := .plural ["Liste", "Listen"] } }] },
          { name := "Main", messages := [{
            source := "%n file(s)", numerus := true
            translation := { wording := .plural ["%n Datei", "%n Dateien"] } }] }] }
      false).translate? ⟨"Main", "%n file(s)", "list", some 2⟩
      = some "%n Dateien" := by decide +kernel

end MessageCatalog.Lookup
