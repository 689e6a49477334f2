import Mathlib.Data.Finset.Card
import MessageCatalog.Proofs.Integrity.Composition

/-!
# Duplicates are counted exactly

Of the contexts with one name, all but the first are reported as duplicates, and of the live
messages of a context with one key, all but the first. So there are as many reports as there are
contexts, or live messages, more than names, or keys.

Duplicates are said of positions: a member of a list is repeated if its key is among those of the
members before its position. The check does not know positions, only what it has seen. The two are
held together by following the list from its end: the last member is checked with all those before
it seen.
-/

namespace MessageCatalog.Integrity

open Plural

/-! ## Members that come again -/

section

variable {α β γ : Type}

/-- The members of a list whose key an earlier member has. -/
def repeated [DecidableEq β] (key : α → β) (l : List α) : List α :=
  (l.zipIdx.filter fun p ↦ key p.1 ∈ (l.take p.2).map key).map (·.1)

theorem zipIdx_concat (l : List α) (a : α) : (l ++ [a]).zipIdx = l.zipIdx ++ [(a, l.length)] := by
  rw [List.zipIdx_append, Nat.zero_add]
  rfl

theorem take_concat_of_mem_zipIdx {l : List α} {p : α × Nat} (h : p ∈ l.zipIdx) (a : α) :
    (l ++ [a]).take p.2 = l.take p.2 := by
  have hlt : p.2 < l.length := by
    have := List.snd_lt_of_mem_zipIdx h
    omega
  exact List.take_append_of_le_length hlt.le

@[simp] theorem repeated_concat [DecidableEq β] (key : α → β) (l : List α) (a : α) :
    repeated key (l ++ [a]) = repeated key l ++ if key a ∈ l.map key then [a] else [] := by
  have hfirst : l.zipIdx.filter (fun p ↦ key p.1 ∈ ((l ++ [a]).take p.2).map key)
      = l.zipIdx.filter fun p ↦ key p.1 ∈ (l.take p.2).map key := by
    refine List.filter_congr fun p hp ↦ ?_
    rw [take_concat_of_mem_zipIdx hp]
  have hlast : [(a, l.length)].filter (fun p ↦ key p.1 ∈ ((l ++ [a]).take p.2).map key)
      = if key a ∈ l.map key then [(a, l.length)] else [] := by
    have htake : (l ++ [a]).take l.length = l := List.take_left
    rw [List.filter_cons, List.filter_nil]
    simp only [htake, decide_eq_true_eq]
  rw [repeated, zipIdx_concat, List.filter_append, List.map_append, hfirst, hlast, repeated]
  refine congrArg _ ?_
  split <;> rfl

/-- A list has as many members as it has keys, and those that are repeated besides. -/
theorem length_repeated [DecidableEq β] (key : α → β) (l : List α) :
    (repeated key l).length + (l.map key).toFinset.card = l.length := by
  induction l using List.reverseRecOn with
  | nil => rfl
  | append_singleton l a ih =>
    have hkeys : ((l ++ [a]).map key).toFinset = insert (key a) (l.map key).toFinset := by
      rw [List.map_append, List.toFinset_append, Finset.union_comm]
      rfl
    rw [repeated_concat, hkeys, List.length_append, List.length_append, ← ih]
    by_cases ha : key a ∈ l.map key
    · rw [if_pos ha, Finset.insert_eq_of_mem (List.mem_toFinset.mpr ha)]
      exact Nat.add_right_comm _ _ _
    · rw [if_neg ha, Finset.card_insert_of_notMem fun h ↦ ha (List.mem_toFinset.mp h)]
      rfl

/-- A check that goes on from the keys it has seen, and reports a member exactly if its key is among
them, reports those that are repeated, in their order. -/
theorem filter_eq_map_repeated [DecidableEq β] {key : α → β} {check : List β → List α → List γ}
    {isReport : γ → Bool} {report : α → γ} (hnil : check [] [] = [])
    (happend : ∀ l a, check [] (l ++ [a]) = check [] l ++ check ((l.map key).reverse ++ []) [a])
    (hone : ∀ seen a,
      (check seen [a]).filter isReport = if key a ∈ seen then [report a] else [])
    (l : List α) : (check [] l).filter isReport = (repeated key l).map report := by
  induction l using List.reverseRecOn with
  | nil =>
    rw [hnil]
    rfl
  | append_singleton l a ih =>
    rw [happend, List.filter_append, ih, hone, repeated_concat, List.map_append, List.append_nil]
    simp only [List.mem_reverse]
    split <;> rfl

/-- What the members of a list give, each with those before it, is what they give position by
position. -/
theorem flatMap_zipIdx_eq_flatMap_finRange (f : α → Nat → List β) (l : List α) :
    (l.zipIdx.flatMap fun p ↦ f p.1 p.2)
      = (List.finRange l.length).flatMap fun i : Fin l.length ↦ f l[i] i.val := by
  have hpositions : l.zipIdx
      = (List.finRange l.length).map fun i : Fin l.length ↦ (l[i], i.val) := by
    refine List.ext_getElem (by simp) fun i hi hi' ↦ ?_
    simp
  rw [hpositions, List.flatMap_map]

end

/-! ## Duplicates in reports -/

def isDuplicateContext (i : Issue) : Bool :=
  i.kind = .duplicateContext

def isDuplicateMessage (i : Issue) : Bool :=
  i.kind = .duplicateMessage

/-- The report that a context is a duplicate. -/
def duplicateContext (k : Context) : Issue :=
  ⟨.error, .duplicateContext, some k.name, none⟩

/-- The report that a message of the context with a name is a duplicate. -/
def duplicateMessage (context : String) (m : Message) : Issue :=
  ⟨.error, .duplicateMessage, some context, some m.source⟩

/-- The issues that are reported at a position of a catalog. -/
def issuesAt (c : Catalog) (i : Fin c.contexts.length) : List Issue :=
  issuesInContexts (RuleSet.ofLanguage? c.language) ((c.contexts.take i).map (·.name))
    [c.contexts[i]]

theorem filter_isDuplicateMessage_singleton (rules : Option RuleSet) (context : String)
    (seen : List (String × String)) (m : Message) :
    (issuesInMessages rules context seen [m]).filter isDuplicateMessage
      = if messageKey m ∈ seen then [duplicateMessage context m] else [] := by
  rw [issuesInMessages, issuesInMessages, List.append_nil, List.filter_append]
  refine (congrArg _ (List.filter_eq_nil_iff.mpr ?own)).trans ?duplicate
  case own =>
    intro i hi hduplicate
    obtain ⟨found, hfound, rfl⟩ := List.mem_map.mp hi
    have hkind : found.2.isAboutMessage = true := isAboutMessage_of_mem_messageIssues hfound
    have heq : found.2 = .duplicateMessage := of_decide_eq_true hduplicate
    rw [heq] at hkind
    cases hkind
  case duplicate =>
    rw [List.append_nil]
    split <;> rfl

/-- The duplicates among messages are those that are repeated, in their order. -/
theorem filter_isDuplicateMessage (rules : Option RuleSet) (context : String)
    (messages : List Message) :
    (issuesInMessages rules context [] messages).filter isDuplicateMessage
      = (repeated messageKey messages).map (duplicateMessage context) := by
  refine filter_eq_map_repeated rfl
    (fun l m ↦ issuesInMessages_append rules context l [m] []) (fun seen m ↦ ?_) messages
  rw [filter_isDuplicateMessage_singleton]
  -- Pairs are compared by their members there, and as a whole here.
  congr

theorem filter_isDuplicateContext_singleton (rules : Option RuleSet) (seen : List String)
    (k : Context) :
    (issuesInContexts rules seen [k]).filter isDuplicateContext
      = if k.name ∈ seen then [duplicateContext k] else [] := by
  have hmessages : (issuesInMessages rules k.name [] k.live).filter isDuplicateContext = [] := by
    rw [List.filter_eq_nil_iff]
    intro i hi hduplicate
    have heq : i.kind = .duplicateContext := of_decide_eq_true hduplicate
    obtain hkind | hkind := kind_of_mem_issuesInMessages hi
    · rw [heq] at hkind
      cases hkind
    · rw [heq] at hkind
      cases hkind
  rw [issuesInContexts, issuesInContexts, List.append_nil, List.filter_append, ← Context.live,
    hmessages, List.append_nil]
  split <;> rfl

theorem filter_isDuplicateContext (rules : Option RuleSet) (contexts : List Context) :
    (issuesInContexts rules [] contexts).filter isDuplicateContext
      = (repeated (·.name) contexts).map duplicateContext :=
  filter_eq_map_repeated rfl (fun l k ↦ issuesInContexts_append rules l [k] [])
    (filter_isDuplicateContext_singleton rules) contexts

/-! ## Positions -/

theorem issuesInContexts_eq_flatMap (rules : Option RuleSet) (contexts : List Context) :
    issuesInContexts rules [] contexts
      = contexts.zipIdx.flatMap fun p ↦
          issuesInContexts rules ((contexts.take p.2).map (·.name)) [p.1] := by
  induction contexts using List.reverseRecOn with
  | nil => rfl
  | append_singleton contexts k ih =>
    have hfirst : (contexts.zipIdx.flatMap fun p ↦
        issuesInContexts rules (((contexts ++ [k]).take p.2).map (·.name)) [p.1])
          = issuesInContexts rules [] contexts := by
      rw [ih]
      refine List.flatMap_congr fun p hp ↦ ?_
      rw [take_concat_of_mem_zipIdx hp]
    have hlast : issuesInContexts rules ((contexts.map (·.name)).reverse ++ []) [k]
        = issuesInContexts rules (((contexts ++ [k]).take contexts.length).map (·.name)) [k] := by
      refine issuesInContexts_congr rules fun k' _ ↦ ?_
      rw [List.take_left, List.append_nil, List.mem_reverse]
    rw [issuesInContexts_append, zipIdx_concat, List.flatMap_append, hfirst,
      List.flatMap_singleton, hlast]

/-- A report goes along the positions of the catalog, after what it says of the language. -/
theorem issues_eq_flatMap_issuesAt (c : Catalog) :
    issues c = languageIssues c ++ (List.finRange c.contexts.length).flatMap (issuesAt c) := by
  rw [issues, issuesInContexts_eq_flatMap, flatMap_zipIdx_eq_flatMap_finRange fun k i ↦
    issuesInContexts (RuleSet.ofLanguage? c.language) ((c.contexts.take i).map (·.name)) [k]]
  rfl

theorem filter_isDuplicateMessage_issuesAt (c : Catalog) (i : Fin c.contexts.length) :
    (issuesAt c i).filter isDuplicateMessage
      = (repeated messageKey c.contexts[i].live).map (duplicateMessage c.contexts[i].name) := by
  have hduplicate : ((if c.contexts[i].name ∈ (c.contexts.take i).map (·.name)
      then [duplicateContext c.contexts[i]] else []).filter isDuplicateMessage) = [] := by
    split <;> rfl
  rw [← filter_isDuplicateMessage (RuleSet.ofLanguage? c.language), issuesAt, issuesInContexts,
    issuesInContexts, List.append_nil, List.filter_append]
  exact congrArg (· ++ _) hduplicate

theorem all_isAboutLanguage (c : Catalog) :
    (languageIssues c).all (·.kind.isAboutLanguage) = true := by
  rw [languageIssues]
  split
  · rfl
  · split <;> rfl

theorem filter_isDuplicateContext_languageIssues (c : Catalog) :
    (languageIssues c).filter isDuplicateContext = [] := by
  rw [List.filter_eq_nil_iff]
  intro i hi hduplicate
  have hkind := List.all_eq_true.mp (all_isAboutLanguage c) i hi
  rw [of_decide_eq_true hduplicate] at hkind
  cases hkind

/-- A context is reported as a duplicate exactly if an earlier one has its name, and a live message
exactly if an earlier live one of the same context has its source text and its comment, an absent
comment being an empty one. A message is live if its translation is finished or unfinished. So there
are as many duplicates of contexts as contexts more than names, and at each position as many
duplicates of messages as live messages more than keys. -/
theorem duplicates_exact (c : Catalog) :
    issues c = languageIssues c ++ (List.finRange c.contexts.length).flatMap (issuesAt c)
      ∧ (languageIssues c).all (·.kind.isAboutLanguage) = true
      ∧ (issues c).countP isDuplicateContext + (c.contexts.map (·.name)).toFinset.card
        = c.contexts.length
      ∧ (∀ i : Fin c.contexts.length,
          (issuesAt c i).filter isDuplicateContext
              = (if c.contexts[i].name ∈ (c.contexts.take i).map (·.name)
                  then [duplicateContext c.contexts[i]] else [])
            ∧ (issuesAt c i).filter isDuplicateMessage
              = (repeated messageKey c.contexts[i].live).map
                  (duplicateMessage c.contexts[i].name)
            ∧ (issuesAt c i).countP isDuplicateMessage
                + (c.contexts[i].live.map messageKey).toFinset.card
              = c.contexts[i].live.length)
      ∧ (∀ m : Message, messageKey m = (m.source, m.comment.getD "")
          ∧ messageKey { m with comment := none } = messageKey { m with comment := some "" })
      ∧ ∀ k : Context,
        k.live = k.messages.filter fun m ↦ m.status = .finished ∨ m.status = .unfinished := by
  refine ⟨issues_eq_flatMap_issuesAt c, all_isAboutLanguage c, ?contexts,
    fun i ↦ ⟨?context, ?messages, ?count⟩, fun m ↦ ⟨rfl, rfl⟩, Context.live_eq_filter⟩
  case contexts =>
    rw [issues, List.countP_eq_length_filter, List.filter_append,
      filter_isDuplicateContext_languageIssues, List.nil_append, filter_isDuplicateContext,
      List.length_map]
    exact length_repeated (·.name) c.contexts
  case context => exact filter_isDuplicateContext_singleton _ _ _
  case messages => exact filter_isDuplicateMessage_issuesAt c i
  case count =>
    rw [List.countP_eq_length_filter, filter_isDuplicateMessage_issuesAt, List.length_map]
    exact length_repeated messageKey c.contexts[i].live

/-- The third message is the only one to come again: one that is no longer used does not count. -/
example :
    (repeated messageKey (Context.live { messages := [
      { source := "Open", translation := ⟨.obsolete, .single ""⟩ },
      { source := "Open", comment := some "" },
      { source := "Open", extraComment := some "again" },
      { source := "Open", comment := some "a door" }] })).map (·.extraComment)
        = [some "again"] := by
  decide

end MessageCatalog.Integrity
