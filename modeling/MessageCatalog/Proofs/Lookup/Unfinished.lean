import MessageCatalog.Proofs.Lookup.Sound

/-!
# Looking up unfinished translations

A table that takes unfinished translations has all entries of one that does not, and more. In a
catalog without errors none of the others has the key of an entry that was there, so a query that
was answered by the entry for its own key is answered by it still.

A query for a comment that was answered without the comment may now find an unfinished translation
for it. That one is shown, as far as it has come: if it has no text in the form that the count
selects, though it has some in another one, the source text is shown where there was a translation
before. There is no other way to lose one.
-/

namespace MessageCatalog.Lookup

open Integrity Plural

/-! ## The message that answers -/

theorem isUsable_true {m : Message} (h : isUsable false m = true) : isUsable true m = true := by
  rw [isUsable, Bool.false_and, Bool.or_false, Bool.and_eq_true] at h
  rw [isUsable, h.1, h.2, Bool.true_or, Bool.true_and]

theorem status_of_isUsable_true {m : Message} (h : isUsable true m = true)
    (hfalse : isUsable false m = false) : m.status = .unfinished := by
  rw [isUsable, Bool.true_and, Bool.and_eq_true, Bool.or_eq_true, decide_eq_true_eq,
    decide_eq_true_eq] at h
  obtain ⟨hstatus | hstatus, htext⟩ := h
  · rw [isUsable, hstatus, htext] at hfalse
    cases hfalse
  · exact hstatus

variable {c : Catalog} {includeUnfinished : Bool} {q : Query}

theorem exists_of_firstUsable? {context source comment : String} {m : Message}
    (h : firstUsable? c includeUnfinished context source comment = some m) :
    ∃ k ∈ c.contexts, k.name = context ∧ m ∈ k.messages ∧ m.source = source
      ∧ m.commentKey = comment ∧ isUsable includeUnfinished m = true := by
  obtain ⟨x, hfind, rfl⟩ := Option.map_eq_some_iff.mp h
  have hfound := List.find?_some hfind
  obtain ⟨husable, hkey⟩ := Bool.and_eq_true_iff.mp hfound
  obtain ⟨hname, hsource, hcomment⟩ := hasKey_iff.mp hkey
  obtain ⟨k, hk, hmem, hk'⟩ := mem_messages.mp (List.mem_of_find?_eq_some hfind)
  exact ⟨k, hk, hk'.trans hname, hmem, hsource, hcomment, husable⟩

theorem firstUsable?_true (h : IsSound c) {context source comment : String} {m : Message}
    (hfirst : firstUsable? c false context source comment = some m) :
    firstUsable? c true context source comment = some m := by
  obtain ⟨k, hk, rfl, hm, rfl, rfl, husable⟩ := exists_of_firstUsable? hfirst
  exact firstUsable?_eq_some h hk hm (isUsable_true husable)

theorem status_of_firstUsable?_true (h : IsSound c) {context source comment : String} {m : Message}
    (hfirst : firstUsable? c true context source comment = some m)
    (hnone : firstUsable? c false context source comment = none) : m.status = .unfinished := by
  obtain ⟨k, hk, rfl, hm, rfl, rfl, husable⟩ := exists_of_firstUsable? hfirst
  refine status_of_isUsable_true husable (Bool.eq_false_iff.mpr fun hfinished ↦ ?_)
  rw [firstUsable?_eq_some h hk hm hfinished] at hnone
  cases hnone

/-- A query is answered by the message that answered it before, unless that was the message without
a comment and there is an unfinished one with the comment. -/
theorem answering?_true_cases (h : IsSound c) {m : Message}
    (hanswer : answering? c false q = some m) :
    answering? c true q = some m
      ∨ q.comment ≠ "" ∧ ∃ m', m'.status = .unfinished
        ∧ firstUsable? c true q.context q.source q.comment = some m' := by
  rcases Option.or_eq_some_iff.mp hanswer with hown | ⟨hnone, hretry⟩
  · exact Or.inl (answering?_of_firstUsable? (firstUsable?_true h hown))
  · by_cases hcomment : q.comment = ""
    · rw [if_pos hcomment] at hretry
      cases hretry
    · rw [if_neg hcomment] at hretry
      cases hfound : firstUsable? c true q.context q.source q.comment with
      | none =>
        left
        rw [answering?, hfound, Option.none_or, if_neg hcomment, firstUsable?_true h hretry]
      | some m' =>
        exact Or.inr ⟨hcomment, m', status_of_firstUsable?_true h hfound hnone, rfl⟩

/-! ## The form that is shown -/

/-- In a sound catalog nothing of the message that answers is shown exactly if the form that the
count selects is empty. -/
theorem translate?_eq_none_iff (h : IsSound c) {k : Context} (hk : k ∈ c.contexts) {m : Message}
    (hm : m ∈ k.messages) (husable : isUsable includeUnfinished m = true)
    (hanswer : answering? c includeUnfinished q = some m) :
    (Table.ofCatalog c includeUnfinished).translate? q = none
      ↔ m.forms[formIndexOf (RuleSet.ofLanguage? c.language) m q.count]? = some "" := by
  have hsound := h.messages k hk m hm (status_of_isUsable husable)
  obtain ⟨form, hform, -⟩ := isEmpty_eq_false_iff.mp (isEmpty_of_isUsable husable)
  have hindex := formIndexOf_lt hsound (List.ne_nil_of_mem hform) RuleSet.forms_ne_nil q.count
  rw [translate?_eq_filter hanswer (List.getElem?_eq_getElem hindex),
    List.getElem?_eq_getElem hindex, Option.some_inj]
  simp [Option.filter_eq_none_iff]

/-- An unfinished message with the key of a query, its comment included, that has text, but none in
the form that the count selects. -/
structure IsBlankFor (c : Catalog) (q : Query) (k : Context) (m : Message) : Prop where
  context_mem : k ∈ c.contexts
  name_eq : k.name = q.context
  message_mem : m ∈ k.messages
  source_eq : m.source = q.source
  comment_eq : m.commentKey = q.comment
  unfinished : m.status = .unfinished
  text : ∃ form ∈ m.forms, form ≠ ""
  blank : m.forms[formIndexOf (RuleSet.ofLanguage? c.language) m q.count]? = some ""

theorem IsBlankFor.isUsable {k : Context} {m : Message} (h : IsBlankFor c q k m) :
    isUsable true m = true := by
  rw [Lookup.isUsable, h.unfinished, Bool.and_eq_true, Bool.not_eq_true', isEmpty_eq_false_iff]
  exact ⟨rfl, h.text⟩

/-- In a catalog without errors, a translation that is found without unfinished ones is lost when
they are wanted as well exactly if the query has a comment for which an unfinished message has text,
but none in the form that the count selects. -/
theorem translate?_unfinished (h : hasErrors (issues c) = false) {text : String}
    (hfound : (Table.ofCatalog c false).translate? q = some text) :
    (Table.ofCatalog c true).translate? q = none
      ↔ q.comment ≠ "" ∧ ∃ k m, IsBlankFor c q k m := by
  have hsound : IsSound c := (hasErrors_issues_eq_false_iff c).mp h
  constructor
  · intro hlost
    rw [translate?_eq_bind_answering?] at hfound
    obtain ⟨m, hanswer, hform⟩ := Option.bind_eq_some_iff.mp hfound
    rcases answering?_true_cases hsound hanswer with hsame | ⟨hcomment, m', hstatus, hown⟩
    · -- the same message has the same form
      rw [translate?_eq_bind_answering?, hsame, Option.bind_some, hform] at hlost
      cases hlost
    · obtain ⟨k, hk, hname, hm, hsource, hkey, husable⟩ := exists_of_firstUsable? hown
      have hblank := (translate?_eq_none_iff hsound hk hm husable
        (answering?_of_firstUsable? hown)).mp hlost
      have htext := isEmpty_eq_false_iff.mp (isEmpty_of_isUsable husable)
      exact ⟨hcomment, k, m', hk, hname, hm, hsource, hkey, hstatus, htext, hblank⟩
  · rintro ⟨-, k, m, hblank⟩
    have hown := firstUsable?_eq_some hsound hblank.context_mem hblank.message_mem hblank.isUsable
    rw [hblank.name_eq, hblank.source_eq, hblank.comment_eq] at hown
    exact (translate?_eq_none_iff hsound hblank.context_mem hblank.message_mem hblank.isUsable
      (answering?_of_firstUsable? hown)).mpr hblank.blank

/-- A message with both forms of English. -/
def inboxMessages : Message where
  source := "%n message(s)"
  numerus := true
  translation := ⟨.finished, .plural ["%n message", "%n messages"]⟩

/-- The same message with a comment, and its translation as far as it has come. -/
def unreadMessages : Message where
  source := "%n message(s)"
  comment := some "unread"
  numerus := true
  translation := ⟨.unfinished, .plural ["", "%n unread messages"]⟩

def inboxCatalog : Catalog where
  language := some "en"
  contexts := [{ name := "Inbox", messages := [inboxMessages, unreadMessages] }]

theorem translate?_unfinished_inbox :
    (hasErrors (issues inboxCatalog) = false
        ∧ (Table.ofCatalog inboxCatalog false).translate?
            ⟨"Inbox", "%n message(s)", "unread", some 1⟩ = some "%n message")
      ∧ (Table.ofCatalog inboxCatalog true).translate?
          ⟨"Inbox", "%n message(s)", "unread", some 1⟩ = none := by
  have hsound : hasErrors (issues inboxCatalog) = false := by decide +kernel
  have hfound : (Table.ofCatalog inboxCatalog false).translate?
      ⟨"Inbox", "%n message(s)", "unread", some 1⟩ = some "%n message" := by decide
  have hlost := translate?_unfinished hsound hfound
  refine ⟨⟨hsound, hfound⟩, hlost.mpr ⟨by decide, _, unreadMessages, List.mem_cons_self, rfl,
    List.mem_cons_of_mem _ List.mem_cons_self, rfl, rfl, rfl, ?_, ?_⟩⟩
  · exact ⟨"%n unread messages", by decide, by decide⟩
  · decide

/-- Not every translation that is found without unfinished ones is found with them. -/
theorem not_translate?_unfinished_isSome :
    ¬∀ (c : Catalog) (q : Query) (text : String), hasErrors (issues c) = false →
      (Table.ofCatalog c false).translate? q = some text →
      ∃ text', (Table.ofCatalog c true).translate? q = some text' := by
  intro h
  obtain ⟨text', hfound⟩ := h inboxCatalog ⟨"Inbox", "%n message(s)", "unread", some 1⟩
    "%n message" (by decide +kernel) (by decide)
  have hlost : (Table.ofCatalog inboxCatalog true).translate?
      ⟨"Inbox", "%n message(s)", "unread", some 1⟩ = none := by decide
  rw [hlost] at hfound
  cases hfound

end MessageCatalog.Lookup
