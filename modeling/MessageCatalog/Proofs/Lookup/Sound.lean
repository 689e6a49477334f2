import Mathlib.Data.List.Nodup
import MessageCatalog.Proofs.Integrity.Verdict
import MessageCatalog.Proofs.Lookup.FirstMatch
import MessageCatalog.Proofs.Plural.Forms

/-!
# Sound catalogs translate

A program that asks for a finished message of a sound catalog gets a text, and a text of that very
message.

Two things might come in between. Another message might be found first: but a message that a table
holds is live, the names of contexts are distinct, and so are the keys of the live messages of one
context, so that a key belongs to one message in all of the catalog. Or the index that the count
selects might lie outside the forms: but a message has as many forms as its language, or more, and
`RuleSet.select` stays below the number of forms of the language.
-/

namespace MessageCatalog.Lookup

open Integrity Plural

/-! ## The message with a key -/

@[simp] theorem mem_messages {c : Catalog} {x : String × Message} :
    x ∈ c.messages ↔ ∃ k ∈ c.contexts, x.2 ∈ k.messages ∧ k.name = x.1 := by
  obtain ⟨context, m⟩ := x
  rw [Catalog.messages, List.mem_flatMap]
  refine exists_congr fun k ↦ and_congr_right' ?_
  rw [List.mem_map]
  constructor
  · rintro ⟨m', hm', heq⟩
    cases heq
    exact ⟨hm', rfl⟩
  · rintro ⟨hm, rfl⟩
    exact ⟨m, hm, rfl⟩

theorem status_of_isUsable {includeUnfinished : Bool} {m : Message}
    (h : isUsable includeUnfinished m = true) :
    m.status = .finished ∨ m.status = .unfinished := by
  simp only [isUsable, Bool.and_eq_true, Bool.or_eq_true, decide_eq_true_eq] at h
  exact h.1.imp_right And.right

theorem isEmpty_of_isUsable {includeUnfinished : Bool} {m : Message}
    (h : isUsable includeUnfinished m = true) : m.translation.wording.isEmpty = false := by
  simp only [isUsable, Bool.and_eq_true, Bool.not_eq_true'] at h
  exact h.2

theorem isEmpty_eq_false_iff {m : Message} :
    m.translation.wording.isEmpty = false ↔ ∃ form ∈ m.forms, form ≠ "" := by
  rw [Wording.isEmpty, List.all_eq_false]
  simp only [String.isEmpty_iff]
  rfl

theorem isUsable_of_finished {includeUnfinished : Bool} {m : Message} {form : String}
    (hstatus : m.status = .finished) (hmem : form ∈ m.forms) (hform : form ≠ "") :
    isUsable includeUnfinished m = true := by
  rw [isUsable, hstatus, decide_eq_true rfl, Bool.true_or, Bool.true_and, Bool.not_eq_true',
    isEmpty_eq_false_iff]
  exact ⟨form, hmem, hform⟩

variable {c : Catalog} {includeUnfinished : Bool}

/-- In a sound catalog a key belongs to one live message at most. -/
theorem eq_of_hasKey (h : IsSound c) {k : Context} (hk : k ∈ c.contexts) {m : Message}
    (hm : m ∈ k.live) {x : String × Message} (hx : x ∈ c.messages)
    (husable : isUsable includeUnfinished x.2 = true)
    (hkey : hasKey k.name m.source m.commentKey x = true) : x.2 = m := by
  obtain ⟨hname, hsource, hcomment⟩ := hasKey_iff.mp hkey
  obtain ⟨k', hk', hmem, hname'⟩ := mem_messages.mp hx
  have hcontext : k' = k :=
    List.inj_on_of_nodup_map h.names_distinct hk' hk (hname'.trans hname)
  have hlive : x.2 ∈ k.live :=
    Context.mem_live_iff.mpr ⟨hcontext ▸ hmem, status_of_isUsable husable⟩
  exact List.inj_on_of_nodup_map (h.nodup_keys hk) hlive hm (Prod.ext hsource hcomment)

theorem firstUsable?_eq_some (h : IsSound c) {k : Context} (hk : k ∈ c.contexts) {m : Message}
    (hm : m ∈ k.messages) (husable : isUsable includeUnfinished m = true) :
    firstUsable? c includeUnfinished k.name m.source m.commentKey = some m := by
  have hx : (k.name, m) ∈ c.messages := mem_messages.mpr ⟨k, hk, hm, rfl⟩
  have hfits : (isUsable includeUnfinished m && hasKey k.name m.source m.commentKey (k.name, m))
      = true :=
    Bool.and_eq_true_iff.mpr ⟨husable, hasKey_iff.mpr ⟨rfl, rfl, rfl⟩⟩
  have hlive : m ∈ k.live := Context.mem_live_iff.mpr ⟨hm, status_of_isUsable husable⟩
  rw [firstUsable?]
  rcases hfind : c.messages.find? _ with - | x
  · exact absurd hfits (List.find?_eq_none.mp hfind (k.name, m) hx)
  · have hfound := List.find?_some hfind
    obtain ⟨husable', hkey⟩ := Bool.and_eq_true_iff.mp hfound
    rw [Option.map_some, eq_of_hasKey h hk hlive (List.mem_of_find?_eq_some hfind) husable' hkey]

theorem answering?_of_firstUsable? {q : Query} {m : Message}
    (h : firstUsable? c includeUnfinished q.context q.source q.comment = some m) :
    answering? c includeUnfinished q = some m := by
  rw [answering?, h, Option.some_or]

/-! ## The form of a message -/

theorem translate?_eq_bind_answering? (c : Catalog) (includeUnfinished : Bool) (q : Query) :
    (Table.ofCatalog c includeUnfinished).translate? q
      = (answering? c includeUnfinished q).bind fun m ↦
          Table.formAt? (Entry.ofMessage m)
            (formIndexOf (RuleSet.ofLanguage? c.language) m q.count) := by
  rw [Table.translate?, Table.answer?_ofCatalog, Option.bind_map]
  refine congrArg _ (funext fun m ↦ ?_)
  rw [Function.comp_apply, Table.formIndex_ofMessage, Table.rules_ofCatalog]

/-- The form that a count selects is the translation, if there is such a form and it has text. -/
theorem translate?_eq_filter {q : Query} {m : Message} {form : String}
    (hanswer : answering? c includeUnfinished q = some m)
    (hindex : m.forms[formIndexOf (RuleSet.ofLanguage? c.language) m q.count]? = some form) :
    (Table.ofCatalog c includeUnfinished).translate? q = (some form).filter (· ≠ "") := by
  have hforms : (Entry.ofMessage m).forms = m.forms := rfl
  rw [translate?_eq_bind_answering?, hanswer, Option.bind_some, Table.formAt?, hforms, hindex,
    Option.some_or]

theorem translate?_of_answering? {q : Query} {m : Message} {form : String}
    (hanswer : answering? c includeUnfinished q = some m)
    (hindex : m.forms[formIndexOf (RuleSet.ofLanguage? c.language) m q.count]? = some form)
    (hform : form ≠ "") : (Table.ofCatalog c includeUnfinished).translate? q = some form := by
  rw [translate?_eq_filter hanswer hindex]
  exact Option.filter_some_pos (decide_eq_true hform)

theorem formIndexOf_lt {rules : Option RuleSet} {m : Message}
    (hsound : IsSoundMessage rules m) (hne : m.forms ≠ []) (hrules : ∀ r ∈ rules, r.forms ≠ [])
    (count : Option Nat) : formIndexOf rules m count < m.forms.length := by
  unfold formIndexOf
  split
  · next count r hnumerus =>
    have hlt : r.select count < r.formCount := RuleSet.select_lt (hrules r rfl) count
    have hle : r.formCount ≤ r.categoryCount := r.formCount_le_categoryCount
    rcases hsound.form_count hnumerus r rfl with hlength | hlength
    · rw [hlength]
      exact hlt
    · rw [hlength]
      omega
  · exact List.length_pos_iff.mpr hne

/-- In a catalog without errors every finished message is translated by the form that the count
selects, whether or not unfinished translations are wanted, and that form has text. -/
theorem translate_finished (h : hasErrors (issues c) = false) {k : Context} (hk : k ∈ c.contexts)
    {m : Message} (hm : m ∈ k.messages) (hfinished : m.status = .finished)
    (includeUnfinished : Bool) (count : Option Nat) :
    formIndexOf (RuleSet.ofLanguage? c.language) m count < m.forms.length
      ∧ ∃ form, form ≠ ""
        ∧ m.forms[formIndexOf (RuleSet.ofLanguage? c.language) m count]? = some form
        ∧ (Table.ofCatalog c includeUnfinished).translate? ⟨k.name, m.source, m.commentKey, count⟩
          = some form := by
  have hcatalog : IsSound c := (hasErrors_issues_eq_false_iff c).mp h
  have hmessage := hcatalog.messages k hk m hm (.inl hfinished)
  obtain ⟨hne, htexts⟩ := hmessage.has_forms hfinished
  have hrules : ∀ r ∈ RuleSet.ofLanguage? c.language, r.forms ≠ [] := by
    intro r hr
    obtain ⟨locale, -, hlocale⟩ := RuleSet.ofLanguage?_eq_some hr
    exact (RuleSet.ofLocale_eq_ok hlocale).2
  have hindex := formIndexOf_lt hmessage hne hrules count
  have hform := htexts _ (List.getElem_mem hindex)
  have husable : isUsable includeUnfinished m = true :=
    isUsable_of_finished hfinished (List.getElem_mem hindex) hform
  refine ⟨hindex, _, hform, List.getElem?_eq_getElem hindex, ?_⟩
  refine translate?_of_answering? (q := ⟨k.name, m.source, m.commentKey, count⟩)
    (answering?_of_firstUsable? (firstUsable?_eq_some hcatalog hk hm husable)) ?_ hform
  exact List.getElem?_eq_getElem hindex

/-- A message with a form for each of the four categories of Polish. -/
def polishFiles : Message where
  source := "%n file(s)"
  numerus := true
  translation := ⟨.finished, .plural ["%n plik", "%n pliki", "%n plików", "%n pliku"]⟩

/-- A catalog with that message, and an obsolete one of the same key before it. -/
def polishCatalog : Catalog where
  language := some "pl_PL"
  contexts := [
    { name := "Menu", messages := [.ofTranslation "Open" ⟨.finished, .single "Otwórz"⟩] },
    { name := "Status", messages := [
      { source := "%n file(s)", translation := ⟨.obsolete, .single ""⟩ }, polishFiles] }]

theorem translate_finished_polish :
    (hasErrors (issues polishCatalog) = false ∧ polishFiles.status = .finished)
      ∧ (Table.ofCatalog polishCatalog true).translate? ⟨"Status", "%n file(s)", "", some 22⟩
        = some "%n pliki" := by
  have hsound : hasErrors (issues polishCatalog) = false := by decide +kernel
  obtain ⟨-, form, -, hform, htranslate⟩ := translate_finished hsound
    (List.mem_cons_of_mem _ List.mem_cons_self) (List.mem_cons_of_mem _ List.mem_cons_self)
    (rfl : polishFiles.status = .finished) true (some 22)
  have hpliki : some "%n pliki" = some form := hform
  exact ⟨⟨hsound, rfl⟩, htranslate.trans hpliki.symm⟩

end MessageCatalog.Lookup
