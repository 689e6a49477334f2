import Mathlib.Data.List.Basic
import MessageCatalog.Proofs.Lookup.Sound

/-!
# Only what is live counts

What the check of a catalog reports, and the table that is built from a catalog, depend on its live
view alone. Messages that are no longer used leave no trace: not among the keys that were seen, not
in what is found first, not in a count.

## One run instead of two

Two catalogs with one view may differ wherever the view does not look, so that their checks cannot
be followed side by side. But a view can itself be made a catalog again, the *bare* one with the
live messages and nothing else. The check and the table are therefore followed once, from a catalog
to its own bare one, which two catalogs with one view share.
-/

namespace MessageCatalog

open Integrity Lookup

/-! ## Bare catalogs -/

/-- The message of which nothing else is known. -/
def LiveMessage.bare (m : LiveMessage) : Message where
  source := m.source
  comment := some m.comment
  numerus := m.numerus
  translation := m.translation

def LiveContext.bare (k : LiveContext) : Context where
  name := k.name
  messages := k.messages.map LiveMessage.bare

def LiveView.bare (v : LiveView) : Catalog where
  language := v.language
  contexts := v.contexts.map LiveContext.bare

@[simp] theorem live_bare_liveView (k : Context) :
    k.liveView.bare.live = k.live.map fun m ↦ m.liveView.bare := by
  have hmessages : k.liveView.bare.messages = k.live.map fun m ↦ m.liveView.bare :=
    List.map_map
  rw [Context.live, hmessages, List.filter_eq_self]
  intro m hm
  obtain ⟨m', hm', rfl⟩ := List.mem_map.mp hm
  -- the status is a part of the view
  exact (List.mem_filter.mp hm').2

@[simp] theorem contexts_bare_liveView (c : Catalog) :
    c.liveView.bare.contexts = c.contexts.map fun k ↦ k.liveView.bare :=
  List.map_map

/-! ## The check -/

theorem issuesInMessages_bare (rules : Option Plural.RuleSet) (context : String)
    (messages : List Message) : ∀ seen : List (String × String),
    issuesInMessages rules context seen (messages.map fun m ↦ m.liveView.bare)
      = issuesInMessages rules context seen messages := by
  induction messages with
  | nil =>
    intro seen
    rfl
  | cons m rest ih =>
    intro seen
    have hkey : messageKey m.liveView.bare = messageKey m := rfl
    have hissues : messageIssues rules m.liveView.bare = messageIssues rules m := rfl
    have hsource : m.liveView.bare.source = m.source := rfl
    rw [List.map_cons, issuesInMessages, issuesInMessages, hkey, hissues, hsource, ih]

theorem issuesInContexts_bare (rules : Option Plural.RuleSet) (contexts : List Context) :
    ∀ seen : List String,
    issuesInContexts rules seen (contexts.map fun k ↦ k.liveView.bare)
      = issuesInContexts rules seen contexts := by
  induction contexts with
  | nil =>
    intro seen
    rfl
  | cons k rest ih =>
    intro seen
    have hname : k.liveView.bare.name = k.name := rfl
    have hlive := live_bare_liveView k
    unfold Context.live at hlive
    rw [List.map_cons, issuesInContexts, issuesInContexts, hname, hlive, issuesInMessages_bare, ih]

@[simp] theorem issues_bare (c : Catalog) : issues c.liveView.bare = issues c := by
  have hlanguage : c.liveView.bare.language = c.language := rfl
  rw [issues, issues, languageIssues, languageIssues, hlanguage, contexts_bare_liveView,
    issuesInContexts_bare]

/-! ## The table -/

variable (includeUnfinished : Bool)

@[simp] theorem filter_isUsable_live (k : Context) :
    k.live.filter (isUsable includeUnfinished)
      = k.messages.filter (isUsable includeUnfinished) := by
  rw [Context.live, List.filter_filter]
  refine List.filter_congr fun m _ ↦ ?_
  by_cases husable : isUsable includeUnfinished m = true
  · rw [husable, Message.isLive_iff.mpr (status_of_isUsable husable), Bool.and_self]
  · rw [Bool.not_eq_true] at husable
    rw [husable, Bool.false_and]

theorem usable_eq_flatMap_live (c : Catalog) :
    Table.usable includeUnfinished c
      = c.contexts.flatMap fun k ↦
          (k.live.filter (isUsable includeUnfinished)).map fun m ↦ (k.name, m) := by
  rw [Table.usable, Catalog.messages, List.filter_flatMap]
  refine List.flatMap_congr fun k _ ↦ ?_
  rw [filter_isUsable_live, List.filter_map]
  rfl

theorem usable_bare (c : Catalog) :
    Table.usable includeUnfinished c.liveView.bare
      = (Table.usable includeUnfinished c).map fun (context, m) ↦ (context, m.liveView.bare) := by
  rw [usable_eq_flatMap_live, usable_eq_flatMap_live, contexts_bare_liveView, List.flatMap_map,
    List.map_flatMap]
  refine List.flatMap_congr fun k _ ↦ ?_
  rw [live_bare_liveView, List.filter_map, List.map_map, List.map_map]
  rfl

@[simp] theorem ofCatalog_bare (c : Catalog) :
    Table.ofCatalog c.liveView.bare includeUnfinished = Table.ofCatalog c includeUnfinished := by
  rw [Table.ofCatalog, Table.ofCatalog, usable_bare, List.foldl_map]
  rfl

/-! ## Catalogs with one live view -/

/-- Catalogs with one live view are checked alike and translate alike, whatever else they hold. -/
theorem alike_of_liveView_eq {c d : Catalog} (h : c.liveView = d.liveView) :
    issues c = issues d ∧ ∀ includeUnfinished,
      (Table.ofCatalog c includeUnfinished).size = (Table.ofCatalog d includeUnfinished).size
        ∧ ∀ q, (Table.ofCatalog c includeUnfinished).translate? q
            = (Table.ofCatalog d includeUnfinished).translate? q := by
  constructor
  · calc issues c = issues c.liveView.bare := (issues_bare c).symm
      _ = issues d.liveView.bare := by rw [h]
      _ = issues d := issues_bare d
  · intro includeUnfinished
    have htables : Table.ofCatalog c includeUnfinished = Table.ofCatalog d includeUnfinished := by
      rw [← ofCatalog_bare includeUnfinished c, h, ofCatalog_bare]
    rw [htables]
    exact ⟨rfl, fun _ ↦ rfl⟩

/-- A catalog with the live messages of `polishCatalog` and other remarks, other places, another
message that is no longer used, and an empty comment for an absent one. -/
def remarkedPolishCatalog : Catalog where
  version := some "2.1"
  language := some "pl_PL"
  sourceLanguage := some "en"
  contexts := [
    { name := "Menu", comment := some "The menu bar", messages := [
      { Message.ofTranslation "Open" ⟨.finished, .single "Otwórz"⟩ with comment := some "" },
      { source := "Open", translation := ⟨.vanished, .single ""⟩ }] },
    { name := "Status", messages := [
      { polishFiles with
        id := some "files"
        locations := [⟨some "status.cpp", some "12"⟩]
        oldSource := some "%n files" }] }]

theorem alike_of_liveView_eq_polish :
    (polishCatalog.liveView = remarkedPolishCatalog.liveView
        ∧ polishCatalog ≠ remarkedPolishCatalog)
      ∧ issues polishCatalog = issues remarkedPolishCatalog
      ∧ (Table.ofCatalog polishCatalog true).translate? ⟨"Status", "%n file(s)", "", some 5⟩
        = (Table.ofCatalog remarkedPolishCatalog true).translate?
            ⟨"Status", "%n file(s)", "", some 5⟩ := by
  have hview : polishCatalog.liveView = remarkedPolishCatalog.liveView := by decide
  have hdiffer : polishCatalog ≠ remarkedPolishCatalog := by decide
  obtain ⟨hissues, htables⟩ := alike_of_liveView_eq hview
  exact ⟨⟨hview, hdiffer⟩, hissues, (htables true).2 _⟩

end MessageCatalog
