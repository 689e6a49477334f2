import Mathlib.Data.Finset.Card
import MessageCatalog.Proofs.Index
import MessageCatalog.Proofs.Lookup.Sound

/-!
# What a table holds

A table counts its entries as they are added, and keeps them in groups. Count and groups agree after
every message: a message whose key is taken changes neither, and any other one adds one entry and
one to the count. An entry is taken for a message exactly if its key is stored, so the keys that are
stored are distinct, and they are the keys of the usable messages of the catalog.

What is stored in a table is told as one list, with the context and the source text of each entry.
Since no context and no source text stands twice, it holds exactly what can be looked up.
-/

namespace MessageCatalog.Lookup

open Plural

namespace Table

/-! ## Stored entries -/

/-- The entries that a context has, each with its context and its source text. -/
def storedIn (k : String × Index (List Entry)) : List (String × String × Entry) :=
  k.2.flatMap fun s ↦ s.2.map fun e ↦ (k.1, s.1, e)

/-- The entries of a table, each with its context and its source text. -/
def stored (t : Table) : List (String × String × Entry) :=
  t.entries.flatMap storedIn

def storedKey (x : String × String × Entry) : String × String × String :=
  (x.1, x.2.1, x.2.2.comment)

def keyOf (x : String × Message) : String × String × String :=
  (x.1, x.2.source, x.2.commentKey)

/-- The groups of a table are kept in order: what is stored can be looked up, no key is stored
twice, what is stored is counted, and it has text. -/
structure IsOrderly (t : Table) : Prop where
  contexts_nodup : (t.entries.map (·.1)).Nodup
  sources_nodup : ∀ k ∈ t.entries, (k.2.map (·.1)).Nodup
  keys_nodup : (t.stored.map storedKey).Nodup
  size_eq : t.size = t.stored.length
  has_text : ∀ x ∈ t.stored, ∃ form ∈ x.2.2.forms, form ≠ ""

section

variable {t : Table}

/-- A group that is not empty is the value of its source text in the value of its context. -/
theorem group_cases (t : Table) (context source : String) :
    t.group context source = []
      ∨ ∃ sources, (context, sources) ∈ t.entries
        ∧ (source, t.group context source) ∈ sources := by
  rw [group]
  cases hgroup : (t.entries.get? context).bind fun sources ↦ sources.get? source with
  | none => exact .inl rfl
  | some entries =>
    obtain ⟨sources, hcontext, hsource⟩ := Option.bind_eq_some_iff.mp hgroup
    exact .inr ⟨sources, Index.mem_of_get? hcontext, Index.mem_of_get? hsource⟩

theorem IsOrderly.mem_stored_iff (h : t.IsOrderly) {context source : String} {e : Entry} :
    (context, source, e) ∈ t.stored ↔ e ∈ t.group context source := by
  constructor
  · intro hmem
    obtain ⟨⟨k, sources⟩, hk, hmem⟩ := List.mem_flatMap.mp hmem
    obtain ⟨⟨s, entries⟩, hs, hmem⟩ := List.mem_flatMap.mp hmem
    obtain ⟨e', he, heq⟩ := List.mem_map.mp hmem
    rw [Prod.mk.injEq, Prod.mk.injEq] at heq
    obtain ⟨rfl, rfl, rfl⟩ := heq
    rw [group, Index.get?_of_mem h.contexts_nodup hk, Option.bind_some,
      Index.get?_of_mem (h.sources_nodup _ hk) hs]
    exact he
  · intro hmem
    obtain hempty | ⟨sources, hcontext, hsource⟩ := t.group_cases context source
    · rw [hempty] at hmem
      cases hmem
    · refine List.mem_flatMap.mpr ⟨_, hcontext, List.mem_flatMap.mpr ⟨_, hsource, ?_⟩⟩
      exact List.mem_map.mpr ⟨e, hmem, rfl⟩

theorem IsOrderly.mem_keys_iff (h : t.IsOrderly) (context source comment : String) :
    (context, source, comment) ∈ t.stored.map storedKey
      ↔ (t.find? context source comment).isSome := by
  rw [find?, List.find?_isSome, List.mem_map]
  constructor
  · rintro ⟨⟨k, s, e⟩, hmem, heq⟩
    rw [storedKey, Prod.mk.injEq, Prod.mk.injEq] at heq
    obtain ⟨rfl, rfl, rfl⟩ := heq
    exact ⟨e, h.mem_stored_iff.mp hmem, decide_eq_true rfl⟩
  · rintro ⟨e, hmem, hcomment⟩
    refine ⟨(context, source, e), h.mem_stored_iff.mpr hmem, ?_⟩
    rw [storedKey, of_decide_eq_true hcomment]

theorem IsOrderly.nodup_comments (h : t.IsOrderly) (context source : String) :
    ((t.group context source).map (·.comment)).Nodup := by
  obtain hempty | ⟨sources, hcontext, hsource⟩ := t.group_cases context source
  · rw [hempty]
    exact List.nodup_nil
  · have hkeys := h.keys_nodup
    rw [stored, List.map_flatMap, List.nodup_flatMap] at hkeys
    have hkeysOfContext := hkeys.1 _ hcontext
    rw [storedIn, List.map_flatMap, List.nodup_flatMap] at hkeysOfContext
    have hkeysOfSource := hkeysOfContext.1 _ hsource
    rw [List.map_map] at hkeysOfSource
    refine List.Nodup.of_map (fun comment ↦ (context, source, comment)) ?_
    rwa [List.map_map]

/-! ## Adding a message -/

theorem entries_add {context : String} {m : Message} (h : t.holds context m = false) :
    (t.add context m).entries = t.entries.update []
      (Index.update [] (· ++ [Entry.ofMessage m]) m.source) context := by
  rw [add, if_neg (Bool.eq_false_iff.mp h)]

theorem size_add {context : String} {m : Message} (h : t.holds context m = false) :
    (t.add context m).size = t.size + 1 := by
  rw [add, if_neg (Bool.eq_false_iff.mp h)]

/-- A message whose key is new adds its entry to what is stored. -/
theorem stored_add_perm {context : String} {m : Message} (h : t.holds context m = false) :
    (t.add context m).stored.Perm ((context, m.source, Entry.ofMessage m) :: t.stored) := by
  rw [stored, entries_add h]
  refine Index.flatMap_update_perm rfl (fun sources ↦ ?_) t.entries
  refine Index.flatMap_update_perm rfl (fun entries ↦ ?_) sources
  rw [List.map_append]
  exact List.perm_append_singleton _ _

theorem IsOrderly.add (h : t.IsOrderly) (context : String) {m : Message}
    (hm : m.translation.wording.isEmpty = false) : (t.add context m).IsOrderly := by
  cases hheld : t.holds context m with
  | true =>
    rw [Table.add, if_pos hheld]
    exact h
  | false =>
    have hperm := stored_add_perm hheld
    have hnew : (context, m.source, m.commentKey) ∉ t.stored.map storedKey := by
      rw [h.mem_keys_iff]
      exact Bool.eq_false_iff.mp hheld
    constructor
    case contexts_nodup =>
      rw [entries_add hheld]
      exact Index.nodup_keys_update h.contexts_nodup _ _ _
    case sources_nodup =>
      rw [entries_add hheld]
      refine Index.forall_mem_update (p := fun sources : Index (List Entry) ↦
        (sources.map (·.1)).Nodup) ?first (fun sources hsources ↦ ?next) h.sources_nodup
      case first => exact List.nodup_singleton _
      case next => exact Index.nodup_keys_update hsources _ _ _
    case keys_nodup =>
      rw [(hperm.map storedKey).nodup_iff]
      exact List.nodup_cons.mpr ⟨hnew, h.keys_nodup⟩
    case size_eq =>
      rw [size_add hheld, hperm.length_eq, List.length_cons, h.size_eq]
    case has_text =>
      intro x hx
      rcases List.mem_cons.mp (hperm.mem_iff.mp hx) with rfl | hx
      · exact isEmpty_eq_false_iff.mp hm
      · exact h.has_text x hx

/-- Adding messages with text, one after another, keeps a table in order. -/
theorem IsOrderly.foldl_add {messages : List (String × Message)} (h : t.IsOrderly)
    (htexts : ∀ x ∈ messages, x.2.translation.wording.isEmpty = false) :
    (messages.foldl (fun t (context, m) ↦ t.add context m) t).IsOrderly := by
  induction messages generalizing t with
  | nil => exact h
  | cons x rest ih =>
    obtain ⟨hx, hrest⟩ := List.forall_mem_cons.mp htexts
    exact ih (h.add x.1 hx) hrest

end

/-! ## The table of a catalog -/

theorem isOrderly_empty (language : Option String) : (empty language).IsOrderly where
  contexts_nodup := List.nodup_nil
  sources_nodup := fun _ h ↦ absurd h List.not_mem_nil
  keys_nodup := List.nodup_nil
  size_eq := rfl
  has_text := fun _ h ↦ absurd h List.not_mem_nil

variable (c : Catalog) (includeUnfinished : Bool)

theorem isOrderly_ofCatalog : (ofCatalog c includeUnfinished).IsOrderly :=
  (isOrderly_empty c.language).foldl_add fun _ hx ↦
    isEmpty_of_isUsable (List.mem_filter.mp hx).2

theorem mem_keys_ofCatalog_iff (key : String × String × String) :
    key ∈ (ofCatalog c includeUnfinished).stored.map storedKey
      ↔ key ∈ (usable includeUnfinished c).map keyOf := by
  obtain ⟨context, source, comment⟩ := key
  rw [(isOrderly_ofCatalog c includeUnfinished).mem_keys_iff, find?_ofCatalog, Option.isSome_map,
    firstUsable?, ← find?_usable, Option.isSome_map, List.find?_isSome, List.mem_map]
  refine exists_congr fun x ↦ and_congr_right' ?_
  rw [hasKey_iff, keyOf, Prod.mk.injEq, Prod.mk.injEq]

theorem size_ofCatalog :
    (ofCatalog c includeUnfinished).size
      = ((usable includeUnfinished c).map keyOf).toFinset.card := by
  have horderly := isOrderly_ofCatalog c includeUnfinished
  have hkeys : ((ofCatalog c includeUnfinished).stored.map storedKey).toFinset
      = ((usable includeUnfinished c).map keyOf).toFinset := by
    ext key
    rw [List.mem_toFinset, List.mem_toFinset, mem_keys_ofCatalog_iff]
  rw [horderly.size_eq, ← hkeys, List.toFinset_card_of_nodup horderly.keys_nodup, List.length_map]

theorem isEmpty_ofCatalog_iff :
    (ofCatalog c includeUnfinished).isEmpty = true
      ↔ ∀ x ∈ c.messages, isUsable includeUnfinished x.2 = false := by
  rw [isEmpty, decide_eq_true_eq, size_ofCatalog, Finset.card_eq_zero, List.toFinset_eq_empty_iff,
    List.map_eq_nil_iff, usable, List.filter_eq_nil_iff]
  simp only [Bool.not_eq_true]

end Table

/-- A table of a catalog has one entry for each key of a usable message, and has counted them. No
group has two entries with one comment, each entry has a form with text, and all that is stored can
be looked up. A table is empty exactly if no message is usable. -/
theorem inventory_ofCatalog (c : Catalog) (includeUnfinished : Bool) :
    let t := Table.ofCatalog c includeUnfinished
    t.size = ((Table.usable includeUnfinished c).map Table.keyOf).toFinset.card
      ∧ t.size = t.stored.length
      ∧ (∀ context source e, (context, source, e) ∈ t.stored ↔ e ∈ t.group context source)
      ∧ (∀ context source, ((t.group context source).map (·.comment)).Nodup)
      ∧ (∀ x ∈ t.stored, ∃ form ∈ x.2.2.forms, form ≠ "")
      ∧ (t.isEmpty = true ↔ ∀ x ∈ c.messages, isUsable includeUnfinished x.2 = false) := by
  have horderly := Table.isOrderly_ofCatalog c includeUnfinished
  refine ⟨Table.size_ofCatalog c includeUnfinished, horderly.size_eq, ?_, ?_, horderly.has_text,
    Table.isEmpty_ofCatalog_iff c includeUnfinished⟩
  · exact fun context source e ↦ horderly.mem_stored_iff
  · exact horderly.nodup_comments

/-- A catalog whose first and last context have one name and one key, and with a message that is not
finished. -/
def scatteredCatalog : Catalog where
  contexts := [
    { name := "Menu", messages := [
      .ofTranslation "Open" ⟨.finished, .single "Otwórz"⟩,
      { source := "Open", comment := some "door",
        translation := ⟨.unfinished, .single "Uchyl"⟩ }] },
    { name := "Status", messages := [.ofTranslation "Open" ⟨.finished, .single "Otwarte"⟩] },
    { name := "Menu", messages := [
      { source := "Open", comment := some "", translation := ⟨.finished, .single "Otwarcie"⟩ },
      .ofTranslation "Close" ⟨.finished, .plural ["", ""]⟩] }]

theorem inventory_ofCatalog_scattered :
    (Table.ofCatalog scatteredCatalog true).size = 3
      ∧ (Table.ofCatalog scatteredCatalog false).size = 2
      ∧ ("Menu", "Open", Entry.mk "door" false ["Uchyl"])
        ∈ (Table.ofCatalog scatteredCatalog true).stored
      ∧ ∃ form ∈ (Entry.mk "door" false ["Uchyl"]).forms, form ≠ "" := by
  obtain ⟨hsize, -, hstored, -, htext, -⟩ := inventory_ofCatalog scatteredCatalog true
  have hmem : ("Menu", "Open", Entry.mk "door" false ["Uchyl"])
      ∈ (Table.ofCatalog scatteredCatalog true).stored := by
    rw [hstored]
    decide +kernel
  refine ⟨hsize.trans ?_, (inventory_ofCatalog scatteredCatalog false).1.trans ?_, hmem,
    htext _ hmem⟩
  · decide +kernel
  · decide +kernel

end MessageCatalog.Lookup
