import Mathlib.Algebra.GroupWithZero.Nat
import Mathlib.Data.List.Basic
import MessageCatalog.Progress.Counts

/-!
# The numbers of a catalog add up

What is counted does not depend on how it is grouped. Counts are added number by number, so the sums
over the contexts of a catalog are the numbers of all its messages taken at once, in whatever order:
they stay as they are when contexts change places or messages change contexts.

Whatever is true of the counts of a single message and kept by an addition is true of any counts.
So it is with the states of messages: each message is in one of them.
-/

namespace MessageCatalog.Progress

namespace Counts

/-! ## Adding counts -/

instance : Std.Associative add where
  assoc a b c := by simp only [add, Nat.add_assoc]

@[simp] theorem empty_add (c : Counts) : add {} c = c := by
  simp only [add, Nat.zero_add]

@[simp] theorem add_empty (c : Counts) : add c {} = c := by
  simp only [add, Nat.add_zero]

@[simp] theorem total_cons (c : Counts) (counts : List Counts) :
    total (c :: counts) = c.add (total counts) := by
  calc total (c :: counts) = counts.foldl add (c.add {}) := by
        rw [total, List.foldl_cons, empty_add, add_empty]
    _ = c.add (total counts) := List.foldl_assoc

def numbers : List (Counts → Nat) :=
  [messages, finished, unfinished, obsolete, numerus]

theorem forall_mem_numbers {p : (Counts → Nat) → Prop} :
    (∀ number ∈ numbers, p number)
      ↔ p messages ∧ p finished ∧ p unfinished ∧ p obsolete ∧ p numerus := by
  simp [numbers]

theorem number_total (counts : List Counts) :
    ∀ number ∈ numbers, number (total counts) = (counts.map number).sum := by
  induction counts with
  | nil => exact forall_mem_numbers.mpr ⟨rfl, rfl, rfl, rfl, rfl⟩
  | cons c rest ih =>
    have hadd : ∀ number ∈ numbers, number (c.add (total rest)) = number c + number (total rest) :=
      forall_mem_numbers.mpr ⟨rfl, rfl, rfl, rfl, rfl⟩
    intro number hnumber
    rw [total_cons, hadd number hnumber, ih number hnumber, List.map_cons, List.sum_cons]

/-! ## Counting messages -/

/-- The counts of a group of messages, each number counted for itself. -/
def tally (messages : List Message) : Counts where
  messages := messages.length
  finished := messages.countP (·.status = .finished)
  unfinished := messages.countP (·.status = .unfinished)
  obsolete := messages.countP fun m ↦ m.status = .obsolete ∨ m.status = .vanished
  numerus := messages.countP (·.numerus)

@[simp] theorem tally_singleton (m : Message) : tally [m] = ofMessage m := by
  rw [tally, ofMessage, Message.isLive]
  simp only [List.countP_singleton, List.length_singleton]
  cases m.status <;> rfl

@[simp] theorem tally_append (first others : List Message) :
    tally (first ++ others) = (tally first).add (tally others) := by
  simp only [tally, add, List.length_append, List.countP_append]

theorem ofMessages_eq_tally (messages : List Message) : ofMessages messages = tally messages := by
  induction messages with
  | nil => rfl
  | cons m rest ih =>
    rw [ofMessages, List.map_cons, total_cons, ← ofMessages, ih, ← tally_singleton, ← tally_append,
      List.singleton_append]

theorem tally_of_perm {messages messages' : List Message} (h : messages.Perm messages') :
    tally messages = tally messages' := by
  simp only [tally, h.length_eq, h.countP_eq]

/-! ## States -/

/-- Counts of messages each of which is in one state. -/
structure IsConsistent (c : Counts) : Prop where
  messages_eq : c.messages = c.finished + c.unfinished + c.obsolete
  numerus_le : c.numerus ≤ c.messages

theorem isConsistent_ofMessage (m : Message) : (ofMessage m).IsConsistent where
  messages_eq := by
    rw [ofMessage, Message.isLive]
    cases m.status <;> rfl
  numerus_le := by
    dsimp only [ofMessage]
    split <;> omega

theorem IsConsistent.add {a b : Counts} (ha : a.IsConsistent) (hb : b.IsConsistent) :
    (a.add b).IsConsistent := by
  obtain ⟨hmessages, hnumerus⟩ := ha
  obtain ⟨hmessages', hnumerus'⟩ := hb
  constructor <;> dsimp only [Counts.add] <;> omega

theorem isConsistent_tally (messages : List Message) : (tally messages).IsConsistent := by
  induction messages with
  | nil => exact ⟨rfl, Nat.le_refl _⟩
  | cons m rest ih =>
    rw [← List.singleton_append, tally_append, tally_singleton]
    exact (isConsistent_ofMessage m).add ih

@[simp] theorem live_ofMessage (m : Message) : (ofMessage m).live = if m.isLive then 1 else 0 := by
  rw [live, ofMessage, Message.isLive]
  cases m.status <;> rfl

@[simp] theorem live_add (a b : Counts) : (a.add b).live = a.live + b.live := by
  simp only [live, add]
  omega

@[simp] theorem live_tally (messages : List Message) :
    (tally messages).live = messages.countP (·.isLive) := by
  induction messages with
  | nil => rfl
  | cons m rest ih =>
    rw [← List.singleton_append, tally_append, tally_singleton, live_add, live_ofMessage, ih,
      List.countP_append, List.countP_singleton]

end Counts

/-! ## Catalogs -/

namespace Statistics

theorem contexts_ofCatalog (c : Catalog) :
    (ofCatalog c).contexts = c.contexts.map fun k ↦ (k.name, .tally k.messages) :=
  List.map_congr_left fun k _ ↦ congrArg _ (Counts.ofMessages_eq_tally k.messages)

@[simp] theorem total_map_tally (contexts : List Context) :
    Counts.total (contexts.map fun k ↦ .tally k.messages)
      = .tally (contexts.flatMap (·.messages)) := by
  induction contexts with
  | nil => rfl
  | cons k rest ih =>
    rw [List.map_cons, Counts.total_cons, ih, List.flatMap_cons, Counts.tally_append]

theorem map_messages (c : Catalog) :
    c.messages.map (·.2) = c.contexts.flatMap (·.messages) := by
  rw [Catalog.messages, List.map_flatMap]
  refine List.flatMap_congr fun k _ ↦ ?_
  rw [List.map_map]
  exact List.map_id' _

theorem totals_ofCatalog (c : Catalog) :
    (ofCatalog c).totals = .tally (c.messages.map (·.2)) := by
  have hcounts : (ofCatalog c).contexts.map (·.2) = c.contexts.map fun k ↦ .tally k.messages := by
    rw [contexts_ofCatalog, List.map_map]
    rfl
  rw [totals, hcounts, total_map_tally, map_messages]

theorem totals_of_perm {c d : Catalog} (h : (d.messages.map (·.2)).Perm (c.messages.map (·.2))) :
    (ofCatalog d).totals = (ofCatalog c).totals := by
  rw [totals_ofCatalog, totals_ofCatalog, Counts.tally_of_perm h]

theorem isConsistent_of_mem {c : Catalog} {counts : Counts}
    (h : counts ∈ (ofCatalog c).totals :: (ofCatalog c).contexts.map (·.2)) :
    counts.IsConsistent := by
  rw [totals_ofCatalog, contexts_ofCatalog, List.map_map] at h
  obtain rfl | h := List.mem_cons.mp h
  · exact Counts.isConsistent_tally _
  · obtain ⟨k, -, rfl⟩ := List.mem_map.mp h
    exact Counts.isConsistent_tally k.messages

/-- Contexts come with their names and numbers, in order, and the numbers of a catalog are the sums
of theirs and those of its messages taken together. In all of these counts each message is in one
state, and the live ones are those that are finished or unfinished. The numbers of the catalog
depend neither on the order of the contexts nor on which context a message is in. -/
theorem statistics_exact (c : Catalog) :
    let all := c.messages.map (·.2)
    let s := ofCatalog c
    s.contexts = c.contexts.map (fun k ↦ (k.name, .tally k.messages))
      ∧ s.totals = .tally all
      ∧ (∀ counts ∈ s.totals :: s.contexts.map (·.2), counts.IsConsistent)
      ∧ (∀ number ∈ Counts.numbers,
          number s.totals = (s.contexts.map fun k ↦ number k.2).sum)
      ∧ s.totals.messages = c.size
      ∧ s.totals.finished + s.totals.unfinished = all.countP (·.isLive)
      ∧ (∀ d : Catalog, d.contexts.Perm c.contexts → (ofCatalog d).totals = s.totals)
      ∧ ∀ d : Catalog, (d.messages.map (·.2)).Perm all → (ofCatalog d).totals = s.totals := by
  intro all s
  refine ⟨contexts_ofCatalog c, totals_ofCatalog c, fun counts ↦ isConsistent_of_mem, ?sums, ?size,
    ?live, ?reordered, fun d ↦ totals_of_perm⟩
  case sums =>
    intro number hnumber
    have hsum := Counts.number_total (s.contexts.map (·.2)) number hnumber
    rw [List.map_map] at hsum
    exact hsum
  case size =>
    have hlength : all.length = c.size := List.length_map _
    rw [totals_ofCatalog]
    exact hlength
  case live =>
    rw [totals_ofCatalog]
    exact Counts.live_tally all
  case reordered =>
    intro d hd
    have hmessages : (d.messages.map (·.2)).Perm (c.messages.map (·.2)) := by
      rw [map_messages, map_messages]
      exact hd.flatMap_right _
    exact totals_of_perm hmessages

/-- A catalog with a message in each state, one of which depends on a count. -/
def mixedCatalog : Catalog where
  contexts := [
    { name := "Menu", messages := [
      .ofTranslation "Open" ⟨.finished, .single "Otwórz"⟩,
      .ofTranslation "Open" ⟨.vanished, .single "Otwarcie"⟩] },
    { name := "Status", messages := [
      .ofTranslation "%n file(s)" ⟨.unfinished, .plural ["%n plik", ""]⟩,
      .ofTranslation "Ready" ⟨.obsolete, .single ""⟩] }]

/-- The messages of `mixedCatalog` in other contexts. -/
def regroupedCatalog : Catalog where
  contexts := [
    { name := "Status", messages := [.ofTranslation "Ready" ⟨.obsolete, .single ""⟩] },
    { name := "Window" },
    { name := "Menu", messages := [
      .ofTranslation "%n file(s)" ⟨.unfinished, .plural ["%n plik", ""]⟩,
      .ofTranslation "Open" ⟨.finished, .single "Otwórz"⟩,
      .ofTranslation "Open" ⟨.vanished, .single "Otwarcie"⟩] }]

theorem statistics_exact_regrouped :
    (mixedCatalog.contexts.reverse.Perm mixedCatalog.contexts
        ∧ (regroupedCatalog.messages.map (·.2)).Perm (mixedCatalog.messages.map (·.2)))
      ∧ (ofCatalog { contexts := mixedCatalog.contexts.reverse }).totals = ⟨4, 1, 1, 2, 1⟩
      ∧ (ofCatalog regroupedCatalog).totals = ⟨4, 1, 1, 2, 1⟩
      ∧ (Counts.mk 4 1 1 2 1).IsConsistent
      ∧ 2 = ((ofCatalog mixedCatalog).contexts.map fun k ↦ k.2.obsolete).sum := by
  obtain ⟨-, -, hconsistent, hsums, -, -, hreordered, hmoved⟩ := statistics_exact mixedCatalog
  have htotals : (ofCatalog mixedCatalog).totals = ⟨4, 1, 1, 2, 1⟩ := by decide
  have hreverse : mixedCatalog.contexts.reverse.Perm mixedCatalog.contexts :=
    List.reverse_perm _
  have hregrouped :
      (regroupedCatalog.messages.map (·.2)).Perm (mixedCatalog.messages.map (·.2)) := by
    decide
  rw [htotals] at hconsistent hsums hreordered hmoved
  exact ⟨⟨hreverse, hregrouped⟩, hreordered _ hreverse, hmoved _ hregrouped,
    hconsistent _ List.mem_cons_self, hsums Counts.obsolete (by simp [Counts.numbers])⟩

end Statistics

end MessageCatalog.Progress
