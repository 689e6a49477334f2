import Mathlib.Data.List.Infix
import MessageCatalog.Proofs.Catalog.Nesting
import MessageCatalog.Proofs.Catalog.Relocation

/-!
# Documents one after another

A reading that is done at the end tag of a root element has read no further, and what follows is
read from there as a document of its own, its positions further on by the width of the first
document.

The first document has to end with the `>` that ends its root element. A document may lack that `>`
at its very end, and is accepted without it; but whatever is then written after it becomes a part of
its last tag.
-/

namespace MessageCatalog

open Markup Text

/-! ## Runs in parts -/

theorem Place.rest_run_append {place next : Place} {a : List Token} (b : List Token)
    (h : (Move.go place).readAll a = .ok (.go next)) :
    (place.run (a ++ b)).rest = (next.run b).rest := by
  induction a generalizing place with
  | nil =>
    obtain rfl := Move.go.inj (Except.ok.inj h)
    rfl
  | cons token a ih =>
    rw [Move.readAll_cons, Move.read] at h
    obtain ⟨move, hmove, hrest⟩ := exists_of_bind_eq_ok h
    obtain ⟨⟨move, notices⟩, hread, rfl⟩ := exists_of_map_eq_ok hmove
    rw [List.cons_append, run, hread]
    cases move with
    | go middle => exact ih hrest
    | done c =>
      rw [Move.readAll_done] at hrest
      cases hrest

theorem Place.rest_run_cons {place : Place} {token : Token} {c : Catalog} (b : List Token)
    (h : (Move.go place).read token = .ok (.done c)) : (place.run (token :: b)).rest = b := by
  rw [Move.read] at h
  obtain ⟨⟨move, notices⟩, hread, rfl⟩ := exists_of_map_eq_ok h
  rw [run, hread]

/-- Where a reading is done, it leaves the tokens of what follows, as scanned from there. -/
theorem Cursor.IsDoneAfter.rest_run {before : List Char} {c : Catalog}
    (h : Cursor.start.IsDoneAfter before c) (after : List Char) :
    (Place.outside.run (Scanner.start.scan (before ++ '>' :: after))).rest
      = (Scanner.start.shift (byteWidth (before ++ ['>']))).scan after := by
  obtain ⟨s, place, n, hbefore, hend⟩ := h
  obtain ⟨hscanner, hmoves⟩ : (Scanner.start.read before).1 = s
      ∧ (Move.go .outside).readAll (Scanner.start.read before).2 = .ok (.go place) :=
    Cursor.eq_of_read hbefore
  obtain ⟨hlast, hdone⟩ : (s.read ['>']).1 = ⟨n, [], .between⟩
      ∧ (Move.go place).readAll (s.read ['>']).2 = .ok (.done c) := Cursor.eq_of_read hend
  -- the `>` completes exactly one token, at which the reading is done
  obtain ⟨token, htoken, hmove⟩ : ∃ token, (s.read ['>']).2 = [token]
      ∧ (Move.go place).read token = .ok (.done c) := by
    rw [Scanner.read_cons] at hdone ⊢
    cases hstep : (s.step '>').2 with
    | none =>
      rw [hstep] at hdone
      cases hdone
    | some token =>
      rw [hstep] at hdone
      refine ⟨token, rfl, ?_⟩
      rwa [← Move.readAll_singleton]
  have hn : n = byteWidth (before ++ ['>']) := by
    have hwidth := Scanner.consumed_read Scanner.start (before ++ ['>'])
    rw [Scanner.read_append, hscanner, hlast] at hwidth
    exact hwidth.trans (Nat.zero_add _)
  have hscan : Scanner.start.scan (before ++ '>' :: after)
      = (Scanner.start.read before).2 ++ token :: (⟨n, [], .between⟩ : Scanner).scan after := by
    rw [Scanner.scan_append, hscanner, ← List.singleton_append, Scanner.scan_append, htoken, hlast,
      List.singleton_append]
  rw [hscan, Place.rest_run_append _ hmoves, Place.rest_run_cons _ hmove, hn]
  simp only [Scanner.shift, Scanner.start, Nat.zero_add]

/-! ## Two documents -/

/-- The shortest document that ends in a `>` and is accepted ends in the `>` of its root element. -/
theorem isDoneAfter_of_minimal {cs : List Char} {c : Catalog} (hmark : IsUnmarked cs)
    (hparse : Catalog.parse (String.ofList cs) = .ok c) (hend : cs.getLast? = some '>')
    (hmin : ∀ p, p <+: cs → p ≠ cs → p.getLast? = some '>' →
      ∀ d, Catalog.parse (String.ofList p) ≠ .ok d) :
    ∃ before, cs = before ++ ['>'] ∧ Cursor.start.IsDoneAfter before c := by
  have hcases := parse_eq_ok_cases hparse
  rw [String.toList_ofList, hmark.dropByteOrderMark_eq] at hcases
  rcases hcases with ⟨before, after, rfl, hdone⟩ | ⟨before, raw, rfl, hraw, -⟩
  · have hbegins : before ++ ['>'] <+: before ++ '>' :: after := ⟨after, by simp⟩
    have hmark' : IsUnmarked (before ++ ['>']) := by
      cases before with
      | nil => exact (by decide : ['>'].head? ≠ some '\uFEFF')
      | cons d before => exact hmark
    have hdocument : dropByteOrderMark (String.ofList (before ++ ['>'])).toList
        = before ++ '>' :: [] := by
      rw [String.toList_ofList, hmark'.dropByteOrderMark_eq]
    have hparse' := hdone.parse hdocument
    by_cases hafter : after = []
    · exact ⟨before, by rw [hafter], hdone⟩
    · refine absurd hparse' (hmin _ hbegins (fun heq ↦ hafter ?_) List.getLast?_concat c)
      exact (List.cons.inj (List.append_cancel_left heq)).2.symm
  · -- an end tag that lacks its `>` does not end in one
    have hmem : '>' ∈ "</".toList ++ raw := by
      rw [List.append_assoc, List.getLast?_append_of_ne_nil _ (by simp)] at hend
      exact List.mem_of_getLast? hend
    exact absurd hmem (by simpa using hraw)

/-- A document that ends in the `>` of its root element is read without what follows it, and what
follows is read next as a document of its own. That a document ends there is said without the
reader's state: no shorter part that ends in a `>` is accepted. -/
theorem resume_read_append {s t : String} {c : Catalog} (hs : IsUnmarked s.toList)
    (ht : IsUnmarked t.toList) (hparse : Catalog.parse s = .ok c)
    (hend : s.toList.getLast? = some '>')
    (hmin : ∀ p, p <+: s.toList → p ≠ s.toList → p.getLast? = some '>' →
      ∀ d, Catalog.parse (String.ofList p) ≠ .ok d) :
    Catalog.parse (s ++ t) = .ok c
      ∧ (Catalog.read (s ++ t)).resume = (Catalog.read t).shift (byteWidth s.toList) := by
  rw [← String.ofList_toList (s := s)] at hparse
  obtain ⟨before, hbefore, hdone⟩ := isDoneAfter_of_minimal hs hparse hend hmin
  have hdocument : dropByteOrderMark (s ++ t).toList = before ++ '>' :: t.toList := by
    rw [String.toList_append, (hs.append ht).dropByteOrderMark_eq, hbefore, List.append_assoc,
      List.singleton_append]
  have hstart : Scanner.start.IsAnchored := Scanner.isAnchored_between 0 []
  refine ⟨hdone.parse hdocument, ?_⟩
  rw [Reading.resume, Catalog.read, tokens, hdocument, hdone.rest_run, ← hbefore,
    Scanner.scan_shift hstart, Place.run_shift, Catalog.read, tokens, ht.dropByteOrderMark_eq]

/-- The fault in the second document is at its byte 6, and at byte 17 of both. -/
theorem resume_read_append_mismatched :
    Catalog.parse ("<TS>é</TS>" ++ "<TS></XS>") = .ok {}
      ∧ (Catalog.read ("<TS>é</TS>" ++ "<TS></XS>")).resume.result
        = .error (.markup 17 (.mismatchedEnd "TS" "XS")) := by
  have hshort : ∀ p ∈ "<TS>é</TS>".toList.inits, p ≠ "<TS>é</TS>".toList →
      p.getLast? = some '>' → (Catalog.parse (String.ofList p)).toOption = none := by
    decide
  obtain ⟨hparse, hresume⟩ := resume_read_append (s := "<TS>é</TS>") (t := "<TS></XS>")
    (c := {}) (by unfold IsUnmarked; decide) (by unfold IsUnmarked; decide) rfl rfl
    fun p hbegins hne hgt d hd ↦ by
      have hnone := hshort p ((List.mem_inits _ _).mpr hbegins) hne hgt
      rw [hd] at hnone
      cases hnone
  refine ⟨hparse, ?_⟩
  rw [hresume]
  rfl

/-- Without the `>` at its end, a document may be accepted by itself and refused with more text
behind it. -/
theorem not_parse_append :
    ¬∀ (s t : String) (c : Catalog), IsUnmarked s.toList → IsUnmarked t.toList →
      Catalog.parse s = .ok c →
      (∀ p, p <+: s.toList → p ≠ s.toList → ∀ d, Catalog.parse (String.ofList p) ≠ .ok d) →
      Catalog.parse (s ++ t) = .ok c := by
  intro h
  have hshort : ∀ p ∈ "<TS></TS".toList.inits, p ≠ "<TS></TS".toList →
      (Catalog.parse (String.ofList p)).toOption = none := by
    decide
  have hparse := h "<TS></TS" "x" {} (by unfold IsUnmarked; decide) (by unfold IsUnmarked; decide)
    rfl fun p hbegins hne d hd ↦ by
      have hnone := hshort p ((List.mem_inits _ _).mpr hbegins) hne
      rw [hd] at hnone
      cases hnone
  cases hparse

end MessageCatalog
