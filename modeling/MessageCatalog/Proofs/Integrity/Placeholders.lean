import Mathlib.Data.List.Sort
import MessageCatalog.Integrity.Template
import MessageCatalog.Proofs.Integrity.Verdict

/-!
# Placeholders are found exactly

In the text of a template the placeholders are found that its author put there, and no others. So a
translation may move the placeholders of its source, but not drop, add or repeat one.

## No match straddles a piece

The search goes from left to right and takes what is longest. In a literal piece there is no percent
sign to begin a match, and after a percent sign the reference is as long as it was written: a number
of one digit would take another one, but the next piece, if there is one, does not begin with a
digit, and the next placeholder begins with a percent sign. So the search arrives at each piece and
at each placeholder with nothing left to skip, and the text is read segment by segment.
-/

namespace MessageCatalog.Integrity

/-! ## References -/

/-- A text does not go on with a digit. -/
def EndsNumber (rest : List Char) : Prop :=
  rest.head?.any (·.isDigit) = false

theorem isDigit_iff (c : Char) : c.isDigit = true ↔ '0' ≤ c ∧ c ≤ '9' := by
  simp only [Char.isDigit, Bool.and_eq_true, decide_eq_true_eq]
  rfl

theorem isDigit_digitChar_of_lt {d : Nat} (h : d < 10) : d.digitChar.isDigit = true := by
  rw [Nat.isDigit_digitChar, decide_eq_true h]

theorem le_digitChar : ∀ d < 10, 0 < d → '1' ≤ d.digitChar ∧ d.digitChar ≤ '9' := by
  decide

theorem ne_count_of_le {a : Char} (ha : a ≤ '9') : a ≠ 'n' := by
  rintro rfl
  exact absurd ha (by decide)

/-- A leading digit is a whole number where no digit follows. -/
theorem reference?_oneDigit {a : Char} {rest : List Char} (ha : '1' ≤ a ∧ a ≤ '9')
    (hrest : EndsNumber rest) : reference? (a :: rest) = some [a] := by
  have hn := ne_count_of_le ha.2
  cases rest with
  | nil => simp only [reference?, if_pos ha]
  | cons b rest =>
    have hb : ¬('0' ≤ b ∧ b ≤ '9') := fun hb ↦
      absurd ((isDigit_iff b).mpr hb) (Bool.eq_false_iff.mp hrest)
    simp only [reference?, if_pos ha, if_neg hb]

theorem reference?_twoDigits {a b : Char} (ha : '1' ≤ a ∧ a ≤ '9') (hb : b.isDigit = true)
    (rest : List Char) : reference? (a :: b :: rest) = some [a, b] := by
  have hn := ne_count_of_le ha.2
  simp only [reference?, if_pos ha, if_pos ((isDigit_iff b).mp hb)]

theorem toList_text_number {n : Nat} (pos : 0 < n) (le_max : n ≤ 99) :
    (Argument.number n pos le_max).text.toList = Nat.toDigits 10 n :=
  String.toList_ofList

theorem reference?_text (a : Argument) {rest : List Char} (hrest : EndsNumber rest) :
    reference? (a.text.toList ++ rest) = some a.text.toList := by
  cases a with
  | count => rfl
  | number n pos le_max =>
    rw [toList_text_number]
    rcases Nat.lt_or_ge n 10 with hn | hn
    · rw [Nat.toDigits_of_lt_base hn]
      exact reference?_oneDigit (le_digitChar n hn pos) hrest
    · have hlead : n / 10 < 10 := by omega
      have hlast : n % 10 < 10 := by omega
      rw [Nat.toDigits_of_base_le (by decide) hn, Nat.toDigits_of_lt_base hlead]
      exact reference?_twoDigits (le_digitChar _ hlead (by omega)) (isDigit_digitChar_of_lt hlast) _

/-! ## The search -/

theorem placeholder?_eq_none {c : Char} (h : c ≠ '%') (rest : List Char) :
    placeholder? (c :: rest) = none := by
  rw [placeholder?.eq_def]
  split
  · next heq => exact absurd (List.cons.inj heq).1 h
  · next heq => exact absurd (List.cons.inj heq).1 h
  · rfl

/-- A reference right after the percent sign cannot begin with the mark of a localised number. -/
theorem placeholder?_of_reference? {rest r : List Char} (h : reference? rest = some r) :
    placeholder? ('%' :: rest) = some (r, r.length) := by
  rw [placeholder?.eq_def]
  split
  · next marked heq =>
    have hmarked : reference? ('L' :: marked) = none := rfl
    rw [(List.cons.inj heq).2, hmarked] at h
    cases h
  · next heq => rw [← (List.cons.inj heq).2, h, Option.map_some]
  · next hplain => exact absurd rfl (hplain rest)

/-- Nothing is found in what is skipped. -/
theorem referencesFrom_length (skipped rest : List Char) :
    referencesFrom skipped.length (skipped ++ rest) = referencesFrom 0 rest := by
  induction skipped with
  | nil => rfl
  | cons c cs ih => exact ih

theorem referencesFrom_literal {literal : List Char} (h : '%' ∉ literal) (rest : List Char) :
    referencesFrom 0 (literal ++ rest) = referencesFrom 0 rest := by
  induction literal with
  | nil => rfl
  | cons c cs ih =>
    rw [List.mem_cons, not_or] at h
    rw [List.cons_append, referencesFrom, placeholder?_eq_none (Ne.symm h.1)]
    exact ih h.2

/-- A placeholder is found, and nothing else in it. -/
theorem referencesFrom_placeholder (p : Placeholder) {rest : List Char} (hrest : EndsNumber rest) :
    referencesFrom 0 (p.text.toList ++ rest)
      = p.argument.text.toList :: referencesFrom 0 rest := by
  have hreference := reference?_text p.argument hrest
  rw [Placeholder.text, String.toList_append]
  by_cases hlocalised : p.isLocalised = true
  · have hfound : placeholder? ('%' :: 'L' :: (p.argument.text.toList ++ rest))
        = some (p.argument.text.toList, p.argument.text.toList.length + 1) := by
      rw [placeholder?, hreference, Option.map_some]
    rw [if_pos hlocalised]
    change referencesFrom 0 ('%' :: 'L' :: (p.argument.text.toList ++ rest)) = _
    rw [referencesFrom, hfound]
    exact congrArg _ (referencesFrom_length _ rest)
  · rw [if_neg hlocalised]
    change referencesFrom 0 ('%' :: (p.argument.text.toList ++ rest)) = _
    rw [referencesFrom, placeholder?_of_reference? hreference]
    exact congrArg _ (referencesFrom_length _ rest)

/-! ## Templates -/

theorem EndsNumber.append {a b : List Char} (ha : EndsNumber a) (hb : EndsNumber b) :
    EndsNumber (a ++ b) := by
  cases a with
  | nil => exact hb
  | cons c a => exact ha

/-- What follows a literal piece begins with a percent sign, if it is not empty. -/
theorem endsNumber_segments (segments : List Segment) :
    EndsNumber (String.join (segments.map Segment.text)).toList := by
  cases segments with
  | nil => rfl
  | cons s rest =>
    have hpercent : (String.join ((s :: rest).map Segment.text)).toList.head? = some '%' := by
      rw [List.map_cons, String.join_cons, Segment.text, Placeholder.text]
      cases s.placeholder.isLocalised <;> simp
    rw [EndsNumber, hpercent]
    rfl

theorem referencesFrom_segments (segments : List Segment) :
    referencesFrom 0 (String.join (segments.map Segment.text)).toList
      = segments.map fun s ↦ s.placeholder.argument.text.toList := by
  induction segments with
  | nil => rfl
  | cons s rest ih =>
    have hends := EndsNumber.append s.no_digit (endsNumber_segments rest)
    rw [List.map_cons, String.join_cons, String.toList_append, Segment.text, String.toList_append,
      List.append_assoc, referencesFrom_placeholder s.placeholder hends,
      referencesFrom_literal s.no_percent, ih, List.map_cons]

theorem referencesFrom_template (t : Template) :
    (referencesFrom 0 t.text.toList).map String.ofList = t.arguments.map Argument.text := by
  rw [Template.text, String.toList_append, referencesFrom_literal t.no_percent,
    referencesFrom_segments, Template.arguments, List.map_map, List.map_map]
  refine List.map_congr_left fun s _ ↦ ?_
  exact String.ofList_toList

theorem text_eq_count_iff (a : Argument) : a.text = "n" ↔ a = .count := by
  constructor
  · intro htext
    cases a with
    | count => rfl
    | number n pos le_max =>
      have hmem : 'n' ∈ Nat.toDigits 10 n := by
        rw [← toList_text_number pos le_max, htext]
        decide
      exact absurd (Nat.isDigit_of_mem_toDigits (by decide) (by decide) hmem) (by decide)
  · rintro rfl
    rfl

/-- The references in a template are those that its translations are required to have, put in
order. -/
theorem references_template (t : Template) (numerus : Bool) :
    references t.text numerus
      = (t.required numerus).mergeSort fun a b ↦ decide (a ≤ b) := by
  rw [references, referencesFrom_template, List.filter_map, Template.required]
  refine congrArg (fun l ↦ (List.map Argument.text l).mergeSort fun a b ↦ decide (a ≤ b)) ?_
  refine List.filter_congr fun a _ ↦ ?_
  rw [Function.comp_apply, decide_eq_decide.mpr (text_eq_count_iff a)]

/-! ## What a translation may do -/

theorem pairwise_references (text : String) (numerus : Bool) :
    (references text numerus).Pairwise (· ≤ ·) :=
  List.pairwise_mergeSort' (· ≤ ·) _

theorem references_perm (t : Template) (numerus : Bool) :
    (references t.text numerus).Perm (t.required numerus) := by
  rw [references_template]
  exact List.mergeSort_perm _ _

/-- Two texts have the same placeholders if they have the same arguments equally often. -/
theorem references_eq_iff (t u : Template) (numerus : Bool) :
    references t.text numerus = references u.text numerus
      ↔ (t.required numerus).Perm (u.required numerus) := by
  constructor
  · intro heq
    exact (references_perm t numerus).symm.trans (heq ▸ references_perm u numerus)
  · intro hperm
    have hsame : (references t.text numerus).Perm (references u.text numerus) :=
      ((references_perm t numerus).trans hperm).trans (references_perm u numerus).symm
    exact hsame.eq_of_pairwise (fun _ _ _ _ ↦ String.le_antisymm)
      (pairwise_references _ _) (pairwise_references _ _)

theorem placeholdersMatch_iff {m : Message} {source : Template} {forms : List Template}
    (hsource : m.source = source.text) (hforms : m.forms = forms.map Template.text) :
    placeholdersMatch m
      ↔ ∀ form ∈ forms, form.text ≠ "" →
          (form.required m.numerus).Perm (source.required m.numerus) := by
  rw [placeholdersMatch, hforms, List.forall_mem_map, hsource]
  refine forall₂_congr fun form _ ↦ imp_congr_right fun _ ↦ ?_
  exact references_eq_iff form source m.numerus

/-- In the text of a template exactly its placeholders are found, in ascending order and with
repetitions. So texts have the same placeholders exactly if one has those of the other in some
order, and a message passes exactly if that holds of each of its forms with text. -/
theorem references_exact (t : Template) (numerus : Bool) :
    (references t.text numerus).Pairwise (· ≤ ·)
      ∧ (references t.text numerus).Perm (t.required numerus)
      ∧ (∀ u : Template, references t.text numerus = references u.text numerus
          ↔ (t.required numerus).Perm (u.required numerus))
      ∧ ∀ (m : Message) (forms : List Template), m.source = t.text → m.numerus = numerus →
          m.forms = forms.map Template.text →
          (placeholderMismatch? m = none
            ↔ ∀ form ∈ forms, form.text ≠ "" →
                (form.required numerus).Perm (t.required numerus)) := by
  refine ⟨pairwise_references _ _, references_perm t numerus,
    fun u ↦ references_eq_iff t u numerus, ?_⟩
  rintro m forms hsource rfl hforms
  rw [placeholderMismatch?_eq_none_iff]
  exact placeholdersMatch_iff hsource hforms

/-- The text `Pay %1 to %L12 (%n)`. -/
def paymentSource : Template where
  opening := "Pay "
  segments := [
    ⟨⟨.number 1 (by decide) (by decide), false⟩, " to ", by decide, by decide⟩,
    ⟨⟨.number 12 (by decide) (by decide), true⟩, " (", by decide, by decide⟩,
    ⟨⟨.count, false⟩, ")", by decide, by decide⟩]
  no_percent := by decide

/-- The text `%12%1`, which leaves out the count. -/
def paymentForm : Template where
  opening := ""
  segments := [
    ⟨⟨.number 12 (by decide) (by decide), false⟩, "", by decide, by decide⟩,
    ⟨⟨.number 1 (by decide) (by decide), false⟩, "", by decide, by decide⟩]
  no_percent := by decide

/-- A message with that form, which depends on the count or not. -/
def payment (numerus : Bool) : Message where
  source := "Pay %1 to %L12 (%n)"
  numerus
  translation := ⟨.finished, .plural ["%12%1", ""]⟩

theorem references_exact_payment :
    ((payment true).source = paymentSource.text ∧ (payment true).numerus = true
        ∧ (payment true).forms = [paymentForm, ⟨"", [], by decide⟩].map Template.text)
      ∧ placeholderMismatch? (payment true) = none
      ∧ placeholderMismatch? (payment false) ≠ none := by
  have hsource : "Pay %1 to %L12 (%n)" = paymentSource.text := by decide
  have hforms : ["%12%1", ""] = [paymentForm, ⟨"", [], by decide⟩].map Template.text := by decide
  have hpasses := (references_exact paymentSource true).2.2.2 (payment true) _ hsource rfl hforms
  have hfails := (references_exact paymentSource false).2.2.2 (payment false) _ hsource rfl hforms
  refine ⟨⟨hsource, rfl, hforms⟩, hpasses.mpr (by decide), ?_⟩
  rw [ne_eq, hfails]
  decide

end MessageCatalog.Integrity
