import Mathlib.Tactic.NormNum
import MessageCatalog.Catalog.LineRef
import MessageCatalog.Proofs.Text.Blank
import MessageCatalog.Proofs.Text.Numeral

/-!
# Line references

The line of a location denotes a line number of 32 bits if it is decimal digits only, a distance of
32 bits if one sign stands before them, and nothing otherwise; white space around it is left aside.
The sign decides alone which of the two it is, so that no text denotes both, and it is not part of
what is left to read: a second sign is no digit.

Each line number and each distance is denoted by what it is written as, the distance with its sign.
-/

namespace MessageCatalog

open Text

/-! ## Reading -/

namespace LineRef

/-- Whether a text is a line reference, without white space around it: a line is written in digits,
a distance in digits behind a sign. -/
def IsWritten (cs : List Char) : LineRef → Prop
  | absolute line => IsDecimal cs line
  | relative distance => IsSigned cs distance

/-- Whether a line reference has 32 bits. -/
def IsWithin : LineRef → Prop
  | absolute line => line ≤ 2 ^ 32 - 1
  | relative distance => -2 ^ 31 ≤ distance ∧ distance ≤ 2 ^ 31 - 1

theorem not_isDecimal_of_sign {cs : List Char} {n : Nat}
    (h : cs.head? = some '+' ∨ cs.head? = some '-') : ¬IsDecimal cs n := by
  intro hdecimal
  rcases h with h | h
  · exact absurd (hdecimal.isDigit '+' (List.mem_of_head? h)) (by decide)
  · exact absurd (hdecimal.isDigit '-' (List.mem_of_head? h)) (by decide)

theorem sign_of_isSigned {cs : List Char} {k : Int} (h : IsSigned cs k) :
    cs.head? = some '+' ∨ cs.head? = some '-' := by
  rcases h with hdigits | hdigits
  · exact Or.inl rfl
  · exact Or.inr rfl

@[simp] theorem isWithin_absolute_iff {n : Nat} : (absolute n).IsWithin ↔ n ≤ maxWord32 := by
  have hmax : 2 ^ 32 - 1 = maxWord32 := by norm_num [maxWord32]
  rw [IsWithin, hmax]

@[simp] theorem isWithin_relative_iff {k : Int} :
    (relative k).IsWithin ↔ -((maxInt32 : Int) + 1) ≤ k ∧ k ≤ maxInt32 := by
  have hmax : (2 : Int) ^ 31 = maxInt32 + 1 := by norm_num [maxInt32]
  rw [IsWithin, hmax, Int.add_sub_cancel]

theorem ofText?_of_sign {line : String} (h : (trimChars line.toList).head? = some '+'
      ∨ (trimChars line.toList).head? = some '-') :
    ofText? line = (signed? maxInt32 (trimChars line.toList)).map relative := by
  rw [ofText?]
  rcases h with h | h
  · obtain ⟨digits, hdigits⟩ := List.head?_eq_some_iff.mp h
    rw [hdigits]
    rfl
  · obtain ⟨digits, hdigits⟩ := List.head?_eq_some_iff.mp h
    rw [hdigits]
    rfl

theorem ofText?_of_no_sign {line : String} (h : ¬((trimChars line.toList).head? = some '+'
      ∨ (trimChars line.toList).head? = some '-')) :
    ofText? line = (unsigned? 10 maxWord32 (trimChars line.toList)).map absolute := by
  rw [ofText?]
  split
  · next heq => exact absurd (Or.inl (by rw [heq]; rfl)) h
  · next heq => exact absurd (Or.inr (by rw [heq]; rfl)) h
  · rfl

theorem ofText?_eq_some_iff {line : String} {ref : LineRef} :
    ofText? line = some ref ↔ ref.IsWritten (trimChars line.toList) ∧ ref.IsWithin := by
  by_cases hsign : (trimChars line.toList).head? = some '+'
      ∨ (trimChars line.toList).head? = some '-'
  · rw [ofText?_of_sign hsign, Option.map_eq_some_iff]
    cases ref with
    | absolute n =>
      refine iff_of_false ?_ fun h ↦ not_isDecimal_of_sign hsign h.1
      rintro ⟨k, -, heq⟩
      cases heq
    | relative k =>
      rw [isWithin_relative_iff, IsWritten, ← signed?_eq_some_iff hsign]
      simp
  · rw [ofText?_of_no_sign hsign, Option.map_eq_some_iff]
    cases ref with
    | absolute n =>
      rw [isWithin_absolute_iff, IsWritten,
        ← unsigned?_eq_some_iff fun hplus ↦ hsign (Or.inl hplus)]
      simp
    | relative k =>
      refine iff_of_false ?_ fun h ↦ hsign (sign_of_isSigned h.1)
      rintro ⟨n, -, heq⟩
      cases heq

/-! ## Writing -/

theorem isWritten_text (ref : LineRef) : ref.IsWritten ref.text.toList := by
  cases ref with
  | absolute n =>
    rw [text, String.toList_ofList]
    exact isDecimal_toDigits n
  | relative k =>
    have hdigits : IsDecimal (Nat.toDigits 10 k.natAbs) k.natAbs := isDecimal_toDigits _
    rw [text, String.toList_ofList]
    by_cases hneg : k < 0
    · have hk : -(k.natAbs : Int) = k := by omega
      have hsigned := IsSigned.minus hdigits
      rw [hk] at hsigned
      rwa [if_pos hneg]
    · have hk : (k.natAbs : Int) = k := by omega
      have hsigned := IsSigned.plus hdigits
      rw [hk] at hsigned
      rwa [if_neg hneg]

theorem isBlank_of_mem {ref : LineRef} {cs : List Char} (h : ref.IsWritten cs) {c : Char}
    (hc : c ∈ cs) : isBlank c = false := by
  have hdigit : ∀ d : Char, d.isDigit = true → isBlank d = false := by
    intro d hd
    have hrange : 48 ≤ d.toNat ∧ d.toNat ≤ 57 := Char.isDigit_iff_toNat.mp hd
    simp only [isBlank, Bool.or_eq_false_iff, Bool.and_eq_false_iff, decide_eq_false_iff_not]
    omega
  cases ref with
  | absolute n => exact hdigit c (h.isDigit c hc)
  | relative k =>
    rcases h with hdigits | hdigits
    · rcases List.mem_cons.mp hc with rfl | hc
      · decide
      · exact hdigit c (hdigits.isDigit c hc)
    · rcases List.mem_cons.mp hc with rfl | hc
      · decide
      · exact hdigit c (hdigits.isDigit c hc)

theorem isTight_text (ref : LineRef) : IsTight ref.text.toList where
  head _ hc := isBlank_of_mem ref.isWritten_text (List.mem_of_head? hc)
  last _ hc := isBlank_of_mem ref.isWritten_text (List.mem_of_getLast? hc)

end LineRef

/-- The line of a location denotes the number of 32 bits that it is the decimal digits of, or the
signed number of 32 bits that it is a sign and the decimal digits of, white space around it left
aside; and if it is neither of them, nothing. What is written for a line reference of 32 bits
denotes it, whatever white space is around it. -/
theorem lineRef?_exact {l : Location} {s : String} (h : l.line = some s) :
    (∀ n, l.lineRef? = some (.absolute n) ↔ IsDecimal (trim s).toList n ∧ n ≤ 2 ^ 32 - 1)
      ∧ (∀ k, l.lineRef? = some (.relative k)
          ↔ IsSigned (trim s).toList k ∧ -2 ^ 31 ≤ k ∧ k ≤ 2 ^ 31 - 1)
      ∧ (l.lineRef? = none
          ↔ (∀ n ≤ 2 ^ 32 - 1, ¬IsDecimal (trim s).toList n)
            ∧ ∀ k, -2 ^ 31 ≤ k → k ≤ 2 ^ 31 - 1 → ¬IsSigned (trim s).toList k)
      ∧ ∀ (ref : LineRef) (front back : String), ref.IsWithin →
          (∀ c ∈ front.toList, isBlank c = true) → (∀ c ∈ back.toList, isBlank c = true) →
          s = front ++ ref.text ++ back → l.lineRef? = some ref := by
  have hread : ∀ ref : LineRef,
      l.lineRef? = some ref ↔ ref.IsWritten (trim s).toList ∧ ref.IsWithin := by
    intro ref
    rw [Location.lineRef?, h, Option.bind_some, LineRef.ofText?_eq_some_iff, toList_trim]
  refine ⟨fun n ↦ hread (.absolute n), fun k ↦ hread (.relative k), ?none, ?written⟩
  case none =>
    rw [Option.eq_none_iff_forall_ne_some]
    constructor
    · intro hnone
      exact ⟨fun n hn hdecimal ↦ hnone _ ((hread (.absolute n)).mpr ⟨hdecimal, hn⟩),
        fun k hlow hhigh hsigned ↦ hnone _ ((hread (.relative k)).mpr ⟨hsigned, hlow, hhigh⟩)⟩
    · rintro ⟨hdecimal, hsigned⟩ ref href
      obtain ⟨hwritten, hwithin⟩ := (hread ref).mp href
      cases ref with
      | absolute n => exact hdecimal n hwithin hwritten
      | relative k => exact hsigned k hwithin.1 hwithin.2 hwritten
  case written =>
    rintro ref front back hwithin hfront hback rfl
    have htrim : (trim (front ++ ref.text ++ back)).toList = ref.text.toList := by
      rw [toList_trim, String.toList_append, String.toList_append]
      exact trimChars_append hfront ref.isTight_text hback
    rw [hread, htrim]
    exact ⟨ref.isWritten_text, hwithin⟩

/-- The least distance, between a tab and an ideographic space. -/
theorem lineRef?_exact_least :
    ((⟨none, some "\t-2147483648\u3000"⟩ : Location).line = some "\t-2147483648\u3000"
        ∧ (LineRef.relative (-2147483648)).IsWithin)
      ∧ (⟨none, some "\t-2147483648\u3000"⟩ : Location).lineRef?
        = some (.relative (-2147483648)) := by
  have hwithin : (LineRef.relative (-2147483648)).IsWithin := by norm_num [LineRef.IsWithin]
  obtain ⟨-, -, -, hwritten⟩ := lineRef?_exact
    (rfl : (⟨none, some "\t-2147483648\u3000"⟩ : Location).line = some "\t-2147483648\u3000")
  refine ⟨⟨rfl, hwithin⟩, hwritten (.relative (-2147483648)) "\t" "\u3000" hwithin ?_ ?_ ?_⟩
  · exact List.all_eq_true.mp rfl
  · exact List.all_eq_true.mp rfl
  · decide +kernel

end MessageCatalog
