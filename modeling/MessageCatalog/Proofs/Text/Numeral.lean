import Mathlib.Data.List.Induction
import Mathlib.Data.Nat.Digits.Defs
import MessageCatalog.Text.Numeral

/-!
# What numerals denote

A reader of numerals goes along the digits and keeps the number that they have come to. What digits
denote is said here by their places instead, the last one being that of the ones. A digit more puts
every other one a place further up, so the two agree digit by digit, from the last one on.

Leading zeros denote nothing. A number therefore has many numerals, and the one that it is written
as is among them.
-/

namespace MessageCatalog.Text

/-! ## Decimal digits -/

def digitValue (c : Char) : Nat :=
  c.toNat - '0'.toNat

/-- The number that decimal digits denote by their places. -/
def decimalValue (cs : List Char) : Nat :=
  Nat.ofDigits 10 (cs.reverse.map digitValue)

/-- Whether a text is one or more decimal digits, and what they denote. -/
structure IsDecimal (cs : List Char) (n : Nat) : Prop where
  ne_nil : cs ≠ []
  isDigit : ∀ c ∈ cs, c.isDigit = true
  value : decimalValue cs = n

/-- Whether a text is one sign and then one or more decimal digits, and what they denote. -/
inductive IsSigned : List Char → Int → Prop
  | plus {cs : List Char} {n : Nat} (h : IsDecimal cs n) : IsSigned ('+' :: cs) n
  | minus {cs : List Char} {n : Nat} (h : IsDecimal cs n) : IsSigned ('-' :: cs) (-n)

/-- The digits of greater radices have values from ten on. -/
theorem digit?_ten_eq_some_iff {c : Char} {d : Nat} :
    digit? 10 c = some d ↔ c.isDigit = true ∧ digitValue c = d := by
  have hisDigit : c.isDigit = true ↔ '0' ≤ c ∧ c ≤ '9' := Char.isDigit_iff_toNat
  have hletter : ∀ n : Nat, ¬(some (n + 10) = some d ∧ d < 10) := by
    rintro n ⟨heq, hlt⟩
    have hle := Option.some.inj heq
    omega
  rw [digit?, Option.filter_eq_some_iff, decide_eq_true_eq, hisDigit]
  split_ifs with hdecimal hlower hupper
  · have hlt : c.toNat - 48 < 10 := by
      have hle : c.toNat ≤ 57 := hdecimal.2
      omega
    constructor
    · rintro ⟨heq, -⟩
      exact ⟨hdecimal, Option.some.inj heq⟩
    · rintro ⟨-, rfl⟩
      exact ⟨rfl, hlt⟩
  · exact iff_of_false (hletter _) fun h ↦ hdecimal h.1
  · exact iff_of_false (hletter _) fun h ↦ hdecimal h.1
  · exact iff_of_false (fun h ↦ h.1.elim) fun h ↦ hdecimal h.1

/-! ## Unsigned numerals -/

@[simp] theorem decimalValue_concat (cs : List Char) (c : Char) :
    decimalValue (cs ++ [c]) = 10 * decimalValue cs + digitValue c := by
  rw [decimalValue, List.reverse_concat,
    List.map_cons, Nat.ofDigits_cons, ← decimalValue, Nat.add_comm]

/-- Going along digits comes to the number that they denote by their places. -/
theorem foldlM_digit?_eq_some_iff (cs : List Char) {n : Nat} :
    cs.foldlM (fun n c ↦ (digit? 10 c).map (10 * n + ·)) 0 = some n
      ↔ (∀ c ∈ cs, c.isDigit = true) ∧ decimalValue cs = n := by
  induction cs using List.reverseRecOn generalizing n with
  | nil => simp [decimalValue]
  | append_singleton cs c ih =>
    have hlast : ∀ m, [c].foldlM (fun n c ↦ (digit? 10 c).map (10 * n + ·)) m = some n
        ↔ c.isDigit = true ∧ 10 * m + digitValue c = n := by
      intro m
      simp only [List.foldlM_cons, List.foldlM_nil, bind_pure, Option.map_eq_some_iff,
        digit?_ten_eq_some_iff, and_assoc, exists_and_left, exists_eq_left']
    rw [List.foldlM_append, Option.bind_eq_bind, Option.bind_eq_some_iff, decimalValue_concat,
      List.forall_mem_append, List.forall_mem_singleton]
    simp only [ih, hlast]
    constructor
    · rintro ⟨m, ⟨hdigits, rfl⟩, hc, rfl⟩
      exact ⟨⟨hdigits, hc⟩, rfl⟩
    · rintro ⟨⟨hdigits, hc⟩, rfl⟩
      exact ⟨_, ⟨hdigits, rfl⟩, hc, rfl⟩

theorem natural?_eq_some_iff {cs : List Char} {n : Nat} :
    natural? 10 cs = some n ↔ IsDecimal cs n := by
  by_cases hcs : cs = []
  · subst hcs
    exact iff_of_false (fun h ↦ Option.some_ne_none n h.symm) fun h ↦ h.ne_nil rfl
  · rw [natural?.eq_2 10 cs hcs, foldlM_digit?_eq_some_iff]
    exact ⟨fun h ↦ ⟨hcs, h.1, h.2⟩, fun h ↦ ⟨h.isDigit, h.value⟩⟩

theorem filter_natural?_eq_some_iff {bound : Nat} {cs : List Char} {n : Nat} :
    (natural? 10 cs).filter (· ≤ bound) = some n ↔ IsDecimal cs n ∧ n ≤ bound := by
  rw [Option.filter_eq_some_iff, natural?_eq_some_iff, decide_eq_true_eq]

theorem unsigned?_eq_some_iff {bound : Nat} {cs : List Char} {n : Nat} (h : cs.head? ≠ some '+') :
    unsigned? 10 bound cs = some n ↔ IsDecimal cs n ∧ n ≤ bound := by
  have hplain : ∀ rest, cs = '+' :: rest → False := by
    rintro rest rfl
    exact h rfl
  rw [unsigned?.eq_2 10 bound cs hplain]
  exact filter_natural?_eq_some_iff

/-! ## Signed numerals -/

@[simp] theorem signed?_plus (bound : Nat) (cs : List Char) :
    signed? bound ('+' :: cs)
      = Option.map (fun n : Nat ↦ (n : Int)) ((natural? 10 cs).filter (· ≤ bound)) := by
  rw [signed?, unsigned?]
  · cases (natural? 10 cs).filter (· ≤ bound) <;> rfl
  · intro rest h
    cases h

@[simp] theorem signed?_minus (bound : Nat) (cs : List Char) :
    signed? bound ('-' :: cs)
      = Option.map (fun n : Nat ↦ -(n : Int)) ((natural? 10 cs).filter (· ≤ bound + 1)) := by
  rw [signed?]
  cases (natural? 10 cs).filter (· ≤ bound + 1) <;> rfl

/-- Behind a sign there are digits only, and their number lies within the bound of the sign. -/
theorem signed?_eq_some_iff {bound : Nat} {cs : List Char} {k : Int}
    (h : cs.head? = some '+' ∨ cs.head? = some '-') :
    signed? bound cs = some k ↔ IsSigned cs k ∧ -((bound : Int) + 1) ≤ k ∧ k ≤ bound := by
  rcases h with h | h
  · obtain ⟨digits, rfl⟩ := List.head?_eq_some_iff.mp h
    rw [signed?_plus, Option.map_eq_some_iff]
    simp only [filter_natural?_eq_some_iff]
    constructor
    · rintro ⟨n, ⟨hdigits, hle⟩, rfl⟩
      exact ⟨.plus hdigits, by omega, by omega⟩
    · rintro ⟨⟨hdigits⟩, -, hle⟩
      exact ⟨_, ⟨hdigits, by omega⟩, rfl⟩
  · obtain ⟨digits, rfl⟩ := List.head?_eq_some_iff.mp h
    rw [signed?_minus, Option.map_eq_some_iff]
    simp only [filter_natural?_eq_some_iff]
    constructor
    · rintro ⟨n, ⟨hdigits, hle⟩, rfl⟩
      exact ⟨.minus hdigits, by omega, by omega⟩
    · rintro ⟨_ | hdigits, hle, -⟩
      exact ⟨_, ⟨hdigits, by omega⟩, rfl⟩

/-! ## Written numbers -/

theorem isDecimal_toDigits (n : Nat) : IsDecimal (Nat.toDigits 10 n) n where
  ne_nil := Nat.toDigits_ne_nil
  isDigit _ := Nat.isDigit_of_mem_toDigits (by decide) (by decide)
  value := by
    have hdigit : ∀ d < 10, digitValue d.digitChar = d := by decide
    induction n using Nat.strongRecOn with
    | ind n ih =>
      rcases Nat.lt_or_ge n 10 with hn | hn
      · rw [Nat.toDigits_of_lt_base hn, decimalValue, List.reverse_singleton, List.map_singleton,
          Nat.ofDigits_singleton, hdigit n hn]
      · have hlast : n % 10 < 10 := by omega
        rw [Nat.toDigits_of_base_le (by decide) hn, decimalValue_concat, ih (n / 10) (by omega),
          hdigit _ hlast]
        omega

end MessageCatalog.Text
