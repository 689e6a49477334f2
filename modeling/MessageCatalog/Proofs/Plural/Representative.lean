import Mathlib.Data.List.Basic
import Mathlib.Data.List.Find
import MessageCatalog.Plural.Cardinal

/-!
# Counts that no rule tells apart

The rules of the table look at a count in few ways: they compare it with numbers below a hundred,
take it modulo a divisor of a hundred, or ask whether it is a round number of millions. Each count
therefore has a *representative*, one of about two hundred, which no rule tells apart from it: a
count below a hundred represents itself, a million represents its multiples, and of any other count
the last two digits matter, and that it is not below a hundred.

What holds of the representatives under the rules of a language holds of all counts. This makes a
statement about the category of every count one that can be decided.
-/

namespace MessageCatalog.Plural

/-- A count among a few that no rule of the table tells apart from a given one. -/
def representative (count : Nat) : Nat :=
  if count < 100 then count
  else if count % 1000000 = 0 then 1000000
  else 100 + count % 100

def representatives : List Nat :=
  List.range 200 ++ [1000000]

theorem representative_mem (count : Nat) : representative count ∈ representatives := by
  rw [representatives, List.mem_append, List.mem_range, List.mem_singleton, representative]
  split_ifs <;> omega

theorem representative_mod (count : Nat) {m : Nat} (h : m ∣ 100) :
    representative count % m = count % m := by
  have hmod : representative count % 100 = count % 100 := by
    rw [representative]
    split_ifs <;> omega
  rw [← Nat.mod_mod_of_dvd (representative count) h, hmod, Nat.mod_mod_of_dvd _ h]

theorem representative_le_iff (count : Nat) {b : Nat} (h : b < 100) :
    representative count ≤ b ↔ count ≤ b := by
  rw [representative]
  split_ifs <;> omega

theorem representative_of_le {count b : Nat} (h : b < 100) (hle : count ≤ b) :
    representative count = count := by
  rw [representative, if_pos (by omega)]

theorem representative_mod_million (count : Nat) :
    representative count % 1000000 = 0 ↔ count % 1000000 = 0 := by
  rw [representative]
  split_ifs <;> omega

/-! ## What rules see of a count -/

/-- A relation that sees of a number its representative only. -/
def Relation.IsCoarse (r : Relation) : Prop :=
  r.modulus ∣ 100 ∨ (r.modulus = 0 ∧ ∀ range ∈ r.ranges, range.2 < 100)
    ∨ (r.modulus = 1000000 ∧ r.ranges = [(0, 0)])

instance (r : Relation) : Decidable r.IsCoarse :=
  inferInstanceAs (Decidable (_ ∨ _ ∨ _))

/-- Rules whose relations are all coarse. -/
def Rules.IsCoarse (rules : Rules) : Prop :=
  ∀ rule ∈ rules, ∀ relations ∈ rule.2, ∀ r ∈ relations, r.IsCoarse

instance (rules : Rules) : Decidable rules.IsCoarse :=
  inferInstanceAs (Decidable (∀ rule ∈ rules, ∀ relations ∈ rule.2, ∀ r ∈ relations, r.IsCoarse))

theorem Relation.any_ranges_representative {r : Relation} (h : r.IsCoarse) (count : Nat) :
    (r.ranges.any fun (a, b) ↦
        a ≤ representative count % r.modulus && representative count % r.modulus ≤ b)
      = r.ranges.any fun (a, b) ↦ a ≤ count % r.modulus && count % r.modulus ≤ b := by
  obtain hdvd | ⟨hzero, hsmall⟩ | ⟨hmillion, hranges⟩ := h
  · rw [representative_mod count hdvd]
  · -- compared as it is, and only with small numbers
    rw [hzero, Nat.mod_zero, Nat.mod_zero, Bool.eq_iff_iff, List.any_eq_true, List.any_eq_true]
    refine exists_congr fun range ↦ and_congr_right fun hrange ↦ ?_
    have hb : range.2 < 100 := hsmall range hrange
    simp only [Bool.and_eq_true, decide_eq_true_eq, representative_le_iff count hb]
    exact and_congr_left fun hle ↦ by rw [representative_of_le hb hle]
  · have hround := representative_mod_million count
    rw [hmillion, hranges, List.any_cons, List.any_nil, List.any_cons, List.any_nil,
      Bool.or_false, Bool.or_false, Bool.eq_iff_iff, Bool.and_eq_true, Bool.and_eq_true,
      decide_eq_true_eq, decide_eq_true_eq, decide_eq_true_eq, decide_eq_true_eq]
    omega

theorem Relation.holds_representative {r : Relation} (h : r.IsCoarse) (count : Nat) :
    r.holds (representative count) = r.holds count := by
  have hranges := congrArg (· == r.inside) (Relation.any_ranges_representative h count)
  obtain ⟨operand, modulus, inside, ranges⟩ := r
  cases operand with
  | n | i => exact hranges
  | v | f | t | e => rfl

theorem Rules.category_representative {rules : Rules} (h : rules.IsCoarse) (count : Nat) :
    rules.category (representative count) = rules.category count := by
  have hfind : (rules.find? fun rule ↦ Condition.holds rule.2 (representative count))
      = rules.find? fun rule ↦ Condition.holds rule.2 count := by
    refine List.find?_congr fun rule hrule ↦ ?_
    rw [Bool.eq_iff_iff, Condition.holds, Condition.holds, List.any_eq_true, List.any_eq_true]
    refine exists_congr fun relations ↦ and_congr_right fun hrelations ↦ ?_
    rw [List.all_eq_true, List.all_eq_true]
    refine forall_congr' fun r ↦ forall_congr' fun hr ↦ ?_
    rw [Relation.holds_representative (h rule hrule relations hrelations r hr)]
  rw [category, hfind, category]

theorem isCoarse_of_mem_table : ∀ row ∈ Cardinal.table, row.2.IsCoarse := by
  decide +kernel

/-- A category that no representative is in, no count is in. -/
theorem category_ne_of_representatives {row : List String × Rules} (hrow : row ∈ Cardinal.table)
    {category : Category} (h : ∀ n ∈ representatives, row.2.category n ≠ category) (count : Nat) :
    row.2.category count ≠ category := by
  rw [← Rules.category_representative (isCoarse_of_mem_table row hrow)]
  exact h _ (representative_mem count)

end MessageCatalog.Plural
