import MessageCatalog.Json.Value
import MessageCatalog.Proofs.Index

/-!
# Sorted members

The members of a sorted object ascend, so each key stands once. Of members with one key the last
counts.
-/

namespace MessageCatalog.Json

variable {members : List (String × Value)} {key : String} {v : Value}

theorem isAscending_sortedMembers (members : List (String × Value)) :
    Index.IsAscending (sortedMembers members) := by
  induction members with
  | nil =>
    rw [sortedMembers]
    exact Index.isAscending_nil
  | cons member rest ih =>
    obtain ⟨k, w⟩ := member
    rw [sortedMembers]
    split_ifs
    · exact ih
    · exact ih.insert k w.sorted

theorem any_key_iff : members.any (·.1 = key) = true ↔ key ∈ members.map (·.1) := by
  simp only [List.any_eq_true, decide_eq_true_eq, List.mem_map]

@[simp] theorem mem_keys_sortedMembers_iff :
    key ∈ (sortedMembers members).map (·.1) ↔ key ∈ members.map (·.1) := by
  induction members with
  | nil => rw [sortedMembers]
  | cons member rest ih =>
    obtain ⟨k, w⟩ := member
    rw [sortedMembers, List.map_cons, List.mem_cons, ← ih]
    dsimp only
    split_ifs with hany
    · rw [any_key_iff] at hany
      constructor
      · exact Or.inr
      · rintro (rfl | h)
        · exact hany
        · exact h
    · exact Index.mem_keys_insert_iff

/-- A key has a value in members, and none behind it. -/
def IsLast (members : List (String × Value)) (key : String) (w : Value) : Prop :=
  ∃ before after, members = before ++ (key, w) :: after ∧ key ∉ after.map (·.1)

@[simp] theorem not_isLast_nil {w : Value} : ¬IsLast [] key w := by
  rintro ⟨before, after, hnil, -⟩
  exact List.append_ne_nil_of_right_ne_nil before (List.cons_ne_nil _ _) hnil.symm

theorem IsLast.mem_keys {w : Value} (h : IsLast members key w) : key ∈ members.map (·.1) := by
  obtain ⟨before, after, rfl, -⟩ := h
  exact List.mem_map.mpr ⟨(key, w), List.mem_append_right _ List.mem_cons_self, rfl⟩

theorem isLast_cons_iff {k : String} {w w' : Value} :
    IsLast ((k, w') :: members) key w
      ↔ IsLast members key w ∨ (k, w') = (key, w) ∧ key ∉ members.map (·.1) := by
  constructor
  · rintro ⟨before, after, heq, hafter⟩
    rcases before with - | ⟨first, before⟩
    · obtain ⟨hpair, rfl⟩ := List.cons.inj heq
      exact .inr ⟨hpair, hafter⟩
    · exact .inl ⟨before, after, (List.cons.inj heq).2, hafter⟩
  · rintro (⟨before, after, rfl, hafter⟩ | ⟨hpair, hafter⟩)
    · exact ⟨(k, w') :: before, after, rfl, hafter⟩
    · exact ⟨[], members, by rw [hpair, List.nil_append], hafter⟩

theorem isLast_cons_of_mem {k : String} {w w' : Value} (h : k ∈ members.map (·.1)) :
    IsLast ((k, w') :: members) key w ↔ IsLast members key w := by
  rw [isLast_cons_iff, or_iff_left]
  rintro ⟨hpair, hkey⟩
  exact hkey ((Prod.mk.inj hpair).1 ▸ h)

theorem isLast_cons_of_notMem {k : String} {w w' : Value} (h : k ∉ members.map (·.1)) :
    IsLast ((k, w') :: members) key w ↔ if k = key then w' = w else IsLast members key w := by
  rw [isLast_cons_iff]
  split_ifs with hk
  · subst hk
    constructor
    · rintro (hlast | ⟨hpair, -⟩)
      · exact absurd hlast.mem_keys h
      · exact (Prod.mk.inj hpair).2
    · rintro rfl
      exact .inr ⟨rfl, h⟩
  · exact or_iff_left fun hboth ↦ hk (Prod.mk.inj hboth.1).1

/-- Of the values that a key has, the last one is sorted. -/
theorem mem_sortedMembers_iff :
    (key, v) ∈ sortedMembers members ↔ ∃ w, IsLast members key w ∧ v = w.sorted := by
  rw [← Index.get?_eq_some_iff (isAscending_sortedMembers members).nodup]
  induction members with
  | nil =>
    rw [sortedMembers, Index.get?_nil]
    constructor
    · rintro ⟨⟩
    · rintro ⟨w, hlast, -⟩
      exact absurd hlast not_isLast_nil
  | cons member rest ih =>
    obtain ⟨k, w⟩ := member
    rw [sortedMembers]
    split_ifs with hany
    -- the key has another value behind this one
    · rw [any_key_iff, mem_keys_sortedMembers_iff] at hany
      simp only [isLast_cons_of_mem hany, ih]
    · rw [any_key_iff, mem_keys_sortedMembers_iff] at hany
      rw [Index.get?_insert]
      simp only [isLast_cons_of_notMem hany]
      split_ifs with hk
      · simp only [exists_eq_left', Option.some.injEq, eq_comm]
      · exact ih

end MessageCatalog.Json
