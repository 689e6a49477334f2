import Mathlib.Data.List.Nodup
import MessageCatalog.Index

/-!
# Indices

A name has the value of its first pair. Where every name stands once, the pairs of an index are
exactly what its names have, and so the order in which they stand does not matter.

The names of an index that is built by `insert` ascend. Then there is but one order in which they
can stand, and such an index is known from what its names have.
-/

namespace MessageCatalog.Index

variable {α : Type} {index index' : Index α}

/-! ## Names that stand once -/

theorem mem_of_get? {name : String} {value : α} (h : index.get? name = some value) :
    (name, value) ∈ index := by
  obtain ⟨⟨n, a⟩, hfind, rfl⟩ := Option.map_eq_some_iff.mp h
  have hname := List.find?_some hfind
  obtain rfl := of_decide_eq_true hname
  exact List.mem_of_find?_eq_some hfind

theorem get?_eq_none_iff {name : String} : index.get? name = none ↔ name ∉ index.map (·.1) := by
  rw [get?, Option.map_eq_none_iff, List.find?_eq_none, List.mem_map]
  constructor
  · rintro h ⟨pair, hpair, hname⟩
    exact h pair hpair (decide_eq_true hname)
  · intro h pair hpair hname
    exact h ⟨pair, hpair, of_decide_eq_true hname⟩

theorem get?_of_mem (hnodup : (index.map (·.1)).Nodup) {name : String} {value : α}
    (h : (name, value) ∈ index) : index.get? name = some value := by
  induction index with
  | nil => exact absurd h List.not_mem_nil
  | cons pair rest ih =>
    obtain ⟨n, a⟩ := pair
    rw [List.map_cons, List.nodup_cons] at hnodup
    rw [get?_cons]
    rcases List.mem_cons.mp h with h | h
    · obtain ⟨rfl, rfl⟩ := Prod.mk.inj h
      exact if_pos rfl
    · have hname : n ≠ name := by
        rintro rfl
        exact hnodup.1 (List.mem_map.mpr ⟨_, h, rfl⟩)
      rw [if_neg hname, ih hnodup.2 h]

theorem get?_eq_some_iff (hnodup : (index.map (·.1)).Nodup) {name : String} {value : α} :
    index.get? name = some value ↔ (name, value) ∈ index :=
  ⟨mem_of_get?, get?_of_mem hnodup⟩

/-- The order of an index does not matter if every name stands once. -/
theorem get?_of_perm (hnodup : (index.map (·.1)).Nodup) (hperm : index.Perm index')
    (name : String) : index.get? name = index'.get? name := by
  have hnodup' : (index'.map (·.1)).Nodup := (hperm.map _).nodup_iff.mp hnodup
  refine Option.ext fun value ↦ ?_
  rw [get?_eq_some_iff hnodup, get?_eq_some_iff hnodup', hperm.mem_iff]

/-! ## Changing values -/

theorem keys_update (default : α) (f : α → α) (name : String) (index : Index α) :
    (index.update default f name).map (·.1)
      = if name ∈ index.map (·.1) then index.map (·.1) else index.map (·.1) ++ [name] := by
  induction index with
  | nil => rfl
  | cons pair rest ih =>
    obtain ⟨n, a⟩ := pair
    rw [update]
    by_cases hn : n = name
    · rw [if_pos hn]
      exact (if_pos (List.mem_cons.mpr (.inl hn.symm))).symm
    · have hmem : name ∈ ((n, a) :: rest).map (·.1) ↔ name ∈ rest.map (·.1) := by
        rw [List.map_cons, List.mem_cons, or_iff_right (Ne.symm hn)]
      rw [if_neg hn, List.map_cons, ih, if_congr hmem rfl rfl]
      split <;> rfl

theorem nodup_keys_update (hnodup : (index.map (·.1)).Nodup) (default : α) (f : α → α)
    (name : String) : ((index.update default f name).map (·.1)).Nodup := by
  rw [keys_update]
  split
  · exact hnodup
  · next hname => exact List.nodup_append_comm.mp (List.nodup_cons.mpr ⟨hname, hnodup⟩)

/-- What holds of all values, and is kept by a change, holds of all values afterwards. -/
theorem forall_mem_update {p : α → Prop} {default : α} {f : α → α} {name : String}
    (hdefault : p (f default)) (hf : ∀ a, p a → p (f a)) (h : ∀ pair ∈ index, p pair.2) :
    ∀ pair ∈ index.update default f name, p pair.2 := by
  induction index with
  | nil =>
    intro pair hpair
    rw [List.mem_singleton.mp hpair]
    exact hdefault
  | cons first rest ih =>
    obtain ⟨n, a⟩ := first
    obtain ⟨hfirst, hrest⟩ := List.forall_mem_cons.mp h
    rw [update]
    by_cases hn : n = name
    · rw [if_pos hn]
      exact List.forall_mem_cons.mpr ⟨hf a hfirst, hrest⟩
    · rw [if_neg hn]
      exact List.forall_mem_cons.mpr ⟨hfirst, ih hrest⟩

/-- If a change adds one item to those that a value holds, it adds one item to the whole index. -/
theorem flatMap_update_perm {β : Type} {g : String × α → List β} {default : α} {f : α → α}
    {name : String} {item : β} (hdefault : g (name, default) = [])
    (hf : ∀ a, (g (name, f a)).Perm (item :: g (name, a))) (index : Index α) :
    ((index.update default f name).flatMap g).Perm (item :: index.flatMap g) := by
  induction index with
  | nil =>
    have hone : (g (name, f default)).Perm [item] := hdefault ▸ hf default
    rwa [update, List.flatMap_singleton]
  | cons first rest ih =>
    obtain ⟨n, a⟩ := first
    rw [update]
    by_cases hn : n = name
    · subst hn
      rw [if_pos rfl, List.flatMap_cons, List.flatMap_cons]
      exact (hf a).append_right _
    · rw [if_neg hn, List.flatMap_cons, List.flatMap_cons]
      exact (ih.append_left _).trans List.perm_middle

/-! ## Setting values -/

@[simp] theorem get?_set (name : String) (value : α) (index : Index α) (key : String) :
    (index.set name value).get? key = if name = key then some value else index.get? key :=
  get?_update value _ name index key

theorem set_eq_self {name : String} {value : α} (h : index.get? name = some value) :
    index.set name value = index := by
  induction index with
  | nil => cases h
  | cons pair rest ih =>
    obtain ⟨n, a⟩ := pair
    rw [get?_cons] at h
    rw [set, update]
    by_cases hn : n = name
    · rw [if_pos hn] at h
      rw [if_pos hn, Option.some.inj h]
    · rw [if_neg hn] at h
      rw [if_neg hn]
      exact congrArg _ (ih h)

theorem mem_set {name : String} {value : α} {pair : String × α} (h : pair ∈ index.set name value) :
    pair = (name, value) ∨ pair ∈ index := by
  induction index with
  | nil => exact Or.inl (List.mem_singleton.mp h)
  | cons first rest ih =>
    obtain ⟨n, a⟩ := first
    rw [set, update] at h
    by_cases hn : n = name
    · rw [if_pos hn, hn] at h
      rcases List.mem_cons.mp h with h | h
      · exact Or.inl h
      · exact Or.inr (List.mem_cons_of_mem _ h)
    · rw [if_neg hn] at h
      rcases List.mem_cons.mp h with h | h
      · exact Or.inr (h ▸ List.mem_cons_self)
      · exact (ih h).imp_right (List.mem_cons_of_mem _)

/-! ## Ascending names -/

/-- Each name is greater than the one before it. -/
def IsAscending (index : Index α) : Prop :=
  index.Pairwise fun a b ↦ a.1 < b.1

@[simp] theorem isAscending_nil : IsAscending ([] : Index α) := List.Pairwise.nil

theorem IsAscending.nodup (h : IsAscending index) : (index.map (·.1)).Nodup := by
  rw [List.Nodup, List.pairwise_map]
  refine h.imp fun hlt heq ↦ ?_
  rw [heq] at hlt
  exact String.lt_irrefl _ hlt

/-- There is but one ascending index of given pairs. -/
theorem IsAscending.eq_of_mem_iff (h : IsAscending index) (h' : IsAscending index')
    (hmem : ∀ pair, pair ∈ index ↔ pair ∈ index') : index = index' := by
  have hperm : index.Perm index' :=
    (List.perm_ext_iff_of_nodup h.nodup.of_map h'.nodup.of_map).mpr hmem
  exact hperm.eq_of_pairwise (fun a b _ _ hab hba ↦ absurd hba (String.lt_asymm hab)) h h'

/-- There is but one ascending index whose names have given values. -/
theorem IsAscending.ext (h : IsAscending index) (h' : IsAscending index')
    (hget : ∀ name, index.get? name = index'.get? name) : index = index' := by
  refine h.eq_of_mem_iff h' fun ⟨name, value⟩ ↦ ?_
  rw [← get?_eq_some_iff h.nodup, ← get?_eq_some_iff h'.nodup, hget]

@[simp] theorem get?_insert (name : String) (value : α) (index : Index α) (key : String) :
    (index.insert name value).get? key = if name = key then some value else index.get? key := by
  induction index with
  | nil => simp [insert]
  | cons pair rest ih =>
    obtain ⟨n, a⟩ := pair
    by_cases hlt : name < n
    · simp [insert, hlt]
    · by_cases hn : name = n
      · subst hn
        by_cases hkey : name = key <;> simp [insert, hkey]
      · by_cases hkey : n = key
        · subst hkey
          simp [insert, hlt, hn]
        · simp [insert, hlt, hn, hkey, ih]

@[simp] theorem mem_keys_insert_iff {name : String} {value : α} {key : String} :
    key ∈ (index.insert name value).map (·.1) ↔ key = name ∨ key ∈ index.map (·.1) := by
  rw [← not_iff_not, not_or, ← get?_eq_none_iff, ← get?_eq_none_iff, get?_insert]
  by_cases hname : name = key
  · rw [if_pos hname]
    constructor
    · rintro ⟨⟩
    · rintro ⟨hne, -⟩
      exact absurd hname.symm hne
  · rw [if_neg hname]
    exact ⟨fun h ↦ ⟨Ne.symm hname, h⟩, And.right⟩

theorem mem_insert {name : String} {value : α} {pair : String × α}
    (h : pair ∈ index.insert name value) : pair = (name, value) ∨ pair ∈ index := by
  induction index with
  | nil => exact Or.inl (List.mem_singleton.mp h)
  | cons first rest ih =>
    obtain ⟨n, a⟩ := first
    rw [insert] at h
    split_ifs at h
    · exact List.mem_cons.mp h
    · exact (List.mem_cons.mp h).imp_right (List.mem_cons_of_mem _)
    · rcases List.mem_cons.mp h with h | h
      · exact Or.inr (h ▸ List.mem_cons_self)
      · exact (ih h).imp_right (List.mem_cons_of_mem _)

theorem IsAscending.insert (h : IsAscending index) (name : String) (value : α) :
    IsAscending (index.insert name value) := by
  induction index with
  | nil => exact List.pairwise_singleton _ _
  | cons pair rest ih =>
    obtain ⟨n, a⟩ := pair
    obtain ⟨hfirst, hrest⟩ := List.pairwise_cons.mp h
    rw [Index.insert]
    split_ifs with hlt heq
    · refine List.pairwise_cons.mpr ⟨fun later hlater ↦ ?_, h⟩
      rcases List.mem_cons.mp hlater with rfl | hlater
      · exact hlt
      · exact String.lt_trans hlt (hfirst later hlater)
    · subst heq
      exact List.pairwise_cons.mpr ⟨hfirst, hrest⟩
    · refine List.pairwise_cons.mpr ⟨fun later hlater ↦ ?_, ih hrest⟩
      rcases mem_insert hlater with rfl | hlater
      · exact Std.lt_of_le_of_ne (String.not_lt.mp hlt) (Ne.symm heq)
      · exact hfirst later hlater

end MessageCatalog.Index
