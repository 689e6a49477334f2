import Mathlib.Data.List.DropRight
import MessageCatalog.Text.Blank

/-!
# Trimmed texts

Trimming takes white space away from both ends of a text, and what is left has none at its ends.
These two facts determine what is left: between white space and white space there is only one text
that neither begins nor ends with any.

Replacing a character by another one leaves none of it. It may be replaced back, but then every
other one is replaced too, also where it stood before: both ways of writing end up as one.
-/

namespace MessageCatalog.Text

/-! ## Trimming characters -/

/-- A text that neither begins nor ends with white space. -/
structure IsTight (cs : List Char) : Prop where
  head : ∀ c ∈ cs.head?, isBlank c = false
  last : ∀ c ∈ cs.getLast?, isBlank c = false

theorem dropWhile_isBlank_append {front cs : List Char} (hfront : ∀ c ∈ front, isBlank c = true)
    (hcs : ∀ c ∈ cs.head?, isBlank c = false) : (front ++ cs).dropWhile isBlank = cs := by
  rw [List.dropWhile_append_of_pos hfront]
  cases cs with
  | nil => rfl
  | cons c rest => exact List.dropWhile_cons_of_neg (Bool.eq_false_iff.mp (hcs c rfl))

@[simp] theorem trimChars_eq_nil_iff {cs : List Char} :
    trimChars cs = [] ↔ ∀ c ∈ cs, isBlank c = true := by
  rw [trimChars, List.reverse_eq_nil_iff, List.dropWhile_eq_nil_iff]
  simp only [List.mem_reverse]
  constructor
  · intro h
    -- what is not dropped begins with white space, so nothing is left
    rw [← List.dropWhile_eq_nil_iff]
    have hfirst := List.head?_dropWhile_not isBlank cs
    cases hdrop : cs.dropWhile isBlank with
    | nil => rfl
    | cons c rest =>
      rw [hdrop] at h hfirst
      exact absurd (h c List.mem_cons_self) (Bool.eq_false_iff.mp hfirst)
  · intro h c hc
    exact h c ((List.dropWhile_suffix isBlank).subset hc)

theorem trimChars_append {front cs back : List Char} (hfront : ∀ c ∈ front, isBlank c = true)
    (hcs : IsTight cs) (hback : ∀ c ∈ back, isBlank c = true) :
    trimChars (front ++ cs ++ back) = cs := by
  by_cases hne : cs = []
  · subst hne
    rw [trimChars_eq_nil_iff]
    simpa [or_imp, forall_and] using ⟨hfront, hback⟩
  · have hhead : ∀ c ∈ (cs ++ back).head?, isBlank c = false := by
      rw [List.head?_append_of_ne_nil _ hne]
      exact hcs.head
    have hlast : ∀ c ∈ cs.reverse.head?, isBlank c = false := by
      rw [List.head?_reverse]
      exact hcs.last
    have hback' : ∀ c ∈ back.reverse, isBlank c = true := fun c hc ↦
      hback c (List.mem_reverse.mp hc)
    rw [trimChars, List.append_assoc, dropWhile_isBlank_append hfront hhead, List.reverse_append,
      dropWhile_isBlank_append hback' hlast, List.reverse_reverse]

theorem exists_eq_append_trimChars (cs : List Char) :
    ∃ front back, cs = front ++ trimChars cs ++ back
      ∧ (∀ c ∈ front, isBlank c = true) ∧ ∀ c ∈ back, isBlank c = true := by
  have hend : trimChars cs ++ (cs.dropWhile isBlank).rtakeWhile isBlank = cs.dropWhile isBlank :=
    List.rdropWhile_append_rtakeWhile
  refine ⟨cs.takeWhile isBlank, (cs.dropWhile isBlank).rtakeWhile isBlank, ?_,
    fun c ↦ List.mem_takeWhile_imp, fun c ↦ List.mem_rtakeWhile_imp⟩
  rw [List.append_assoc, hend, List.takeWhile_append_dropWhile]

theorem isTight_trimChars (cs : List Char) : IsTight (trimChars cs) where
  head := by
    intro c hc
    obtain ⟨rest, hrest⟩ := List.head?_eq_some_iff.mp hc
    -- trimming at the end leaves the first character in its place
    obtain ⟨back, hback⟩ := List.rdropWhile_prefix isBlank (l := cs.dropWhile isBlank)
    have hfirst := List.head?_dropWhile_not isBlank cs
    have heq : trimChars cs ++ back = cs.dropWhile isBlank := hback
    rw [← heq, hrest] at hfirst
    exact hfirst
  last := by
    intro c hc
    obtain ⟨hne, rfl⟩ := List.mem_getLast?_eq_getLast hc
    exact Bool.eq_false_iff.mpr (List.rdropWhile_last_not _ _ hne)

/-- The trimmed text is the one without white space at its ends that stands between white space. -/
theorem trimChars_eq_iff {cs trimmed : List Char} :
    trimChars cs = trimmed
      ↔ IsTight trimmed ∧ ∃ front back, cs = front ++ trimmed ++ back
        ∧ (∀ c ∈ front, isBlank c = true) ∧ ∀ c ∈ back, isBlank c = true := by
  constructor
  · rintro rfl
    exact ⟨isTight_trimChars cs, exists_eq_append_trimChars cs⟩
  · rintro ⟨htight, front, back, rfl, hfront, hback⟩
    exact trimChars_append hfront htight hback

theorem trimChars_eq_self {cs : List Char} (h : IsTight cs) : trimChars cs = cs := by
  refine trimChars_eq_iff.mpr ⟨h, [], [], ?_, ?_, ?_⟩ <;> simp

/-! ## Trimming texts -/

@[simp] theorem toList_trim (s : String) : (trim s).toList = trimChars s.toList :=
  String.toList_ofList

theorem trim_eq_iff {s trimmed : String} :
    trim s = trimmed
      ↔ IsTight trimmed.toList ∧ ∃ front back : String, s = front ++ trimmed ++ back
        ∧ (∀ c ∈ front.toList, isBlank c = true) ∧ ∀ c ∈ back.toList, isBlank c = true := by
  rw [← String.toList_inj, toList_trim, trimChars_eq_iff]
  refine and_congr_right fun htight ↦ ?_
  constructor
  · rintro ⟨front, back, hs, hfront, hback⟩
    refine ⟨String.ofList front, String.ofList back, ?_, ?_, ?_⟩
    · rw [← String.toList_inj, String.toList_append, String.toList_append, String.toList_ofList,
        String.toList_ofList, hs]
    · rwa [String.toList_ofList]
    · rwa [String.toList_ofList]
  · rintro ⟨front, back, rfl, hfront, hback⟩
    refine ⟨front.toList, back.toList, ?_, hfront, hback⟩
    rw [String.toList_append, String.toList_append]

theorem trim_eq_self {s : String} (h : IsTight s.toList) : trim s = s := by
  rw [← String.toList_inj, toList_trim, trimChars_eq_self h]

/-! ## Replacing characters -/

section

variable {a b : Char} {s : String}

@[simp] theorem toList_replaceChar (a b : Char) (s : String) :
    (replaceChar a b s).toList = s.toList.map fun c ↦ if c = a then b else c :=
  String.toList_ofList

@[simp] theorem replaceChar_eq_empty_iff : replaceChar a b s = "" ↔ s = "" := by
  rw [← String.toList_eq_nil_iff, toList_replaceChar, List.map_eq_nil_iff, String.toList_eq_nil_iff]

theorem notMem_replaceChar (h : a ≠ b) : a ∉ (replaceChar a b s).toList := by
  rw [toList_replaceChar, List.mem_map]
  rintro ⟨c, -, hc⟩
  split_ifs at hc with heq
  · exact h hc.symm
  · exact heq hc

theorem replaceChar_eq_self (h : a ∉ s.toList) : replaceChar a b s = s := by
  have hkept : ∀ c ∈ s.toList, (if c = a then b else c) = c := by
    intro c hc
    refine if_neg ?_
    rintro rfl
    exact h hc
  rw [← String.toList_inj, toList_replaceChar, List.map_congr_left hkept, List.map_id']

/-- To replace back is to replace wherever the other character stood, before or since. -/
@[simp] theorem replaceChar_replaceChar (a b : Char) (s : String) :
    replaceChar b a (replaceChar a b s) = replaceChar b a s := by
  rw [← String.toList_inj, toList_replaceChar, toList_replaceChar, toList_replaceChar,
    List.map_map]
  refine List.map_congr_left fun c _ ↦ ?_
  by_cases ha : c = a
  · rw [Function.comp_apply, if_pos ha, if_pos rfl, ha, ite_self]
  · rw [Function.comp_apply, if_neg ha]

/-- No white space comes to the ends of a text by replacing what is none by what is none. -/
theorem IsTight.replaceChar (h : IsTight s.toList) (hb : isBlank b = false) :
    IsTight (replaceChar a b s).toList := by
  have hkept : ∀ c, isBlank c = false → isBlank (if c = a then b else c) = false := by
    intro c hc
    split_ifs
    · exact hb
    · exact hc
  rw [toList_replaceChar]
  constructor
  case head =>
    intro c hc
    rw [List.head?_map] at hc
    obtain ⟨c, hfirst, rfl⟩ := Option.map_eq_some_iff.mp hc
    exact hkept c (h.head c hfirst)
  case last =>
    intro c hc
    rw [List.getLast?_map] at hc
    obtain ⟨c, hlast, rfl⟩ := Option.map_eq_some_iff.mp hc
    exact hkept c (h.last c hlast)

end

end MessageCatalog.Text
