import MessageCatalog.Markup.Scanner
import MessageCatalog.Markup.Tree
import MessageCatalog.Proofs.Markup.Coding

/-!
# Tags in their written form

A tag is written as its name and its attributes, each after one space and in double quotes. Read
back, it has that name (`Tag.ofContent_tagContent`), and those attributes if the coding holds all
their values (`Tag.attributes_written`); a value that is not held is a fault of the whole tag
(`Tag.attributes_written_error`).

The keys that have been met are kept by the reader with their offsets. Only that none of them comes
again matters here, so offsets are carried along and never compared.
-/

namespace MessageCatalog.Markup

open Text

/-! ## Names -/

theorem isBlank_of_isNameChar {c : Char} (h : isNameChar c = true) : isBlank c = false := by
  rw [isNameChar, Bool.and_eq_true] at h
  exact Bool.not_eq_true' _ ▸ h.1

theorem ne_of_isNameChar {c d : Char} (h : isNameChar c = true) (hd : isNameChar d = false) :
    c ≠ d := by
  rintro rfl
  exact Bool.noConfusion (h.symm.trans hd)

theorem isNameChar_of_isName {name : String} (h : isName name = true) :
    ∀ c ∈ name.toList, isNameChar c = true := by
  rw [isName, Bool.and_eq_true, List.all_eq_true] at h
  exact h.2

theorem exists_cons_of_isName {name : String} (h : isName name = true) :
    ∃ c cs, name.toList = c :: cs := by
  rw [isName, Bool.and_eq_true, decide_eq_true_eq] at h
  cases hlist : name.toList with
  | nil => exact absurd (String.toList_eq_nil_iff.mp hlist) h.1
  | cons c cs => exact ⟨c, cs, rfl⟩

theorem areAttributes_iff {attributes : List Attribute} :
    areAttributes attributes = true
      ↔ (∀ a ∈ attributes, isName a.key = true) ∧ (attributes.map (·.key)).Nodup := by
  rw [areAttributes, Bool.and_eq_true, List.all_eq_true, decide_eq_true_eq]

/-! ## The written form -/

section

variable (code : Coding)

def Attribute.written (a : Attribute) : List Char :=
  ' ' :: a.key.toList ++ "=\"".toList ++ code.write a.value.toList ++ ['"']

/-- What stands between the `<` of a tag and its end. -/
def tagContent (name : String) (attributes : List Attribute) : List Char :=
  name.toList ++ attributes.flatMap (Attribute.written code)

/-- The tag that is written with a name and attributes. -/
def Tag.written (name : String) (attributes : List Attribute) : Tag :=
  ⟨name, attributes.flatMap (Attribute.written code)⟩

/-- Whether a coding holds the values of all attributes. -/
def Coding.holdsAll (attributes : List Attribute) : Bool :=
  attributes.all fun a ↦ code.holds a.value.toList

end

variable {code : Coding}

/-- The name of a tag ends at its first blank. -/
theorem Tag.ofContent_append {name : String} {body : List Char} (h : isName name = true)
    (hbody : ∀ c ∈ body.head?, isBlank c = true) :
    Tag.ofContent (name.toList ++ body) = ⟨name, body⟩ := by
  have hname : ∀ c ∈ name.toList, (!isBlank c) = true := by
    intro c hc
    rw [isBlank_of_isNameChar (isNameChar_of_isName h c hc)]
    rfl
  have hrest : body.takeWhile (fun c ↦ !isBlank c) = []
      ∧ body.dropWhile (fun c ↦ !isBlank c) = body := by
    cases body with
    | nil => exact ⟨rfl, rfl⟩
    | cons c body =>
      have hc : ¬(!isBlank c) = true := by
        rw [hbody c rfl]
        decide
      exact ⟨List.takeWhile_cons_of_neg hc, List.dropWhile_cons_of_neg hc⟩
  rw [Tag.ofContent, List.takeWhile_append_of_pos hname, List.dropWhile_append_of_pos hname,
    hrest.1, hrest.2, List.append_nil, String.ofList_toList]

theorem Tag.ofContent_tagContent {name : String} (h : isName name = true)
    (attributes : List Attribute) :
    Tag.ofContent (tagContent code name attributes) = Tag.written code name attributes := by
  refine Tag.ofContent_append h fun c hc ↦ ?_
  cases attributes with
  | nil => cases hc
  | cons a rest =>
    obtain rfl : ' ' = c := Option.some.inj hc
    decide

/-! ## Reading attributes back -/

private theorem attributesFrom_key (seen : SeenKeys) (start : Nat) (rest : List Char) :
    ∀ (cs read : List Char) (pos : Nat), (∀ c ∈ cs, isNameChar c = true) →
      attributesFrom seen (.key start read) pos (cs ++ rest)
        = attributesFrom seen (.key start (cs.reverse ++ read)) (pos + byteWidth cs) rest := by
  intro cs
  induction cs with
  | nil => intro read pos _; rfl
  | cons c cs ih =>
    intro read pos h
    have hc := h c List.mem_cons_self
    have hstep : (AttributePlace.key start read).step pos c = .go (.key start (c :: read)) := by
      rw [AttributePlace.step, if_neg (ne_of_isNameChar hc (by decide)),
        if_neg (Bool.eq_false_iff.mp (isBlank_of_isNameChar hc))]
    rw [List.cons_append, attributesFrom, hstep]
    simp only
    rw [ih _ _ fun d hd ↦ h d (List.mem_cons_of_mem c hd), byteWidth_cons, Nat.add_assoc,
      List.reverse_cons, ← List.append_cons]

private theorem attributesFrom_value (seen : SeenKeys) (name : List Char) (quote : Char)
    (rest : List Char) :
    ∀ (cs read : List Char) (pos : Nat), (∀ c ∈ cs, c ≠ quote) →
      attributesFrom seen (.value name quote read) pos (cs ++ rest)
        = attributesFrom seen (.value name quote (cs.reverse ++ read)) (pos + byteWidth cs)
            rest := by
  intro cs
  induction cs with
  | nil => intro read pos _; rfl
  | cons c cs ih =>
    intro read pos h
    have hstep : (AttributePlace.value name quote read).step pos c
        = .go (.value name quote (c :: read)) := by
      rw [AttributePlace.step, if_neg (h c List.mem_cons_self)]
    rw [List.cons_append, attributesFrom, hstep]
    simp only
    rw [ih _ _ fun d hd ↦ h d (List.mem_cons_of_mem c hd), byteWidth_cons, Nat.add_assoc,
      List.reverse_cons, ← List.append_cons]

/-- Reading one written attribute: its key is new, so its value is decoded, and the rest of the tag
is read with one more key to remember. -/
private theorem attributesFrom_written {a : Attribute} (hkey : isName a.key = true)
    {seen : SeenKeys} (hnew : ∀ s ∈ seen, s.2 ≠ a.key.toList.reverse) (pos : Nat)
    (rest : List Char) :
    ∃ stop, attributesFrom seen .gap pos (a.written code ++ rest)
      = (Attribute.ofStored a.key.toList.reverse (code.write a.value.toList).reverse).bind
          fun b ↦ (attributesFrom (seen ++ [(pos + 1, a.key.toList.reverse)]) .gap stop rest).map
            (b :: ·) := by
  obtain ⟨c, cs, hlist⟩ := exists_cons_of_isName hkey
  have hchars := isNameChar_of_isName hkey
  rw [hlist] at hchars
  have hgap : AttributePlace.gap.step (pos + 1) c = .go (.key (pos + 1) [c]) := by
    rw [AttributePlace.step,
      if_neg (Bool.eq_false_iff.mp (isBlank_of_isNameChar (hchars c List.mem_cons_self)))]
  have hfind : seen.find? (fun s ↦ decide (s.2 = a.key.toList.reverse)) = none := by
    rw [List.find?_eq_none]
    intro s hs
    rw [decide_eq_true_eq]
    exact hnew s hs
  have hvalue : ∀ d ∈ code.write a.value.toList, d ≠ '"' := fun d hd ↦ (code.plain _ d hd).2
  have hshape : a.written code ++ rest
      = ' ' :: c :: (cs ++ '=' :: '"' :: (code.write a.value.toList ++ '"' :: rest)) := by
    rw [Attribute.written, hlist]
    simp only [List.cons_append, List.append_assoc, List.nil_append]
    rfl
  have hkeyEnd : [c].reverse ++ cs = a.key.toList := hlist.symm
  refine ⟨pos + 1 + c.utf8Size + byteWidth cs + 1 + 1 + byteWidth (code.write a.value.toList) + 1,
    ?_⟩
  -- a space, the first character of the key, its other characters, and the equals sign
  rw [hshape, attributesFrom, show AttributePlace.gap.step pos ' ' = .go .gap from rfl]
  simp only
  rw [attributesFrom, show pos + Char.utf8Size ' ' = pos + 1 from rfl, hgap]
  simp only
  rw [attributesFrom_key seen (pos + 1) _ cs [c] _ fun d hd ↦ hchars d (List.mem_cons_of_mem c hd),
    attributesFrom, AttributePlace.step, if_pos rfl]
  have hread : cs.reverse ++ [c] = a.key.toList.reverse := by
    rw [← hkeyEnd, List.reverse_append, List.reverse_reverse]
  rw [hread]
  simp only [hfind]
  -- the opening quote, the value, and the closing quote
  rw [attributesFrom, AttributePlace.step, if_neg (by decide), if_pos (Or.inl rfl)]
  simp only
  rw [attributesFrom_value _ _ '"' _ _ _ _ hvalue, attributesFrom, AttributePlace.step,
    if_pos rfl, List.append_nil]
  rfl

/-- What a written attribute is read as, if its value is held. -/
private theorem ofStored_write {a : Attribute} (h : code.holds a.value.toList = true) :
    Attribute.ofStored a.key.toList.reverse (code.write a.value.toList).reverse = .ok a := by
  rw [Attribute.ofStored, List.reverse_reverse, (code.denotes _ h).decode_eq]
  simp only [List.reverse_reverse, String.ofList_toList]

private theorem ofStored_write_error {a : Attribute} (h : code.holds a.value.toList = false) :
    ∃ fault, Attribute.ofStored a.key.toList.reverse (code.write a.value.toList).reverse
      = .error fault := by
  obtain ⟨fault, hfault⟩ := (code.spoils _ h).decode_eq
  refine ⟨.reference fault, ?_⟩
  rw [Attribute.ofStored, List.reverse_reverse, hfault]

/-- After one attribute with a key that does not come again, the remaining keys are still new. -/
private theorem new_append {a : Attribute} {rest : List Attribute} {seen : SeenKeys} (pos : Nat)
    (hnodup : (List.map (·.key) (a :: rest)).Nodup)
    (hnew : ∀ b ∈ a :: rest, ∀ s ∈ seen, s.2 ≠ b.key.toList.reverse) :
    ∀ b ∈ rest, ∀ s ∈ seen ++ [(pos, a.key.toList.reverse)], s.2 ≠ b.key.toList.reverse := by
  rw [List.map_cons, List.nodup_cons] at hnodup
  intro b hb s hs
  rcases List.mem_append.mp hs with hs | hs
  · exact hnew b (List.mem_cons_of_mem a hb) s hs
  · rw [List.mem_singleton.mp hs]
    intro hsame
    have hkey : a.key = b.key := String.toList_inj.mp (List.reverse_inj.mp hsame)
    exact hnodup.1 (hkey ▸ List.mem_map_of_mem hb)

private theorem attributesFrom_flatMap : ∀ (attributes : List Attribute) (seen : SeenKeys)
    (pos : Nat), (∀ a ∈ attributes, isName a.key = true) → (attributes.map (·.key)).Nodup →
    (∀ a ∈ attributes, ∀ s ∈ seen, s.2 ≠ a.key.toList.reverse) →
    code.holdsAll attributes = true →
      attributesFrom seen .gap pos (attributes.flatMap (Attribute.written code))
        = .ok attributes := by
  intro attributes
  induction attributes with
  | nil => intro seen pos _ _ _ _; rfl
  | cons a rest ih =>
    intro seen pos hnames hnodup hnew hheld
    rw [Coding.holdsAll, List.all_cons, Bool.and_eq_true] at hheld
    obtain ⟨stop, hstep⟩ := attributesFrom_written (hnames a List.mem_cons_self)
      (hnew a List.mem_cons_self) pos (rest.flatMap (Attribute.written code))
    rw [List.flatMap_cons, hstep, ofStored_write hheld.1]
    have hrest := ih _ stop (fun b hb ↦ hnames b (List.mem_cons_of_mem a hb))
      (List.nodup_cons.mp hnodup).2 (new_append (pos + 1) hnodup hnew) hheld.2
    exact congrArg (Except.map (a :: ·)) hrest

private theorem attributesFrom_flatMap_error : ∀ (attributes : List Attribute) (seen : SeenKeys)
    (pos : Nat), (∀ a ∈ attributes, isName a.key = true) → (attributes.map (·.key)).Nodup →
    (∀ a ∈ attributes, ∀ s ∈ seen, s.2 ≠ a.key.toList.reverse) →
    code.holdsAll attributes = false →
      ∃ fault, attributesFrom seen .gap pos (attributes.flatMap (Attribute.written code))
        = .error fault := by
  intro attributes
  induction attributes with
  | nil => intro seen pos _ _ _ h; exact Bool.noConfusion h
  | cons a rest ih =>
    intro seen pos hnames hnodup hnew hspoilt
    rw [Coding.holdsAll, List.all_cons] at hspoilt
    obtain ⟨stop, hstep⟩ := attributesFrom_written (hnames a List.mem_cons_self)
      (hnew a List.mem_cons_self) pos (rest.flatMap (Attribute.written code))
    rw [List.flatMap_cons, hstep]
    cases hheld : code.holds a.value.toList with
    | false =>
      obtain ⟨fault, hfault⟩ := ofStored_write_error hheld
      exact ⟨fault, by rw [hfault]; rfl⟩
    | true =>
      rw [hheld, Bool.true_and] at hspoilt
      obtain ⟨fault, hfault⟩ := ih _ stop (fun b hb ↦ hnames b (List.mem_cons_of_mem a hb))
        (List.nodup_cons.mp hnodup).2 (new_append (pos + 1) hnodup hnew) hspoilt
      exact ⟨fault, by rw [ofStored_write hheld]; exact congrArg (Except.map (a :: ·)) hfault⟩

variable {name : String} {attributes : List Attribute}

theorem Tag.attributes_written (h : areAttributes attributes = true)
    (hheld : code.holdsAll attributes = true) :
    (Tag.written code name attributes).attributes = .ok attributes := by
  rw [areAttributes_iff] at h
  exact attributesFrom_flatMap attributes [] _ h.1 h.2
    (fun _ _ _ hs ↦ absurd hs List.not_mem_nil) hheld

theorem Tag.attributes_written_error (h : areAttributes attributes = true)
    (hspoilt : code.holdsAll attributes = false) :
    ∃ fault, (Tag.written code name attributes).attributes = .error fault := by
  rw [areAttributes_iff] at h
  exact attributesFrom_flatMap_error attributes [] _ h.1 h.2
    (fun _ _ _ hs ↦ absurd hs List.not_mem_nil) hspoilt

end MessageCatalog.Markup
