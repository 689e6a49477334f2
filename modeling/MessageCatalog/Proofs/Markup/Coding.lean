import Mathlib.Data.List.Basic
import Mathlib.Tactic.SplitIfs
import MessageCatalog.Markup.Reference

/-!
# Texts in their written form

Two ways of writing a text occur in documents: `escape` names the markup characters, `encode` also
stores control characters by number. What a reader of documents needs to know of either is the same,
and is gathered in `Coding`: which texts can be written, and that those are read back as they were
whatever stands around them, while the others spoil every piece that they are written into.

## Pieces in context

`decode` reads a whole piece from its first byte to its last, and the ranges in its faults count
from there. Statements about it are therefore made of `decodeFrom` at any position, in a piece of
any width, with anything following: `Denotes` and `Spoils`. In this form they compose, one character
of a text after another (`Denotes.append`, `Denotes.append_spoils`).
-/

namespace MessageCatalog.Markup

open Text

/-! ## Pieces and what they stand for -/

/-- Whether characters are written in full, and stand for a text whatever follows them. -/
def Denotes (raw text : List Char) : Prop :=
  ∀ total pos rest, decodeFrom total .outside pos (raw ++ rest)
    = (decodeFrom total .outside (pos + byteWidth raw) rest).map (text ++ ·)

/-- Whether characters hold a reference that cannot be resolved, whatever follows them. -/
def Spoils (raw : List Char) : Prop :=
  ∀ total pos rest, ∃ fault, decodeFrom total .outside pos (raw ++ rest) = .error fault

theorem Denotes.nil : Denotes [] [] := by
  intro total pos rest
  rw [List.nil_append, byteWidth_nil, Nat.add_zero]
  exact (congrFun Except.map_id _).symm

theorem Denotes.append {a b s t : List Char} (ha : Denotes a s) (hb : Denotes b t) :
    Denotes (a ++ b) (s ++ t) := by
  intro total pos rest
  rw [List.append_assoc, ha, hb, byteWidth_append, Nat.add_assoc]
  cases decodeFrom total .outside (pos + (byteWidth a + byteWidth b)) rest with
  | error e => rfl
  | ok u => exact congrArg Except.ok (List.append_assoc s t u).symm

theorem Denotes.append_spoils {a b s : List Char} (ha : Denotes a s) (hb : Spoils b) :
    Spoils (a ++ b) := by
  intro total pos rest
  obtain ⟨fault, h⟩ := hb total (pos + byteWidth a) rest
  exact ⟨fault, by rw [List.append_assoc, ha, h]; rfl⟩

theorem Spoils.append {a : List Char} (ha : Spoils a) (b : List Char) : Spoils (a ++ b) := by
  intro total pos rest
  rw [List.append_assoc]
  exact ha total pos (b ++ rest)

theorem Denotes.decode_eq {raw text : List Char} (h : Denotes raw text) :
    decode raw = .ok text := by
  have hraw := h (byteWidth raw) 0 []
  rw [List.append_nil] at hraw
  rw [decode, hraw, decodeFrom]
  exact congrArg Except.ok (List.append_nil text)

theorem Spoils.decode_eq {raw : List Char} (h : Spoils raw) :
    ∃ fault, decode raw = .error fault := by
  have hraw := h (byteWidth raw) 0 []
  rwa [List.append_nil] at hraw

/-! ## Characters and references -/

theorem denotes_char {c : Char} (h : c ≠ '&') : Denotes [c] [c] := by
  intro total pos rest
  rw [List.cons_append, List.nil_append, decodeFrom, if_neg h, byteWidth_cons, byteWidth_nil,
    Nat.add_zero]
  rfl

theorem denotes_self {cs : List Char} (h : ∀ c ∈ cs, c ≠ '&') : Denotes cs cs := by
  induction cs with
  | nil => exact .nil
  | cons c cs ih =>
    exact (denotes_char (h c List.mem_cons_self)).append
      (ih fun d hd ↦ h d (List.mem_cons_of_mem c hd))

private theorem decodeFrom_inside (total start : Nat) (rest : List Char) :
    ∀ (name read : List Char) (pos : Nat), (∀ c ∈ name, c ≠ ';' ∧ c ≠ '&') →
      decodeFrom total (.inside start read) pos (name ++ ';' :: rest)
        = (resolve start (read.reverse ++ name)).bind fun d ↦
            (decodeFrom total .outside (pos + byteWidth name + 1) rest).map (d :: ·) := by
  intro name
  induction name with
  | nil =>
    intro read pos _
    rw [List.nil_append, decodeFrom, if_pos rfl, List.append_nil, byteWidth_nil, Nat.add_zero]
  | cons c name ih =>
    intro read pos h
    have hc := h c List.mem_cons_self
    have hname : ∀ d ∈ name, d ≠ ';' ∧ d ≠ '&' := fun d hd ↦ h d (List.mem_cons_of_mem c hd)
    rw [List.cons_append, decodeFrom, if_neg hc.1, if_neg hc.2, ih _ _ hname, List.reverse_cons,
      ← List.append_cons, byteWidth_cons, Nat.add_assoc pos]

private theorem decodeFrom_reference (total pos : Nat) {name : List Char}
    (h : ∀ c ∈ name, c ≠ ';' ∧ c ≠ '&') (rest : List Char) :
    decodeFrom total .outside pos ('&' :: (name ++ ';' :: rest))
      = (resolve pos name).bind fun d ↦
          (decodeFrom total .outside (pos + byteWidth ('&' :: (name ++ [';']))) rest).map
            (d :: ·) := by
  have hwidth : pos + byteWidth ('&' :: (name ++ [';'])) = pos + 1 + byteWidth name + 1 := by
    rw [byteWidth_cons, byteWidth_append, byteWidth_cons, byteWidth_nil,
      show Char.utf8Size '&' = 1 from rfl, show Char.utf8Size ';' = 1 from rfl]
    omega
  rw [decodeFrom, if_pos rfl, decodeFrom_inside total pos rest name [] (pos + 1) h, hwidth,
    List.reverse_nil, List.nil_append]

theorem forall_mem_of_all {p : Char → Prop} [DecidablePred p] {cs : List Char}
    (h : cs.all (fun c ↦ decide (p c)) = true) : ∀ c ∈ cs, p c :=
  fun c hc ↦ of_decide_eq_true (List.all_eq_true.mp h c hc)

theorem denotes_reference (name : List Char) {c : Char} (h : ∀ d ∈ name, d ≠ ';' ∧ d ≠ '&')
    (hc : ∀ start, resolve start name = .ok c) : Denotes ('&' :: (name ++ [';'])) [c] := by
  intro total pos rest
  rw [List.cons_append, List.append_assoc, List.singleton_append,
    decodeFrom_reference total pos h rest, hc]
  rfl

theorem spoils_reference (name : List Char) (h : ∀ d ∈ name, d ≠ ';' ∧ d ≠ '&')
    (hname : ∀ start, ∃ fault, resolve start name = .error fault) :
    Spoils ('&' :: (name ++ [';'])) := by
  intro total pos rest
  obtain ⟨fault, hfault⟩ := hname pos
  refine ⟨fault, ?_⟩
  rw [List.cons_append, List.append_assoc, List.singleton_append,
    decodeFrom_reference total pos h rest, hfault]
  rfl

/-! ## Escaping -/

theorem denotes_escapeChar (c : Char) : Denotes (escapeChar c) [c] := by
  unfold escapeChar
  split_ifs with hlt hgt hamp hapos hquot
  · exact hlt ▸ denotes_reference "lt".toList (forall_mem_of_all (by decide)) fun _ ↦ rfl
  · exact hgt ▸ denotes_reference "gt".toList (forall_mem_of_all (by decide)) fun _ ↦ rfl
  · exact hamp ▸ denotes_reference "amp".toList (forall_mem_of_all (by decide)) fun _ ↦ rfl
  · exact hapos ▸ denotes_reference "apos".toList (forall_mem_of_all (by decide)) fun _ ↦ rfl
  · exact hquot ▸ denotes_reference "quot".toList (forall_mem_of_all (by decide)) fun _ ↦ rfl
  · exact denotes_char hamp

/-- Escaped characters hold neither the beginning of a tag nor the end of an attribute value. -/
private theorem ne_of_mem_escapeChar {c d : Char} (h : d ∈ escapeChar c) : d ≠ '<' ∧ d ≠ '"' := by
  have hnamed : ∀ cs : List Char, cs.all (fun x ↦ decide (x ≠ '<' ∧ x ≠ '"')) = true → d ∈ cs →
      d ≠ '<' ∧ d ≠ '"' := fun cs hall hmem ↦ forall_mem_of_all hall d hmem
  unfold escapeChar at h
  split_ifs at h with hlt hgt hamp hapos hquot
  · exact hnamed "&lt;".toList (by decide) h
  · exact hnamed "&gt;".toList (by decide) h
  · exact hnamed "&amp;".toList (by decide) h
  · exact hnamed "&apos;".toList (by decide) h
  · exact hnamed "&quot;".toList (by decide) h
  · rw [List.mem_singleton.mp h]
    exact ⟨hlt, hquot⟩

/-! ## Storing -/

/-- Whether a character is neither markup, apart from the ampersand, nor a control character that
documents may not hold. -/
def IsPlain (c : Char) : Prop :=
  c ≠ '<' ∧ c ≠ '>' ∧ c ≠ '"' ∧ c ≠ '\'' ∧ (c.toNat < 0x20 → c = '\t' ∨ c = '\n' ∨ c = '\r')

instance : DecidablePred IsPlain :=
  fun c ↦ inferInstanceAs (Decidable (c ≠ '<' ∧ c ≠ '>' ∧ c ≠ '"' ∧ c ≠ '\''
    ∧ (c.toNat < 0x20 → c = '\t' ∨ c = '\n' ∨ c = '\r')))

/-- Whether characters are what stands between the ampersand and the semicolon of a reference to
one of the five named characters, or of one by number to a control character. -/
def IsStoredName (name : List Char) : Prop :=
  name ∈ ["lt", "gt", "amp", "apos", "quot"].map String.toList
    ∨ ∃ code < 0x20, name = '#' :: 'x' :: hexDigits code

/-- A name holds no character with a role in documents or in references. -/
theorem IsStoredName.isPlain {name : List Char} (h : IsStoredName name) :
    ∀ d ∈ name, IsPlain d ∧ d ≠ ';' ∧ d ≠ '&' := by
  have hnamed : ∀ name ∈ ["lt", "gt", "amp", "apos", "quot"].map String.toList,
      name.all (fun d ↦ decide (IsPlain d ∧ d ≠ ';' ∧ d ≠ '&')) = true := by
    decide
  have hnumbered : ∀ code < 0x20, ('#' :: 'x' :: hexDigits code).all
      (fun d ↦ decide (IsPlain d ∧ d ≠ ';' ∧ d ≠ '&')) = true := by
    decide
  rcases h with h | ⟨code, hcode, rfl⟩
  · exact forall_mem_of_all (hnamed name h)
  · exact forall_mem_of_all (hnumbered code hcode)

theorem isStoredByNumber_eq_false_iff {c : Char} :
    isStoredByNumber c = false ↔ (c.toNat < 0x20 → c = '\t' ∨ c = '\n' ∨ c = '\r') := by
  rw [isStoredByNumber, Bool.eq_false_iff, ne_eq]
  simp only [Bool.and_eq_true, decide_eq_true_eq, and_assoc]
  tauto

/-- What is stored by number has a number of at most two digits. -/
private theorem codePoint_hexDigits : ∀ n < 0x20, codePoint ('x' :: hexDigits n) = .ok n := by
  decide

theorem toNat_lt_of_isStoredByNumber {c : Char} (h : isStoredByNumber c = true) :
    c.toNat < 0x20 := by
  simp only [isStoredByNumber, Bool.and_eq_true, decide_eq_true_eq] at h
  exact h.1.1.1

theorem encodeChar_of_isStoredByNumber {c : Char} (h : isStoredByNumber c = true) :
    encodeChar c = '&' :: (('#' :: 'x' :: hexDigits c.toNat) ++ [';']) := by
  rw [encodeChar, if_pos h]
  rfl

theorem isStoredName_of_isStoredByNumber {c : Char} (h : isStoredByNumber c = true) :
    IsStoredName ('#' :: 'x' :: hexDigits c.toNat) :=
  Or.inr ⟨c.toNat, toNat_lt_of_isStoredByNumber h, rfl⟩

theorem encodeChar_cases (c : Char) :
    encodeChar c = [c] ∧ IsPlain c ∧ c ≠ '&'
      ∨ ∃ name, IsStoredName name ∧ encodeChar c = '&' :: (name ++ [';']) := by
  by_cases hn : isStoredByNumber c = true
  · exact Or.inr ⟨_, isStoredName_of_isStoredByNumber hn, encodeChar_of_isStoredByNumber hn⟩
  · rw [encodeChar, if_neg hn]
    unfold escapeChar
    split_ifs with hlt hgt hamp hapos hquot
    · exact Or.inr ⟨"lt".toList, Or.inl (by decide), rfl⟩
    · exact Or.inr ⟨"gt".toList, Or.inl (by decide), rfl⟩
    · exact Or.inr ⟨"amp".toList, Or.inl (by decide), rfl⟩
    · exact Or.inr ⟨"apos".toList, Or.inl (by decide), rfl⟩
    · exact Or.inr ⟨"quot".toList, Or.inl (by decide), rfl⟩
    · have hcontrol := isStoredByNumber_eq_false_iff.mp (Bool.eq_false_iff.mpr hn)
      exact Or.inl ⟨rfl, ⟨hlt, hgt, hquot, hapos, hcontrol⟩, hamp⟩

theorem isPlain_of_mem_encodeChar {c d : Char} (h : d ∈ encodeChar c) : IsPlain d := by
  rcases encodeChar_cases c with ⟨hself, hplain, -⟩ | ⟨name, hname, hreference⟩
  · rw [hself] at h
    rwa [List.mem_singleton.mp h]
  · rw [hreference, List.mem_cons, List.mem_append, List.mem_singleton] at h
    rcases h with rfl | h | rfl
    · decide
    · exact (hname.isPlain d h).1
    · decide

private theorem resolve_storedName {c : Char} (h : isStoredByNumber c = true) (start : Nat) :
    resolve start ('#' :: 'x' :: hexDigits c.toNat)
      = scalar start (start + 1 + byteWidth ('#' :: 'x' :: hexDigits c.toNat)) c.toNat := by
  rw [resolve, codePoint_hexDigits _ (toNat_lt_of_isStoredByNumber h)]
  rfl

theorem denotes_encodeChar {c : Char} (h : c ≠ '\x00') : Denotes (encodeChar c) [c] := by
  by_cases hn : isStoredByNumber c = true
  · rw [encodeChar_of_isStoredByNumber hn]
    have hname := (isStoredName_of_isStoredByNumber hn).isPlain
    refine denotes_reference _ (fun d hd ↦ (hname d hd).2) fun start ↦ ?_
    -- of all characters that are stored by number, U+0000 alone is refused
    have hne : c.toNat ≠ 0 := fun h0 ↦ h (Char.toNat_inj.mp h0)
    have hvalid : c.toNat.isValidChar := c.valid
    rw [resolve_storedName hn, scalar, if_neg hne, if_pos hvalid, Char.ofNat_toNat]
  · rw [encodeChar, if_neg hn]
    exact denotes_escapeChar c

theorem spoils_encodeChar_null : Spoils (encodeChar '\x00') :=
  spoils_reference "#x0".toList (forall_mem_of_all (by decide)) fun start ↦
    ⟨.null start (start + 4), rfl⟩

/-- Stored characters hold neither the beginning of a tag nor the end of an attribute value. -/
private theorem ne_of_mem_encodeChar {c d : Char} (h : d ∈ encodeChar c) : d ≠ '<' ∧ d ≠ '"' :=
  ⟨(isPlain_of_mem_encodeChar h).1, (isPlain_of_mem_encodeChar h).2.2.1⟩

/-! ## Codings -/

/-- A way of writing texts into documents. -/
structure Coding where
  /-- The written form of a text. -/
  write : List Char → List Char
  /-- Whether the written form of a text can be read back. -/
  holds : List Char → Bool
  /-- What is written can stand between tags, and in double quotes inside one. -/
  plain : ∀ cs, ∀ c ∈ write cs, c ≠ '<' ∧ c ≠ '"'
  /-- A text that is held is read back as it was. -/
  denotes : ∀ cs, holds cs = true → Denotes (write cs) cs
  /-- A text that is not held makes what it is written into unreadable. -/
  spoils : ∀ cs, holds cs = false → Spoils (write cs)

private theorem ne_of_mem_flatMap {write : Char → List Char}
    (h : ∀ {c d}, d ∈ write c → d ≠ '<' ∧ d ≠ '"') (cs : List Char) :
    ∀ d ∈ cs.flatMap write, d ≠ '<' ∧ d ≠ '"' := by
  intro d hd
  obtain ⟨c, -, hd⟩ := List.mem_flatMap.mp hd
  exact h hd

theorem denotes_escape (cs : List Char) : Denotes (escape cs) cs := by
  induction cs with
  | nil => exact .nil
  | cons c cs ih => exact (denotes_escapeChar c).append ih

theorem denotes_encode {cs : List Char} (h : '\x00' ∉ cs) : Denotes (encode cs) cs := by
  induction cs with
  | nil => exact .nil
  | cons c cs ih =>
    rw [List.mem_cons, not_or] at h
    exact (denotes_encodeChar (Ne.symm h.1)).append (ih h.2)

/-- A text is unreadable from the first U+0000 on. -/
theorem spoils_encode {cs : List Char} (h : '\x00' ∈ cs) : Spoils (encode cs) := by
  induction cs with
  | nil => exact absurd h List.not_mem_nil
  | cons c cs ih =>
    by_cases hc : c = '\x00'
    · subst hc
      exact spoils_encodeChar_null.append (encode cs)
    · have hcs : '\x00' ∈ cs := (List.mem_cons.mp h).resolve_left (Ne.symm hc)
      exact (denotes_encodeChar hc).append_spoils (ih hcs)

/-- Escaping holds every text. -/
def escaping : Coding where
  write := escape
  holds _ := true
  plain := ne_of_mem_flatMap ne_of_mem_escapeChar
  denotes cs _ := denotes_escape cs
  spoils _ h := absurd h (by decide)

/-- Storing holds the texts without U+0000. -/
def storing : Coding where
  write := encode
  holds cs := '\x00' ∉ cs
  plain := ne_of_mem_flatMap ne_of_mem_encodeChar
  denotes _ h := denotes_encode (of_decide_eq_true h)
  spoils _ h := spoils_encode (Decidable.of_not_not (of_decide_eq_false h))

end MessageCatalog.Markup
