import MessageCatalog.Proofs.Markup.Coding

/-!
# The stored form of a text

Storing a text is safe: what is stored has no markup in it and no control characters but tabs and
line ends, so that it can stand in element content and in attribute values. Each of its ampersands
begins a reference, by one of five names or by a number below that of the space, and these
references are the only way in which a character is stored otherwise than as itself.

It works in one pass. The same comes of two: markup is escaped first, and then control characters
are replaced in what came of that, which may be skipped if there are none. The second pass does not
touch what the first one wrote, as names hold no control characters, and the first one would not
touch what the second one writes over, as no control character is markup.
-/

namespace MessageCatalog.Markup

open Text

/-! ## What is stored -/

theorem isPlain_of_mem_encode {cs : List Char} : ∀ d ∈ encode cs, IsPlain d := by
  intro d hd
  obtain ⟨c, -, hd⟩ := List.mem_flatMap.mp hd
  exact isPlain_of_mem_encodeChar hd

/-- Whether every ampersand begins a reference. -/
def AmpersandsRefer (raw : List Char) : Prop :=
  ∀ before after, raw = before ++ '&' :: after →
    ∃ name rest, after = name ++ ';' :: rest ∧ IsStoredName name

theorem AmpersandsRefer.of_notMem {raw : List Char} (h : '&' ∉ raw) : AmpersandsRefer raw := by
  rintro before after rfl
  exact absurd (List.mem_append_right before List.mem_cons_self) h

theorem AmpersandsRefer.append {a b : List Char} (ha : AmpersandsRefer a)
    (hb : AmpersandsRefer b) : AmpersandsRefer (a ++ b) := by
  intro before after heq
  rcases List.append_eq_append_iff.mp heq with ⟨a', -, hb'⟩ | ⟨rest, ha', hrest⟩
  · exact hb a' after hb'
  · rcases List.cons_eq_append_iff.mp hrest with ⟨rfl, hb'⟩ | ⟨inside, rfl, rfl⟩
    · exact hb [] after hb'
    · obtain ⟨name, rest, rfl, hname⟩ := ha before inside ha'
      exact ⟨name, rest ++ b, by rw [List.append_assoc, List.cons_append], hname⟩

theorem ampersandsRefer_encodeChar (c : Char) : AmpersandsRefer (encodeChar c) := by
  rcases encodeChar_cases c with ⟨hself, -, hne⟩ | ⟨name, hname, hreference⟩
  · rw [hself]
    exact .of_notMem fun hmem ↦ hne (List.mem_singleton.mp hmem).symm
  · have hnotMem : '&' ∉ name ++ [';'] := by
      rw [List.mem_append, not_or]
      exact ⟨fun hmem ↦ (hname.isPlain _ hmem).2.2 rfl, by decide⟩
    rw [hreference]
    -- the ampersand at the front is the only one
    rintro (- | ⟨d, before⟩) after heq
    · obtain ⟨-, rfl⟩ := List.cons.inj heq
      exact ⟨name, [], rfl, hname⟩
    · obtain ⟨-, htail⟩ := List.cons.inj heq
      exact absurd (htail ▸ List.mem_append_right before List.mem_cons_self) hnotMem

theorem ampersandsRefer_encode (cs : List Char) : AmpersandsRefer (encode cs) := by
  induction cs with
  | nil => exact .of_notMem List.not_mem_nil
  | cons c cs ih => exact (ampersandsRefer_encodeChar c).append ih

/-! ## Two passes -/

/-- A character with control characters replaced by their numbers. -/
def storeChar (c : Char) : List Char :=
  if isStoredByNumber c then "&#x".toList ++ hexDigits c.toNat ++ [';'] else [c]

theorem flatMap_storeChar_eq_self {cs : List Char} (h : cs.any isStoredByNumber = false) :
    cs.flatMap storeChar = cs := by
  induction cs with
  | nil => rfl
  | cons c cs ih =>
    rw [List.any_cons, Bool.or_eq_false_iff] at h
    rw [List.flatMap_cons, storeChar, h.1, ih h.2]
    rfl

theorem escapeChar_of_isStoredByNumber {c : Char} (h : isStoredByNumber c = true) :
    escapeChar c = [c] := by
  unfold escapeChar
  split_ifs with hlt hgt hamp hapos hquot
  · exact absurd (hlt ▸ h) (by decide)
  · exact absurd (hgt ▸ h) (by decide)
  · exact absurd (hamp ▸ h) (by decide)
  · exact absurd (hapos ▸ h) (by decide)
  · exact absurd (hquot ▸ h) (by decide)
  · rfl

theorem encodeChar_eq_flatMap (c : Char) : encodeChar c = (escapeChar c).flatMap storeChar := by
  by_cases hn : isStoredByNumber c = true
  · rw [escapeChar_of_isStoredByNumber hn, List.flatMap_singleton, encodeChar, storeChar,
      if_pos hn, if_pos hn]
  · have hescape : encodeChar c = escapeChar c := if_neg hn
    have hnone : (escapeChar c).any isStoredByNumber = false := by
      rw [← hescape, List.any_eq_false]
      intro d hd
      have hcontrol := (isPlain_of_mem_encodeChar hd).2.2.2.2
      exact Bool.eq_false_iff.mp (isStoredByNumber_eq_false_iff.mpr hcontrol)
    rw [hescape, flatMap_storeChar_eq_self hnone]

theorem encode_eq_flatMap (cs : List Char) : encode cs = (escape cs).flatMap storeChar := by
  rw [encode, escape, List.flatMap_assoc]
  exact List.flatMap_congr fun c _ ↦ encodeChar_eq_flatMap c

theorem encode_eq_ite (cs : List Char) :
    encode cs = if (escape cs).any isStoredByNumber then (escape cs).flatMap storeChar
      else escape cs := by
  split_ifs with hany
  · exact encode_eq_flatMap cs
  · rw [encode_eq_flatMap, flatMap_storeChar_eq_self (Bool.eq_false_iff.mpr hany)]

example : encode "a<\x1b\t&".toList = "a&lt;&#x1b;\t&amp;".toList := by
  decide

/-! ## Storing and reading back -/

theorem decode_encode_eq_ok {cs : List Char} (h : '\x00' ∉ cs) : decode (encode cs) = .ok cs :=
  (denotes_encode h).decode_eq

theorem decode_encode_eq_error {cs : List Char} (h : '\x00' ∈ cs) :
    ∃ fault, decode (encode cs) = .error fault :=
  (spoils_encode h).decode_eq

/-- A stored text holds no markup, its ampersands begin references, its parts are stored one by one
and in one pass as in two, and it is read back as it was, unless it has U+0000 in it. -/
theorem encode_exact (cs : List Char) :
    (∀ d ∈ encode cs, d ≠ '<' ∧ d ≠ '>' ∧ d ≠ '"' ∧ d ≠ '\''
        ∧ (d.toNat < 0x20 → d = '\t' ∨ d = '\n' ∨ d = '\r'))
      ∧ (∀ before after, encode cs = before ++ '&' :: after →
        ∃ name rest, after = name ++ ';' :: rest ∧ IsStoredName name)
      ∧ (∀ others, encode (cs ++ others) = encode cs ++ encode others)
      ∧ (encode cs = if (escape cs).any isStoredByNumber then (escape cs).flatMap storeChar
        else escape cs)
      ∧ if '\x00' ∈ cs then ∃ fault, decode (encode cs) = .error fault
        else decode (encode cs) = .ok cs := by
  refine ⟨isPlain_of_mem_encode, ampersandsRefer_encode cs, encode_append cs, encode_eq_ite cs, ?_⟩
  split_ifs with hnull
  · exact decode_encode_eq_error hnull
  · exact decode_encode_eq_ok hnull

end MessageCatalog.Markup
