import Mathlib.Tactic.SplitIfs
import MessageCatalog.Text.Lossy

/-!
# Texts shown as they are

The bytes of a text are shown as the text. A character is begun by its first byte, in a way that
depends on how many there are, and each further byte adds six bits. What stands for no character is
never met.
-/

namespace MessageCatalog.Text

variable {b : Begun} {byte : UInt8} {rest : List UInt8}

/-! ## Single bytes -/

theorem shownFrom_ascii (h : byte.toNat < 0x80) :
    shownFrom none (byte :: rest) = Char.ofNat byte.toNat :: shownFrom none rest := by
  rw [shownFrom, firstByte, if_pos h]
  rfl

theorem shownFrom_first (hb : Begun.ofByte? byte.toNat = some b) :
    shownFrom none (byte :: rest) = shownFrom (some b) rest := by
  have hbyte : ¬byte.toNat < 0x80 := by
    intro hlt
    rw [Begun.ofByte?, if_pos (by omega)] at hb
    cases hb
  rw [shownFrom, firstByte, if_neg hbyte, hb]
  rfl

theorem takes_of_le {bits missing least greatest : Nat} (hleast : least ≤ byte.toNat)
    (hgreatest : byte.toNat ≤ greatest) :
    Begun.takes ⟨bits, missing, least, greatest⟩ byte.toNat = true := by
  rw [Begun.takes, Bool.and_eq_true]
  exact ⟨decide_eq_true hleast, decide_eq_true hgreatest⟩

theorem shownFrom_last {bits least greatest : Nat} (hleast : least ≤ byte.toNat)
    (hgreatest : byte.toNat ≤ greatest) :
    shownFrom (some ⟨bits, 1, least, greatest⟩) (byte :: rest)
      = Char.ofNat (64 * bits + (byte.toNat - 0x80)) :: shownFrom none rest := by
  rw [shownFrom, nextByte, if_pos (takes_of_le hleast hgreatest), if_pos rfl]
  rfl

theorem shownFrom_more {bits missing least greatest : Nat} (hleast : least ≤ byte.toNat)
    (hgreatest : byte.toNat ≤ greatest) :
    shownFrom (some ⟨bits, missing + 2, least, greatest⟩) (byte :: rest)
      = shownFrom (some ⟨64 * bits + (byte.toNat - 0x80), missing + 1, 0x80, 0xBF⟩) rest := by
  have hmissing : missing + 2 ≠ 1 := by omega
  rw [shownFrom, nextByte, if_pos (takes_of_le hleast hgreatest), if_neg hmissing]
  rfl

/-! ## Characters -/

section

variable {byte₁ byte₂ byte₃ byte₄ : UInt8} {n : Nat}

theorem shownFrom_pair (hn : 0x80 ≤ n) (hn' : n < 0x800) (h₁ : byte₁.toNat = n / 64 + 0xC0)
    (h₂ : byte₂.toNat = n % 64 + 0x80) :
    shownFrom none (byte₁ :: byte₂ :: rest) = Char.ofNat n :: shownFrom none rest := by
  have hfirst : Begun.ofByte? byte₁.toNat = some ⟨n / 64, 1, 0x80, 0xBF⟩ := by
    rw [h₁, Begun.ofByte?, if_neg (by omega), if_pos (by omega), Nat.add_sub_cancel]
  have hbits : 64 * (n / 64) + (byte₂.toNat - 0x80) = n := by omega
  rw [shownFrom_first hfirst, shownFrom_last (by omega) (by omega), hbits]

theorem shownFrom_triple (hn : 0x800 ≤ n) (hn' : n < 0x10000)
    (hvalid : n < 0xD800 ∨ 0xDFFF < n) (h₁ : byte₁.toNat = n / 4096 + 0xE0)
    (h₂ : byte₂.toNat = n / 64 % 64 + 0x80) (h₃ : byte₃.toNat = n % 64 + 0x80) :
    shownFrom none (byte₁ :: byte₂ :: byte₃ :: rest) = Char.ofNat n :: shownFrom none rest := by
  have hfirst : ∃ least greatest, Begun.ofByte? byte₁.toNat = some ⟨n / 4096, 2, least, greatest⟩
      ∧ least ≤ byte₂.toNat ∧ byte₂.toNat ≤ greatest := by
    rw [h₁, Begun.ofByte?, if_neg (by omega), if_neg (by omega), if_pos (by omega),
      Nat.add_sub_cancel]
    refine ⟨_, _, rfl, ?_, ?_⟩
    · split_ifs <;> omega
    · split_ifs <;> omega
  obtain ⟨least, greatest, hfirst, hleast, hgreatest⟩ := hfirst
  have hbits : 64 * (64 * (n / 4096) + (byte₂.toNat - 0x80)) + (byte₃.toNat - 0x80) = n := by omega
  rw [shownFrom_first hfirst, shownFrom_more hleast hgreatest,
    shownFrom_last (by omega) (by omega), hbits]

theorem shownFrom_quadruple (hn : 0x10000 ≤ n) (hn' : n < 0x110000)
    (h₁ : byte₁.toNat = n / 262144 + 0xF0) (h₂ : byte₂.toNat = n / 4096 % 64 + 0x80)
    (h₃ : byte₃.toNat = n / 64 % 64 + 0x80) (h₄ : byte₄.toNat = n % 64 + 0x80) :
    shownFrom none (byte₁ :: byte₂ :: byte₃ :: byte₄ :: rest)
      = Char.ofNat n :: shownFrom none rest := by
  have hfirst : ∃ least greatest, Begun.ofByte? byte₁.toNat = some ⟨n / 262144, 3, least, greatest⟩
      ∧ least ≤ byte₂.toNat ∧ byte₂.toNat ≤ greatest := by
    rw [h₁, Begun.ofByte?, if_neg (by omega), if_neg (by omega), if_neg (by omega),
      if_pos (by omega), Nat.add_sub_cancel]
    refine ⟨_, _, rfl, ?_, ?_⟩
    · split_ifs <;> omega
    · split_ifs <;> omega
  obtain ⟨least, greatest, hfirst, hleast, hgreatest⟩ := hfirst
  have hbits : 64 * (64 * (64 * (n / 262144) + (byte₂.toNat - 0x80)) + (byte₃.toNat - 0x80))
      + (byte₄.toNat - 0x80) = n := by omega
  rw [shownFrom_first hfirst, shownFrom_more hleast hgreatest,
    shownFrom_more (by omega) (by omega), shownFrom_last (by omega) (by omega), hbits]

end

/-- A character is read as such, whatever follows its bytes. -/
theorem shownFrom_utf8EncodeChar (c : Char) (rest : List UInt8) :
    shownFrom none (String.utf8EncodeChar c ++ rest) = c :: shownFrom none rest := by
  have hvalid : c.val.toNat < 0xD800 ∨ 0xDFFF < c.val.toNat ∧ c.val.toNat < 0x110000 := c.valid
  have hbyte {n m : Nat} (h : n = m) (hm : m < 256) : (UInt8.ofNat n).toNat = m := by
    rw [h, UInt8.toNat_ofNat', Nat.mod_eq_of_lt hm]
  have hc : Char.ofNat c.val.toNat = c := Char.ofNat_toNat c
  suffices h : shownFrom none (String.utf8EncodeChar c ++ rest)
      = Char.ofNat c.val.toNat :: shownFrom none rest by rwa [hc] at h
  rw [String.utf8EncodeChar]
  generalize c.val.toNat = n at hvalid ⊢
  split_ifs with hone htwo hthree
  · have hfirst := hbyte (n := n) rfl (by omega)
    rw [List.singleton_append, shownFrom_ascii (by omega), hfirst]
  · apply shownFrom_pair (by omega) (by omega)
    · exact hbyte (by omega) (by omega)
    · exact hbyte rfl (by omega)
  · apply shownFrom_triple (by omega) (by omega) (by omega)
    · exact hbyte (by omega) (by omega)
    · exact hbyte rfl (by omega)
    · exact hbyte rfl (by omega)
  · apply shownFrom_quadruple (by omega) (by omega)
    · exact hbyte (by omega) (by omega)
    · exact hbyte rfl (by omega)
    · exact hbyte rfl (by omega)
    · exact hbyte rfl (by omega)

/-- A text is shown as it is. -/
@[simp] theorem lossy_utf8Bytes (s : String) : lossy (utf8Bytes s) = s := by
  have hchars (chars : List Char) :
      shownFrom none (chars.flatMap String.utf8EncodeChar) = chars := by
    induction chars with
    | nil => rfl
    | cons c chars ih => rw [List.flatMap_cons, shownFrom_utf8EncodeChar, ih]
  rw [lossy, utf8Bytes, hchars, String.ofList_toList]

end MessageCatalog.Text
