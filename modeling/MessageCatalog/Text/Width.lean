/-!
# Widths in bytes

Positions in a document count the bytes of its UTF-8 form, while the document is read character by
character.
-/

namespace MessageCatalog.Text

/-- The number of bytes of a text in UTF-8. -/
def byteWidth (cs : List Char) : Nat :=
  cs.foldr (fun c n ↦ c.utf8Size + n) 0

@[simp] theorem byteWidth_nil : byteWidth [] = 0 := rfl

@[simp] theorem byteWidth_cons (c : Char) (cs : List Char) :
    byteWidth (c :: cs) = c.utf8Size + byteWidth cs := rfl

@[simp] theorem byteWidth_append (a b : List Char) :
    byteWidth (a ++ b) = byteWidth a + byteWidth b := by
  induction a with
  | nil => rw [List.nil_append, byteWidth_nil, Nat.zero_add]
  | cons c a ih => rw [List.cons_append, byteWidth_cons, ih, byteWidth_cons, Nat.add_assoc]

/-- The character whose code point is the first byte of the UTF-8 form of `c`. A message about a
byte that is out of place shows it this way. -/
def leadByte (c : Char) : Char :=
  let n := c.toNat
  if n < 0x80 then c
  else if n < 0x800 then Char.ofNat (0xC0 + n / 0x40)
  else if n < 0x10000 then Char.ofNat (0xE0 + n / 0x1000)
  else Char.ofNat (0xF0 + n / 0x40000)

end MessageCatalog.Text
