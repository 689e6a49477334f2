import MessageCatalog.Proofs.Markup.Tokens

/-!
# Elements without content

An element without content can be written as one tag or as two. Whatever stands in the tag after its
name, as long as it can stand there at all (`isTagBody`), the scanner makes one token or two of it,
and is outside markup afterwards, inside the same elements as before.

The content of a tag is not looked at here: it may fail to be attributes, or hold references that
cannot be resolved.
-/

namespace MessageCatalog.Markup

/-- Whether the quotes in a part of a tag are closed and a `>` is only inside of them; `quote` is
the quote that the part begins in. -/
def closesQuotes : Option Char → List Char → Bool
  | quote, [] => quote.isNone
  | some q, c :: cs => closesQuotes (if c = q then none else some q) cs
  | none, c :: cs => c ≠ '>' && closesQuotes (if c = '"' ∨ c = '\'' then some c else none) cs

/-- Whether characters can stand between the name and the end of a tag. The last one is no slash,
since that is the mark of an empty element. -/
def isTagBody (body : List Char) : Bool :=
  body.head?.all isBlank && closesQuotes none body && body.getLast? ≠ some '/'

theorem isTagBody_iff {body : List Char} :
    isTagBody body = true ↔ (∀ c ∈ body.head?, isBlank c = true)
      ∧ closesQuotes none body = true ∧ body.getLast? ≠ some '/' := by
  simp [isTagBody, Option.all_eq_true, and_assoc]

theorem closesQuotes_name {name : String} {body : List Char} (hname : isName name = true)
    (hbody : closesQuotes none body = true) : closesQuotes none (name.toList ++ body) = true := by
  have hchars := isNameChar_of_isName hname
  generalize name.toList = chars at hchars
  induction chars with
  | nil => exact hbody
  | cons c cs ih =>
    have hc := hchars c List.mem_cons_self
    have hgt : c ≠ '>' := ne_of_isNameChar hc (by decide)
    have hquot : c ≠ '"' := ne_of_isNameChar hc (by decide)
    have hapos : c ≠ '\'' := ne_of_isNameChar hc (by decide)
    simp only [List.cons_append, closesQuotes, hgt, hquot, hapos, or_self, if_false, ne_eq,
      not_false_eq_true, decide_true, Bool.true_and]
    exact ih fun d hd ↦ hchars d (List.mem_cons_of_mem c hd)

theorem Scanner.read_closesQuotes (names : List String) {cs : List Char} :
    ∀ {quote : Option Char}, closesQuotes quote cs = true → ∀ (n : Nat) (read : List Char),
      ∃ stop, (⟨n, names, .tag read quote⟩ : Scanner).read cs
        = (⟨stop, names, .tag (cs.reverse ++ read) none⟩, []) := by
  induction cs with
  | nil =>
    intro quote h n read
    obtain rfl : quote = none := Option.isNone_iff_eq_none.mp h
    exact ⟨n, rfl⟩
  | cons c cs ih =>
    intro quote h n read
    -- the character is collected, and what remains closes the quote after it
    obtain ⟨next, hstep, hnext⟩ : ∃ next, (⟨n, names, .tag read quote⟩ : Scanner).step c
        = (⟨n + c.utf8Size, names, .tag (c :: read) next⟩, none) ∧ closesQuotes next cs = true := by
      cases quote with
      | some q => exact ⟨_, rfl, h⟩
      | none =>
        rw [closesQuotes, Bool.and_eq_true, decide_eq_true_eq] at h
        exact ⟨_, by simp only [Scanner.step, if_neg h.1], h.2⟩
    obtain ⟨stop, hread⟩ := ih hnext (n + c.utf8Size) (c :: read)
    refine ⟨stop, ?_⟩
    rw [Scanner.read_cons, hstep]
    simp only [Option.toList_none, List.nil_append]
    rw [hread, List.reverse_cons, ← List.append_cons]

section

variable {name : String} {body space : List Char} (hname : isName name = true)
  (hbody : isTagBody body = true) (n : Nat) (names : List String)
include hname hbody

theorem Scanner.read_tag : ∃ stop, (⟨n, names, .markup⟩ : Scanner).read (name.toList ++ body)
    = (⟨stop, names, .tag (name.toList ++ body).reverse none⟩, []) := by
  obtain ⟨stop, hread⟩ := Scanner.read_closesQuotes names
    (closesQuotes_name hname (isTagBody_iff.mp hbody).2.1) n []
  refine ⟨stop, ?_⟩
  rw [Scanner.read_markup_of_isName hname, hread, List.append_nil]

theorem Scanner.read_oneTag : ∃ stop,
    (⟨n, names, .markup⟩ : Scanner).read (name.toList ++ body ++ "/>".toList)
      = (⟨stop, names, .between⟩, [⟨.empty ⟨name, body⟩, stop⟩]) := by
  obtain ⟨m, htag⟩ := Scanner.read_tag hname hbody n names
  obtain ⟨stop, hread⟩ := Scanner.read_empty_of_content htag
  rw [Tag.ofContent_append hname (isTagBody_iff.mp hbody).1] at hread
  exact ⟨stop, hread⟩

theorem Scanner.read_twoTags (hspace : space.all isBlank = true) : ∃ middle stop,
    (⟨n, names, .markup⟩ : Scanner).read
        (name.toList ++ body ++ ['>'] ++ ("</".toList ++ name.toList ++ space ++ ['>']))
      = (⟨stop, names, .between⟩, [⟨.opening ⟨name, body⟩, middle⟩, ⟨.closing, stop⟩]) := by
  obtain ⟨m, htag⟩ := Scanner.read_tag hname hbody n names
  have hslash : (name.toList ++ body).getLast? ≠ some '/' := by
    rw [List.getLast?_append]
    cases hlast : body.getLast? with
    | none => exact getLast?_ne_of_isName hname
    | some c => exact fun heq ↦ (isTagBody_iff.mp hbody).2.2 (hlast.trans heq)
  obtain ⟨middle, hopen⟩ := Scanner.read_opening_of_content htag hslash
  rw [Tag.ofContent_append hname (isTagBody_iff.mp hbody).1] at hopen
  have hlt : (⟨middle, name :: names, .between⟩ : Scanner).read ['<']
      = (⟨middle + 1, name :: names, .markup⟩, []) := rfl
  obtain ⟨stop, hclose⟩ := Scanner.read_closing_append hname hspace (middle + 1) names
  have hshape : "</".toList ++ name.toList ++ space ++ ['>']
      = ['<'] ++ '/' :: (name.toList ++ space ++ ['>']) := rfl
  refine ⟨middle, stop, ?_⟩
  rw [Scanner.read_append, hopen, hshape, Scanner.read_append, hlt, hclose]
  rfl

end

end MessageCatalog.Markup
