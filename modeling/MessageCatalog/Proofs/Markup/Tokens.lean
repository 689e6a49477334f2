import MessageCatalog.Proofs.Markup.TagContent

/-!
# Tokens of written constructs

What the scanner makes of a tag, a text, a section or a comment that was written in full.

## Runs of the scanner

`Scanner.read` is the scanner's run over a part of a document, without its end: the scanner after
the part, and the tokens that the part completes. Runs compose (`Scanner.read_append`), and the
tokens of a document are those of its beginning, followed by those of the rest as scanned by the
scanner that the beginning leaves (`Scanner.scan_append`).

## Text waits

A text is complete only when the next `<` is met, so that several pieces written one after another
are one token. Between constructs the scanner therefore holds the text read so far
(`Scanner.resting`), and every construct begins by giving it away.

Positions grow by the width of what was read and are compared with nothing, so the statements only
say that there is one.
-/

namespace MessageCatalog.Markup

open Text

/-! ## Runs -/

/-- The scanner after more characters, with the tokens that they complete. -/
def Scanner.read (s : Scanner) : List Char → Scanner × List Token
  | [] => (s, [])
  | c :: cs =>
    let rest := (s.step c).1.read cs
    (rest.1, (s.step c).2.toList ++ rest.2)

theorem Scanner.read_cons (s : Scanner) (c : Char) (cs : List Char) :
    s.read (c :: cs)
      = (((s.step c).1.read cs).1, (s.step c).2.toList ++ ((s.step c).1.read cs).2) := rfl

@[simp] theorem Scanner.read_append (s : Scanner) (a b : List Char) :
    s.read (a ++ b) = (((s.read a).1.read b).1, (s.read a).2 ++ ((s.read a).1.read b).2) := by
  induction a generalizing s with
  | nil => rfl
  | cons c a ih => rw [List.cons_append, read_cons, ih, read_cons, List.append_assoc]

@[simp] theorem Scanner.scan_append (s : Scanner) (a b : List Char) :
    s.scan (a ++ b) = (s.read a).2 ++ (s.read a).1.scan b := by
  induction a generalizing s with
  | nil => rfl
  | cons c a ih =>
    rw [List.cons_append, scan, read_cons]
    cases hstep : s.step c with
    | mk next token =>
      cases token with
      | none => exact ih next
      | some token => exact congrArg (token :: ·) (ih next)

theorem Scanner.scan_eq (s : Scanner) (cs : List Char) :
    s.scan cs = (s.read cs).2 ++ (s.read cs).1.finish.toList := by
  rw [← List.append_nil cs, scan_append, List.append_nil, scan]

/-- While every character is only collected, none completes a token. -/
theorem Scanner.read_collect (names : List String) (mode : List Char → Mode) (read : List Char) :
    ∀ (cs : List Char) (n : Nat),
      (∀ p c q, cs = p ++ c :: q → ∀ m, (⟨m, names, mode (p.reverse ++ read)⟩ : Scanner).step c
        = (⟨m + c.utf8Size, names, mode (c :: (p.reverse ++ read))⟩, none)) →
      ∃ stop, (⟨n, names, mode read⟩ : Scanner).read cs
        = (⟨stop, names, mode (cs.reverse ++ read)⟩, []) := by
  intro cs
  induction cs generalizing read with
  | nil => intro n _; exact ⟨n, rfl⟩
  | cons c cs ih =>
    intro n h
    have hstep := h [] c cs rfl n
    rw [List.reverse_nil, List.nil_append] at hstep
    obtain ⟨stop, hread⟩ := ih (c :: read) (n + c.utf8Size) fun p d q hcs m ↦ by
      have hd := h (c :: p) d q (by rw [hcs, List.cons_append]) m
      rwa [List.reverse_cons, ← List.append_cons] at hd
    refine ⟨stop, ?_⟩
    rw [read_cons, hstep]
    simp only [Option.toList_none, List.nil_append]
    rw [hread, List.reverse_cons, ← List.append_cons]

theorem Scanner.read_collect_of_mem (names : List String) (mode : List Char → Mode)
    (read cs : List Char) (n : Nat)
    (h : ∀ c ∈ cs, ∀ m read, (⟨m, names, mode read⟩ : Scanner).step c
      = (⟨m + c.utf8Size, names, mode (c :: read)⟩, none)) :
    ∃ stop, (⟨n, names, mode read⟩ : Scanner).read cs
      = (⟨stop, names, mode (cs.reverse ++ read)⟩, []) := by
  refine read_collect names mode read cs n fun p c q hcs m ↦ h c ?_ m _
  rw [hcs]
  exact List.mem_append_right p List.mem_cons_self

/-! ## Between constructs -/

/-- The scanner outside markup, holding a text that may go on. -/
def Scanner.resting (n : Nat) (names : List String) : List Char → Scanner
  | [] => ⟨n, names, .between⟩
  | c :: cs => ⟨n, names, .text (c :: cs).reverse⟩

/-- The token of a text that a `<` ends, if there is any text. -/
def textToken (n : Nat) : List Char → List Token
  | [] => []
  | c :: cs => [⟨.text (c :: cs), n⟩]

theorem Scanner.step_resting (n : Nat) (names : List String) (raw : List Char) {c : Char}
    (h : c ≠ '<') :
    (resting n names raw).step c = (resting (n + c.utf8Size) names (raw ++ [c]), none) := by
  cases raw with
  | nil => simp only [resting, step, if_neg h, List.nil_append, List.reverse_singleton]
  | cons d raw =>
    simp only [resting, step, if_neg h, List.cons_append]
    rw [← List.cons_append, List.reverse_concat]

theorem Scanner.read_text (names : List String) {cs : List Char} (h : ∀ c ∈ cs, c ≠ '<') :
    ∀ (n : Nat) (raw : List Char), ∃ stop, (resting n names raw).read cs
      = (resting stop names (raw ++ cs), []) := by
  induction cs with
  | nil => intro n raw; exact ⟨n, by rw [List.append_nil]; rfl⟩
  | cons c cs ih =>
    intro n raw
    obtain ⟨stop, hread⟩ := ih (fun d hd ↦ h d (List.mem_cons_of_mem c hd)) (n + c.utf8Size)
      (raw ++ [c])
    refine ⟨stop, ?_⟩
    rw [read_cons, step_resting n names raw (h c List.mem_cons_self)]
    simp only [Option.toList_none, List.nil_append]
    rw [hread, List.append_assoc, List.singleton_append]

/-- Every construct begins by giving away the text before it. -/
theorem Scanner.read_lt (n : Nat) (names : List String) (raw : List Char) :
    (resting n names raw).read ['<'] = (⟨n + 1, names, .markup⟩, textToken n raw) := by
  cases raw with
  | nil => rfl
  | cons c raw =>
    rw [read_cons]
    simp only [resting, step, List.reverse_reverse, if_pos]
    rfl

/-! ## Tags -/

/-- Whether characters leave the scanner outside quotes in a tag, without ending it. -/
private def IsInside (cs : List Char) : Prop :=
  ∀ n names read, ∃ stop, (⟨n, names, .tag read none⟩ : Scanner).read cs
    = (⟨stop, names, .tag (cs.reverse ++ read) none⟩, [])

private theorem IsInside.append {a b : List Char} (ha : IsInside a) (hb : IsInside b) :
    IsInside (a ++ b) := by
  intro n names read
  obtain ⟨m, hm⟩ := ha n names read
  obtain ⟨stop, hstop⟩ := hb m names (a.reverse ++ read)
  refine ⟨stop, ?_⟩
  rw [Scanner.read_append, hm, hstop, List.reverse_append, List.append_assoc]
  rfl

private theorem isInside_of_forall {cs : List Char}
    (h : ∀ c ∈ cs, c ≠ '>' ∧ c ≠ '"' ∧ c ≠ '\'') : IsInside cs := by
  intro n names read
  refine Scanner.read_collect_of_mem names (.tag · none) read cs n fun c hc m read ↦ ?_
  obtain ⟨hgt, hquot, hapos⟩ := h c hc
  simp only [Scanner.step, if_neg hgt, hquot, hapos, or_self, if_false]

private theorem isInside_of_isName {name : String} (h : isName name = true) :
    IsInside name.toList := by
  refine isInside_of_forall fun c hc ↦ ?_
  have hc := isNameChar_of_isName h c hc
  exact ⟨ne_of_isNameChar hc (by decide), ne_of_isNameChar hc (by decide),
    ne_of_isNameChar hc (by decide)⟩

/-- Inside double quotes everything but a double quote is passed over, `>` too. -/
private theorem isInside_quoted {cs : List Char} (h : ∀ c ∈ cs, c ≠ '"') :
    IsInside ('"' :: (cs ++ ['"'])) := by
  intro n names read
  obtain ⟨stop, hstop⟩ := Scanner.read_collect_of_mem names (.tag · (some '"')) ('"' :: read) cs
    (n + Char.utf8Size '"') fun c hc m read ↦ by simp only [Scanner.step, if_neg (h c hc)]
  refine ⟨stop + Char.utf8Size '"', ?_⟩
  have hopen : (⟨n, names, .tag read none⟩ : Scanner).step '"'
      = (⟨n + Char.utf8Size '"', names, .tag ('"' :: read) (some '"')⟩, none) := rfl
  rw [Scanner.read_cons, hopen, Scanner.read_append, hstop, List.reverse_cons,
    List.reverse_append, List.append_assoc, List.append_assoc]
  rfl

variable (code : Coding)

private theorem isInside_written {a : Attribute} (h : isName a.key = true) :
    IsInside (a.written code) := by
  have hshape : a.written code
      = [' '] ++ a.key.toList ++ ['='] ++ '"' :: (code.write a.value.toList ++ ['"']) := by
    simp only [Attribute.written, List.append_assoc, List.cons_append, List.nil_append]
    rfl
  have hspace : IsInside [' '] := isInside_of_forall (forall_mem_of_all (by decide))
  have hequals : IsInside ['='] := isInside_of_forall (forall_mem_of_all (by decide))
  have hvalue := isInside_quoted fun c hc ↦ (code.plain a.value.toList c hc).2
  rw [hshape]
  exact ((hspace.append (isInside_of_isName h)).append hequals).append hvalue

private theorem isInside_tagContent {name : String} {attributes : List Attribute}
    (hname : isName name = true) (h : areAttributes attributes = true) :
    IsInside (tagContent code name attributes) := by
  have hkeys := (areAttributes_iff.mp h).1
  refine (isInside_of_isName hname).append ?_
  clear h
  induction attributes with
  | nil => exact fun n names read ↦ ⟨n, rfl⟩
  | cons a rest ih =>
    rw [List.flatMap_cons]
    exact (isInside_written code (hkeys a List.mem_cons_self)).append
      (ih fun b hb ↦ hkeys b (List.mem_cons_of_mem a hb))

theorem getLast?_ne_of_isName {name : String} (hname : isName name = true) :
    name.toList.getLast? ≠ some '/' := by
  intro hlast
  have hslash := isNameChar_of_isName hname '/' (List.mem_of_getLast? hlast)
  exact absurd hslash (by decide)

/-- A tag's content does not end in the mark of an empty element. -/
private theorem getLast?_tagContent {name : String} (hname : isName name = true)
    (attributes : List Attribute) : (tagContent code name attributes).getLast? ≠ some '/' := by
  rcases List.eq_nil_or_concat' attributes with rfl | ⟨init, last, rfl⟩
  · rw [tagContent, List.flatMap_nil, List.append_nil]
    exact getLast?_ne_of_isName hname
  · -- with attributes, the content ends in the closing quote of the last one
    have hshape : tagContent code name (init ++ [last])
        = (name.toList ++ (init.flatMap (Attribute.written code) ++ (' ' :: last.key.toList
            ++ "=\"".toList ++ code.write last.value.toList))) ++ ['"'] := by
      rw [tagContent, List.flatMap_append, List.flatMap_singleton, Attribute.written]
      simp only [List.append_assoc]
    rw [hshape, List.getLast?_concat]
    decide

/-- In markup, the first character of a name begins a tag. -/
theorem Scanner.read_markup_of_isName {name : String} (hname : isName name = true) (n : Nat)
    (names : List String) (rest : List Char) :
    (⟨n, names, .markup⟩ : Scanner).read (name.toList ++ rest)
      = (⟨n, names, .tag [] none⟩ : Scanner).read (name.toList ++ rest) := by
  obtain ⟨c, cs, hlist⟩ := exists_cons_of_isName hname
  have hc := isNameChar_of_isName hname c (hlist ▸ List.mem_cons_self)
  have hbang : c ≠ '!' := ne_of_isNameChar hc (by decide)
  have hslash : c ≠ '/' := ne_of_isNameChar hc (by decide)
  have hquestion : c ≠ '?' := ne_of_isNameChar hc (by decide)
  have hstep : (⟨n, names, .markup⟩ : Scanner).step c
      = (⟨n, names, .tag [] none⟩ : Scanner).step c := by
    simp only [Scanner.step, if_neg hbang, if_neg hslash, if_neg hquestion]
  rw [hlist, List.cons_append, Scanner.read_cons, Scanner.read_cons, hstep]

private theorem read_tagContent {name : String} {attributes : List Attribute}
    (hname : isName name = true) (h : areAttributes attributes = true) (n : Nat)
    (names : List String) :
    ∃ stop, (⟨n, names, .markup⟩ : Scanner).read (tagContent code name attributes)
      = (⟨stop, names, .tag (tagContent code name attributes).reverse none⟩, []) := by
  obtain ⟨stop, hread⟩ := isInside_tagContent code hname h n names []
  refine ⟨stop, ?_⟩
  rw [tagContent, Scanner.read_markup_of_isName hname, ← tagContent, hread, List.append_nil]

section

variable {content : List Char} {n m : Nat} {names : List String}

theorem Scanner.read_opening_of_content
    (h : (⟨n, names, .markup⟩ : Scanner).read content = (⟨m, names, .tag content.reverse none⟩, []))
    (hslash : content.getLast? ≠ some '/') :
    ∃ stop, (⟨n, names, .markup⟩ : Scanner).read (content ++ ['>'])
      = (⟨stop, (Tag.ofContent content).name :: names, .between⟩,
        [⟨.opening (.ofContent content), stop⟩]) := by
  have hcomplete : completeTag names (m + Char.utf8Size '>') content.reverse
      = ⟨.opening (.ofContent content), m + Char.utf8Size '>',
        (Tag.ofContent content).name :: names⟩ := by
    unfold completeTag
    split
    · next read heq =>
      rw [← List.head?_reverse, heq] at hslash
      exact absurd rfl hslash
    · rw [List.reverse_reverse]
  refine ⟨m + Char.utf8Size '>', ?_⟩
  rw [read_append, h, read_cons]
  simp only [step, if_pos, hcomplete]
  rfl

theorem Scanner.read_empty_of_content
    (h : (⟨n, names, .markup⟩ : Scanner).read content
      = (⟨m, names, .tag content.reverse none⟩, [])) :
    ∃ stop, (⟨n, names, .markup⟩ : Scanner).read (content ++ "/>".toList)
      = (⟨stop, names, .between⟩, [⟨.empty (.ofContent content), stop⟩]) := by
  have hslash : (⟨m, names, .tag content.reverse none⟩ : Scanner).step '/'
      = (⟨m + Char.utf8Size '/', names, .tag ('/' :: content.reverse) none⟩, none) := rfl
  refine ⟨m + Char.utf8Size '/' + Char.utf8Size '>', ?_⟩
  rw [read_append, h, show "/>".toList = ['/', '>'] from rfl, read_cons, hslash, read_cons]
  simp only [step, if_pos, completeTag, List.reverse_reverse]
  rfl

end

theorem Scanner.read_opening {name : String} {attributes : List Attribute}
    (hname : isName name = true) (h : areAttributes attributes = true) (n : Nat)
    (names : List String) :
    ∃ stop, (⟨n, names, .markup⟩ : Scanner).read (tagContent code name attributes ++ ['>'])
      = (⟨stop, name :: names, .between⟩, [⟨.opening (.written code name attributes), stop⟩]) := by
  obtain ⟨m, hcontent⟩ := read_tagContent code hname h n names
  obtain ⟨stop, hread⟩ := read_opening_of_content hcontent
    (getLast?_tagContent code hname attributes)
  rw [Tag.ofContent_tagContent hname] at hread
  exact ⟨stop, hread⟩

theorem Scanner.read_empty {name : String} {attributes : List Attribute}
    (hname : isName name = true) (h : areAttributes attributes = true) (n : Nat)
    (names : List String) :
    ∃ stop, (⟨n, names, .markup⟩ : Scanner).read (tagContent code name attributes ++ "/>".toList)
      = (⟨stop, names, .between⟩, [⟨.empty (.written code name attributes), stop⟩]) := by
  obtain ⟨m, hcontent⟩ := read_tagContent code hname h n names
  obtain ⟨stop, hread⟩ := read_empty_of_content hcontent
  rw [Tag.ofContent_tagContent hname] at hread
  exact ⟨stop, hread⟩

/-- White space after the name in an end tag is dropped, and nothing of the name. -/
private theorem endName_append {name : String} (h : isName name = true) {space : List Char}
    (hspace : space.all isBlank = true) : endName (name.toList ++ space) = name.toList := by
  have hrev : ∀ c ∈ name.toList.reverse, isBlank c = false := fun c hc ↦
    isBlank_of_isNameChar (isNameChar_of_isName h c (List.mem_reverse.mp hc))
  have hdrop : ((name.toList ++ space).reverse.dropWhile isBlank).reverse = name.toList := by
    rw [List.reverse_append, List.dropWhile_append_of_pos fun c hc ↦
      List.all_eq_true.mp hspace c (List.mem_reverse.mp hc)]
    cases hlist : name.toList.reverse with
    | nil => rw [List.dropWhile_nil, ← hlist, List.reverse_reverse]
    | cons c cs =>
      have hc := hrev c (hlist ▸ List.mem_cons_self)
      rw [List.dropWhile_cons_of_neg (Bool.eq_false_iff.mp hc), ← hlist, List.reverse_reverse]
  have hblank : ¬(name.toList ++ space).all isBlank = true := by
    intro hall
    obtain ⟨c, cs, hlist⟩ := exists_cons_of_isName h
    have hc : c ∈ name.toList := hlist ▸ List.mem_cons_self
    have hc' := List.all_eq_true.mp hall c (List.mem_append_left space hc)
    rw [isBlank_of_isNameChar (isNameChar_of_isName h c hc)] at hc'
    cases hc'
  rw [endName, if_neg hblank, hdrop]

theorem Scanner.read_closing_append {name : String} (hname : isName name = true)
    {space : List Char} (hspace : space.all isBlank = true) (n : Nat) (names : List String) :
    ∃ stop, (⟨n, name :: names, .markup⟩ : Scanner).read ('/' :: (name.toList ++ space ++ ['>']))
      = (⟨stop, names, .between⟩, [⟨.closing, stop⟩]) := by
  obtain ⟨m, hread⟩ := read_collect_of_mem (name :: names) .endTag ['/'] (name.toList ++ space)
    (n + Char.utf8Size '/') fun c hc m read ↦ by
      have hgt : c ≠ '>' := by
        rcases List.mem_append.mp hc with hc | hc
        · exact ne_of_isNameChar (isNameChar_of_isName hname c hc) (by decide)
        · have hblank := List.all_eq_true.mp hspace c hc
          rintro rfl
          exact absurd hblank (by decide)
      simp only [step, if_neg hgt]
  have hslash : (⟨n, name :: names, .markup⟩ : Scanner).step '/'
      = (⟨n + Char.utf8Size '/', name :: names, .endTag ['/']⟩, none) := rfl
  have hname' : String.ofList
      (endName (((name.toList ++ space).reverse ++ ['/']).reverse.drop 1)) = name := by
    rw [List.reverse_append, List.reverse_reverse, List.reverse_singleton, List.singleton_append,
      List.drop_one, List.tail_cons, endName_append hname hspace, String.ofList_toList]
  refine ⟨m + Char.utf8Size '>', ?_⟩
  rw [read_cons, hslash, read_append, hread, read_cons]
  simp only [step, if_pos, completeEnd, hname']
  rfl

theorem Scanner.read_closing {name : String} (hname : isName name = true) (n : Nat)
    (names : List String) :
    ∃ stop, (⟨n, name :: names, .markup⟩ : Scanner).read ('/' :: (name.toList ++ ['>']))
      = (⟨stop, names, .between⟩, [⟨.closing, stop⟩]) := by
  have hnone : ([] : List Char).all isBlank = true := rfl
  have hread := Scanner.read_closing_append hname hnone n names
  rwa [List.append_nil] at hread

/-! ## Comments and sections -/

theorem occursIn_iff {word cs : List Char} : occursIn word cs = true ↔ word <:+: cs := by
  induction cs with
  | nil => rw [occursIn, List.isEmpty_iff, List.infix_nil]
  | cons c cs ih =>
    rw [occursIn, Bool.or_eq_true, ih, List.isPrefixOf_iff_prefix, List.infix_cons_iff]

/-- A mark of two characters that ends what has been read of a content lies inside the content, if
two characters of the content have been read. -/
private theorem infix_of_prefix_reverse {p q cs start : List Char} {x y c : Char}
    (hcs : cs = p ++ c :: q) (hlong : 2 ≤ p.length) (h : [y, x] <+: p.reverse ++ start) :
    [x, y, c] <:+: cs := by
  obtain ⟨u, v, r, hrev⟩ : ∃ u v r, p.reverse = u :: v :: r := by
    rw [← List.length_reverse] at hlong
    cases hp : p.reverse with
    | nil => rw [hp] at hlong; exact absurd hlong (by decide)
    | cons u l =>
      cases l with
      | nil => rw [hp] at hlong; exact absurd hlong (by simp)
      | cons v r => exact ⟨u, v, r, rfl⟩
  rw [hrev, List.cons_append, List.cons_prefix_cons] at h
  obtain ⟨rfl, h⟩ := h
  rw [List.cons_append, List.cons_prefix_cons] at h
  obtain ⟨rfl, -⟩ := h
  have hp : p = r.reverse ++ [x, y] := by
    rw [← List.reverse_reverse p, hrev, List.reverse_cons, List.reverse_cons, ← List.append_cons]
  refine ⟨r.reverse, q, ?_⟩
  rw [hcs, hp]
  simp only [List.append_assoc, List.cons_append, List.nil_append]

theorem Scanner.read_comment {content : List Char} (h : occursIn "--".toList content = false)
    (n : Nat) (names : List String) :
    ∃ stop, (⟨n, names, .markup⟩ : Scanner).read ("!--".toList ++ (content ++ "-->".toList))
      = (⟨stop, names, .between⟩, [⟨.aside, stop⟩]) := by
  have hstart : (⟨n, names, .markup⟩ : Scanner).read "!--".toList
      = (⟨n + 1 + 1 + 1, names, .comment ['-', '-', '!']⟩, []) := rfl
  -- a dash of the opening mark may not count for the closing one, hence the length
  obtain ⟨m, hread⟩ := read_collect names .comment ['-', '-', '!'] content (n + 1 + 1 + 1)
    fun p c q hcs m ↦ by
      have hgoes : ¬(c = '>' ∧ 4 < (p.reverse ++ ['-', '-', '!']).length
          ∧ "--".toList.isPrefixOf (p.reverse ++ ['-', '-', '!']) = true) := by
        rintro ⟨-, hlength, hdashes⟩
        have hlong : 2 ≤ p.length := by
          rw [List.length_append, List.length_reverse,
            show ['-', '-', '!'].length = 3 from rfl] at hlength
          omega
        rw [List.isPrefixOf_iff_prefix] at hdashes
        have hinfix : "--".toList <:+: content :=
          (List.prefix_append ['-', '-'] [c]).isInfix.trans
            (infix_of_prefix_reverse hcs hlong hdashes)
        exact Bool.noConfusion (h.symm.trans (occursIn_iff.mpr hinfix))
      simp only [step, if_neg hgoes]
  have hdashes : (⟨m, names, .comment (content.reverse ++ ['-', '-', '!'])⟩ : Scanner).read
      "--".toList = (⟨m + 1 + 1, names,
        .comment ('-' :: '-' :: (content.reverse ++ ['-', '-', '!']))⟩, []) := rfl
  have hlength : 4 < ('-' :: '-' :: (content.reverse ++ ['-', '-', '!'])).length := by
    simp only [List.length_cons, List.length_append, List.length_nil]
    omega
  have hopen : "!--".toList.isPrefixOf
      ('-' :: '-' :: (content.reverse ++ ['-', '-', '!'])).reverse = true := by
    rw [List.isPrefixOf_iff_prefix]
    exact ⟨content ++ ['-', '-'], by simp⟩
  have hmark : "--".toList.isPrefixOf ('-' :: '-' :: (content.reverse ++ ['-', '-', '!'])) = true :=
    rfl
  refine ⟨m + 1 + 1 + Char.utf8Size '>', ?_⟩
  rw [read_append, hstart, read_append, hread, show "-->".toList = "--".toList ++ ['>'] from rfl,
    read_append, hdashes, read_cons]
  simp only [step, hlength, hmark, and_self, if_true, completeComment, hopen]
  rfl

theorem Scanner.read_verbatim {content : List Char} (h : occursIn "]]>".toList content = false)
    (n : Nat) (names : List String) :
    ∃ stop, (⟨n, names, .markup⟩ : Scanner).read
        ("![CDATA[".toList ++ (content ++ "]]>".toList))
      = (⟨stop, names, .between⟩, [⟨.verbatim content, stop⟩]) := by
  have hstart : (⟨n, names, .markup⟩ : Scanner).read "![CDATA[".toList
      = (⟨n + 1 + 1 + 1 + 1 + 1 + 1 + 1 + 1, names, .verbatim "[ATADC[!".toList⟩, []) := rfl
  obtain ⟨m, hread⟩ := read_collect names .verbatim "[ATADC[!".toList content
    (n + 1 + 1 + 1 + 1 + 1 + 1 + 1 + 1) fun p c q hcs m ↦ by
      have hgoes : ¬(c = '>' ∧ "]]".toList.isPrefixOf (p.reverse ++ "[ATADC[!".toList) = true) := by
        rintro ⟨rfl, hbrackets⟩
        rw [List.isPrefixOf_iff_prefix] at hbrackets
        have hlong : 2 ≤ p.length := by
          rw [← List.length_reverse]
          -- the opening mark has no bracket that could count for the closing one
          rcases hp : p.reverse with _ | ⟨x, _ | ⟨y, ys⟩⟩
          · exact absurd (hp ▸ hbrackets) (by decide)
          · rw [hp] at hbrackets
            exact absurd (List.cons_prefix_cons.mp hbrackets).2 (by decide)
          · simp only [List.length_cons]
            omega
        exact Bool.noConfusion (h.symm.trans
          (occursIn_iff.mpr (infix_of_prefix_reverse hcs hlong hbrackets)))
      simp only [step, if_neg hgoes]
  have hbrackets : (⟨m, names, .verbatim (content.reverse ++ "[ATADC[!".toList)⟩ : Scanner).read
      "]]".toList = (⟨m + 1 + 1, names,
        .verbatim (']' :: ']' :: (content.reverse ++ "[ATADC[!".toList))⟩, []) := rfl
  have hmark : "]]".toList.isPrefixOf
      (']' :: ']' :: (content.reverse ++ "[ATADC[!".toList)) = true := rfl
  have hreverse : (content.reverse ++ "[ATADC[!".toList).reverse
      = "![CDATA[".toList ++ content := by
    rw [List.reverse_append, List.reverse_reverse]
    rfl
  have hword : beginsWith "![cdata[" ("![CDATA[".toList ++ content) = true := rfl
  refine ⟨m + 1 + 1 + Char.utf8Size '>', ?_⟩
  rw [read_append, hstart, read_append, hread, show "]]>".toList = "]]".toList ++ ['>'] from rfl,
    read_append, hbrackets, read_cons]
  simp only [step, hmark, and_self, if_true, completeVerbatim, List.drop_succ_cons, List.drop_zero,
    hreverse, hword]
  rfl

end MessageCatalog.Markup
