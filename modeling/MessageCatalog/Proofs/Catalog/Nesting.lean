import MessageCatalog.Proofs.Catalog.Cursor
import MessageCatalog.Proofs.Markup.Steps

/-!
# The reader and the open elements

The scanner keeps the names of the open elements, the reader keeps its place, and neither looks at
the other. They agree nevertheless: there are as many open elements as the place is deep, and the
outermost one is the root (`Move.IsWithin`). A token takes both one level in, one level out, or
neither.

Two things follow. The reader is done exactly when the scanner has closed the root element, so that
what the root element leaves behind is a scanner as at the start of a document
(`Cursor.isWithin_or_done`). And a document that ends before that is accepted only inside the end
tag of the root, which may lack its `>` (`parse_eq_ok_cases`).
-/

namespace MessageCatalog

open Markup

/-! ## Depth -/

/-- The number of open elements where a text belongs to a slot. -/
def Slot.depth : Slot → Nat
  | .contextName _ | .contextComment _ => 3
  | .source _ | .field _ _ => 4
  | .form _ => 5

def Place.depth : Place → Nat
  | .outside => 0
  | .root _ => 1
  | .context _ => 2
  | .message _ => 3
  | .translation _ => 4
  | .text slot _ => slot.depth
  | .skipped _ depth back => back.depth + depth + 1

def Move.depth : Move → Nat
  | .go place => place.depth
  | .done _ => 0

@[simp] theorem Slot.depth_fill (slot : Slot) (text : String) :
    (slot.fill text).depth = slot.depth - 1 := by
  cases slot with
  | _ => rfl

theorem MessageDraft.depth_slot? {m : MessageDraft} {name : String} {slot : Slot}
    (h : m.slot? name = some slot) : slot.depth = 4 := by
  rw [slot?] at h
  split_ifs at h
  · obtain rfl := Option.some.inj h
    rfl
  · obtain ⟨f, -, rfl⟩ := Option.map_eq_some_iff.mp h
    rfl

/-- Whether an effect leads to some depth, if it is no fault. -/
def Reaches (depth : Nat) : Effect → Prop
  | .error _ => True
  | .ok (move, _) => move.depth = depth

theorem Reaches.bind {α : Type} {x : Except Fault α} {f : α → Effect} {depth : Nat}
    (h : ∀ a, Reaches depth (f a)) : Reaches depth (x >>= f) := by
  cases x with
  | error fault => trivial
  | ok a => exact h a

section

variable (token : Token)

theorem reaches_readOutside : Reaches (token.piece.depthAfter 0) (readOutside token) := by
  obtain ⟨piece, position⟩ := token
  cases piece with
  | opening tag | empty tag =>
    simp only [readOutside]
    split_ifs
    · exact .bind fun attributes ↦ rfl
    · trivial
  | fault fault => trivial
  | _ => rfl

theorem reaches_readInRoot (c : Catalog) :
    Reaches (token.piece.depthAfter 1) (readInRoot c token) := by
  obtain ⟨piece, position⟩ := token
  cases piece with
  | opening tag =>
    simp only [readInRoot]
    split_ifs <;> rfl
  | empty tag =>
    simp only [readInRoot]
    split_ifs
    · trivial
    · rfl
  | fault fault => trivial
  | _ => rfl

theorem reaches_readInContext (k : ContextDraft) :
    Reaches (token.piece.depthAfter 2) (readInContext k token) := by
  obtain ⟨piece, position⟩ := token
  cases piece with
  | opening tag =>
    simp only [readInContext]
    split_ifs
    · rfl
    · rfl
    · exact .bind fun attributes ↦ rfl
    · rfl
  | empty tag =>
    simp only [readInContext]
    split_ifs
    · rfl
    · rfl
    · trivial
    · rfl
  | closing =>
    simp only [readInContext, ContextDraft.complete]
    cases k.name with
    | none => trivial
    | some name => rfl
  | fault fault => trivial
  | _ => rfl

theorem reaches_readInMessage (m : MessageDraft) :
    Reaches (token.piece.depthAfter 3) (readInMessage m token) := by
  obtain ⟨piece, position⟩ := token
  cases piece with
  | opening tag =>
    simp only [readInMessage]
    split_ifs
    · exact .bind fun located ↦ rfl
    · exact .bind fun attributes ↦ rfl
    · cases hslot : m.slot? tag.name with
      | none => rfl
      | some slot => exact MessageDraft.depth_slot? hslot
  | empty tag =>
    simp only [readInMessage]
    split_ifs
    · exact .bind fun located ↦ rfl
    · exact .bind fun attributes ↦ rfl
    · cases hslot : m.slot? tag.name with
      | none => rfl
      | some slot =>
        refine (slot.depth_fill "").trans ?_
        rw [MessageDraft.depth_slot? hslot]
        rfl
  | closing =>
    simp only [readInMessage, MessageDraft.complete]
    cases m.source with
    | none => trivial
    | some source => rfl
  | fault fault => trivial
  | _ => rfl

theorem reaches_readInTranslation (t : TranslationDraft) :
    Reaches (token.piece.depthAfter 4) (readInTranslation t token) := by
  obtain ⟨piece, position⟩ := token
  cases piece with
  | text raw => exact .bind fun text ↦ rfl
  | opening tag =>
    simp only [readInTranslation]
    split_ifs <;> rfl
  | empty tag =>
    simp only [readInTranslation]
    split_ifs
    · rfl
    · exact .bind fun c ↦ rfl
    · rfl
  | fault fault => trivial
  | _ => rfl

theorem reaches_readInText (slot : Slot) (read : List Char) :
    Reaches (token.piece.depthAfter slot.depth) (readInText slot read token) := by
  obtain ⟨piece, position⟩ := token
  cases piece with
  | text raw => exact .bind fun text ↦ rfl
  | empty tag =>
    simp only [readInText]
    split_ifs
    · exact .bind fun c ↦ rfl
    · rfl
  | closing => exact slot.depth_fill _
  | fault fault => trivial
  | _ => rfl

theorem reaches_readSkipped (name : String) (depth : Nat) (back : Place) :
    Reaches (token.piece.depthAfter (back.depth + depth + 1))
      (readSkipped name depth back token) := by
  obtain ⟨piece, position⟩ := token
  cases piece with
  | closing =>
    cases depth with
    | zero => rfl
    | succ depth => rfl
  | fault fault => trivial
  | _ => rfl

/-- A token leads as deep as its kind says. -/
theorem Place.reaches_read (place : Place) :
    Reaches (token.piece.depthAfter place.depth) (place.read token) := by
  cases place with
  | outside => exact reaches_readOutside token
  | root c => exact reaches_readInRoot token c
  | context k => exact reaches_readInContext token k
  | message m => exact reaches_readInMessage token m
  | translation t => exact reaches_readInTranslation token t
  | text slot read => exact reaches_readInText token slot read
  | skipped name depth back => exact reaches_readSkipped token name depth back

end

/-! ## The end of the root element -/

theorem Place.eq_outside_of_depth {place : Place} (h : place.depth = 0) : place = .outside := by
  cases place with
  | outside => rfl
  | text slot read => cases slot <;> cases h
  | _ => cases h

@[simp] theorem Place.read_fault (place : Place) (fault : Markup.Fault) (position : Nat) :
    place.read ⟨.fault fault, position⟩ = .error (.markup position fault) := by
  cases place with
  | _ => rfl

theorem Move.depth_read {place : Place} {token : Token} {next : Move}
    (h : (Move.go place).read token = .ok next) :
    next.depth = token.piece.depthAfter place.depth := by
  have hreaches := place.reaches_read token
  rw [Move.read] at h
  obtain ⟨effect, hread, rfl⟩ := exists_of_map_eq_ok h
  rw [hread] at hreaches
  exact hreaches

/-- The reader is done at an empty-element tag or at the end tag of the root element. -/
theorem Move.read_eq_done {place : Place} {token : Token} {c : Catalog}
    (h : (Move.go place).read token = .ok (.done c)) :
    (∃ tag, token.piece = .empty tag) ∨ (token.piece = .closing ∧ place = .root c) := by
  have hdepth := Move.depth_read h
  obtain ⟨piece, position⟩ := token
  cases piece with
  | empty tag => exact .inl ⟨tag, rfl⟩
  | opening tag => cases hdepth
  | fault fault =>
    rw [Move.read, Place.read_fault] at h
    cases h
  | text raw | verbatim content | aside =>
    -- outside the root element these lead nowhere
    rw [Place.eq_outside_of_depth hdepth.symm] at h
    cases h
  | closing =>
    cases place with
    | root d =>
      cases h
      exact .inr ⟨rfl, rfl⟩
    | skipped name depth back => cases depth <;> cases h
    | text slot read => cases slot <;> cases hdepth
    | outside => cases h
    | _ => cases hdepth

/-- Whether a move is inside elements of these names: as many as it is deep, and the outermost of
them is the root element. -/
structure Move.IsWithin (move : Move) (names : List String) : Prop where
  length_eq : names.length = move.depth
  outermost : ∀ name ∈ names.getLast?, name = "TS"

theorem Move.isWithin_outside : (Move.go .outside).IsWithin [] :=
  ⟨rfl, fun _ h ↦ by cases h⟩

theorem Move.IsWithin.read {place : Place} {names after : List String} {token : Token}
    {next : Move} (h : (Move.go place).IsWithin names)
    (hread : (Move.go place).read token = .ok next) (hturns : token.piece.Turns names after) :
    next.IsWithin after := by
  have hfault : ∀ fault, token.piece ≠ .fault fault := by
    intro fault heq
    obtain ⟨piece, position⟩ := token
    obtain rfl : piece = .fault fault := heq
    rw [Move.read, Place.read_fault] at hread
    cases hread
  refine ⟨?_, ?_⟩
  · rw [hturns.length_eq hfault, h.length_eq, Move.depth_read hread]
    rfl
  obtain ⟨piece, position⟩ := token
  cases piece with
  | opening tag =>
    obtain rfl : after = tag.name :: names := hturns
    cases names with
    | cons name names => exact h.outermost
    | nil =>
      -- the first element to be opened is the root element
      obtain rfl := Place.eq_outside_of_depth h.length_eq.symm
      intro name hlast
      obtain rfl : tag.name = name := Option.some.inj hlast
      by_contra hname
      simp only [Move.read_outside, readOutside, if_neg hname] at hread
      cases hread
  | closing =>
    obtain ⟨name, rfl⟩ := hturns
    cases after with
    | nil => exact fun _ hnone ↦ by cases hnone
    | cons name names => exact h.outermost
  | fault fault => exact absurd rfl (hfault fault)
  | _ =>
    obtain rfl : after = names := hturns
    exact h.outermost

/-! ## Steps of a cursor -/

/-- A character keeps the reader within the open elements. If the reader is done after it, it is a
`>`, and no element is open. -/
theorem Cursor.read_singleton {s : Scanner} {place : Place} {c : Char} {y : Cursor}
    (h : (Move.go place).IsWithin s.names) (hread : (⟨s, .go place⟩ : Cursor).read [c] = .ok y) :
    y.move.IsWithin y.scanner.names
      ∧ ∀ catalog, y.move = .done catalog → c = '>' ∧ y.scanner.mode = .between := by
  obtain ⟨n, names, mode⟩ := s
  -- a step that completes a token leads where the token leads
  have htoken : ∀ next token, (⟨n, names, mode⟩ : Scanner).step c = (next, some token) →
      ∃ move, (Move.go place).read token = .ok move ∧ y = ⟨next, move⟩ := by
    intro next token hstep
    have hscan : (⟨n, names, mode⟩ : Scanner).read [c] = (next, [token]) := by
      rw [Scanner.read_cons, hstep]
      rfl
    rw [Cursor.read_of_token hscan] at hread
    obtain ⟨move, hmove, rfl⟩ := exists_of_map_eq_ok hread
    exact ⟨move, hmove, rfl⟩
  rcases stride names mode c with
    ⟨next, -, -, hstep⟩ | ⟨raw, -, hstep⟩ | ⟨e, hfits, hgt, hstep⟩
  · have hscan : (⟨n, names, mode⟩ : Scanner).read [c] = (⟨n + c.utf8Size, names, next⟩, []) := by
      rw [Scanner.read_cons, hstep]
      rfl
    rw [Cursor.read_of_no_token hscan] at hread
    obtain rfl := Except.ok.inj hread
    exact ⟨h, fun catalog hdone ↦ by cases hdone⟩
  · obtain ⟨move, hmove, rfl⟩ := htoken _ _ (hstep n)
    refine ⟨h.read hmove rfl, fun catalog hdone ↦ ?_⟩
    obtain rfl : move = .done catalog := hdone
    rcases Move.read_eq_done hmove with ⟨tag, heq⟩ | ⟨heq, -⟩ <;> cases heq
  · obtain ⟨move, hmove, rfl⟩ := htoken _ _ (hstep n)
    refine ⟨h.read hmove hfits.turns, fun catalog hdone ↦ ?_⟩
    obtain rfl : move = .done catalog := hdone
    have hpiece : ∀ fault, e.piece ≠ .fault fault := by
      intro fault heq
      rcases Move.read_eq_done hmove with ⟨tag, hempty⟩ | ⟨hclosing, -⟩
      · cases heq.symm.trans hempty
      · cases heq.symm.trans hclosing
    refine ⟨?_, Completion.mode_scanned hpiece _⟩
    rcases hgt with rfl | ⟨fault, heq⟩
    · rfl
    · exact absurd heq (hpiece fault)

theorem Cursor.read_cons (x : Cursor) (c : Char) (cs : List Char) :
    x.read (c :: cs) = (do (← x.read [c]).read cs) := by
  rw [← List.singleton_append, read_append]

theorem Cursor.eq_of_read {x y : Cursor} {cs : List Char} (h : x.read cs = .ok y) :
    (x.scanner.read cs).1 = y.scanner ∧ x.move.readAll (x.scanner.read cs).2 = .ok y.move := by
  rw [read] at h
  obtain ⟨move, hmove, rfl⟩ := exists_of_map_eq_ok h
  exact ⟨rfl, hmove⟩

/-- Whether a reading is done at the `>` after some characters, the scanner then being as at the
start of a document. -/
def Cursor.IsDoneAfter (x : Cursor) (before : List Char) (c : Catalog) : Prop :=
  ∃ s place n, x.read before = .ok ⟨s, .go place⟩
    ∧ (⟨s, .go place⟩ : Cursor).read ['>'] = .ok ⟨⟨n, [], .between⟩, .done c⟩

/-- A reading without a fault is within the open elements, or was done at some `>`. -/
theorem Cursor.isWithin_or_done {cs : List Char} {s : Scanner} {place : Place} {y : Cursor}
    (h : (Move.go place).IsWithin s.names) (hread : (⟨s, .go place⟩ : Cursor).read cs = .ok y) :
    (∃ next, y.move = .go next ∧ y.move.IsWithin y.scanner.names)
      ∨ ∃ before after c, y.move = .done c ∧ cs = before ++ '>' :: after
        ∧ IsDoneAfter ⟨s, .go place⟩ before c := by
  induction cs generalizing s place with
  | nil =>
    obtain rfl := Except.ok.inj hread
    exact .inl ⟨place, rfl, h⟩
  | cons d cs ih =>
    rw [read_cons] at hread
    obtain ⟨⟨⟨n, names, mode⟩, move⟩, hfirst, hrest⟩ := exists_of_bind_eq_ok hread
    obtain ⟨hwithin, hgt⟩ := read_singleton h hfirst
    cases move with
    | go next =>
      rcases ih hwithin hrest with
        hgo | ⟨before, after, c, hdone, rfl, s', place', n, hbefore, hend⟩
      · exact .inl hgo
      · refine .inr ⟨d :: before, after, c, hdone, rfl, s', place', n, ?_, hend⟩
        rw [read_cons, hfirst]
        exact hbefore
    | done c =>
      obtain ⟨rfl, rfl⟩ := hgt c rfl
      obtain rfl : names = [] := List.eq_nil_of_length_eq_zero hwithin.length_eq
      -- what follows is not read any more
      rw [Cursor.read, Move.readAll_done] at hrest
      obtain rfl := Except.ok.inj hrest
      exact .inr ⟨[], cs, c, rfl, rfl, s, place, n, rfl, hfirst⟩

theorem Cursor.IsDoneAfter.read {x : Cursor} {before : List Char} {c : Catalog}
    (h : x.IsDoneAfter before c) (after : List Char) :
    ∃ s, x.read (before ++ '>' :: after) = .ok ⟨s, .done c⟩ := by
  obtain ⟨s, place, n, hbefore, hend⟩ := h
  refine ⟨((⟨n, [], .between⟩ : Scanner).read after).1, ?_⟩
  rw [read_append, hbefore]
  change Cursor.read _ ('>' :: after) = _
  rw [read_cons, hend]
  change Cursor.read _ after = _
  rw [Cursor.read, Move.readAll_done]
  rfl

/-! ## Byte order marks -/

/-- Whether characters do not begin with a byte order mark. -/
def IsUnmarked (cs : List Char) : Prop :=
  cs.head? ≠ some '\uFEFF'

theorem IsUnmarked.dropByteOrderMark_eq {cs : List Char} (h : IsUnmarked cs) :
    dropByteOrderMark cs = cs := by
  unfold dropByteOrderMark
  split
  · exact absurd rfl h
  · rfl

theorem IsUnmarked.append {a b : List Char} (ha : IsUnmarked a) (hb : IsUnmarked b) :
    IsUnmarked (a ++ b) := by
  cases a with
  | nil => exact hb
  | cons c a => exact ha

theorem dropByteOrderMark_append (a : List Char) {b : List Char} (hb : IsUnmarked b) :
    dropByteOrderMark (a ++ b) = dropByteOrderMark a ++ b := by
  cases a with
  | nil => exact hb.dropByteOrderMark_eq
  | cons c a =>
    by_cases hc : c = '\uFEFF'
    · subst hc
      rfl
    · have hmark : ∀ cs, IsUnmarked (c :: cs) := fun cs h ↦ hc (Option.some.inj h)
      rw [List.cons_append, (hmark (a ++ b)).dropByteOrderMark_eq, (hmark a).dropByteOrderMark_eq,
        List.cons_append]

theorem IsUnmarked.of_isPrefix {a b : List Char} (h : a <+: b) (hb : IsUnmarked b) :
    IsUnmarked a := by
  obtain ⟨rest, rfl⟩ := h
  cases a with
  | nil => exact fun hnone ↦ by cases hnone
  | cons c a => exact hb

/-! ## The end of the document -/

/-- A document that ends before the reading is done is accepted in the end tag of the root. -/
theorem Cursor.endTag_of_finish {s : Scanner} {place : Place} {c : Catalog}
    (h : (Move.go place).IsWithin s.names) (hfinish : (⟨s, .go place⟩ : Cursor).finish = .ok c) :
    ∃ read, s.mode = .endTag read ∧ endName (read.reverse.drop 1) = "TS".toList := by
  rw [finish] at hfinish
  obtain ⟨move, hmoves, hcatalog⟩ := exists_of_bind_eq_ok hfinish
  cases move with
  | go next => cases hcatalog
  | done d =>
    cases htoken : s.finish with
    | none =>
      rw [htoken] at hmoves
      cases hmoves
    | some token =>
      rw [htoken, Option.toList_some, Move.readAll_singleton] at hmoves
      obtain ⟨hempty, hclosing⟩ := Scanner.piece_of_finish htoken
      rcases Move.read_eq_done hmoves with ⟨tag, heq⟩ | ⟨heq, rfl⟩
      · exact absurd heq (hempty tag)
      · -- the only element that is open is the outermost one
        obtain ⟨read, expected, outer, hmode, hnames, hname⟩ := hclosing heq
        have hlength := h.length_eq
        have houtermost := h.outermost
        rw [hnames] at hlength houtermost
        obtain rfl : outer = [] := List.eq_nil_of_length_eq_zero (Nat.succ.inj hlength)
        refine ⟨read, hmode, ?_⟩
        rw [← String.toList_ofList (l := endName _), hname, houtermost expected rfl]

/-- A document is accepted because its root element ends in it, or because it ends in the end tag
of its root element. -/
theorem parse_eq_ok_cases {document : String} {c : Catalog}
    (h : Catalog.parse document = .ok c) :
    (∃ before after, dropByteOrderMark document.toList = before ++ '>' :: after
        ∧ Cursor.start.IsDoneAfter before c)
      ∨ ∃ before raw, dropByteOrderMark document.toList = before ++ "</".toList ++ raw
        ∧ '>' ∉ raw ∧ endName raw = "TS".toList := by
  rw [parse_eq_finish] at h
  generalize dropByteOrderMark document.toList = cs at h ⊢
  obtain ⟨⟨s, move⟩, hread, hfinish⟩ := exists_of_bind_eq_ok h
  rcases Cursor.isWithin_or_done Move.isWithin_outside hread with
    ⟨next, rfl, hwithin⟩ | ⟨before, after, d, rfl, rfl, hafter⟩
  · obtain ⟨read, hmode, hname⟩ := Cursor.endTag_of_finish hwithin hfinish
    obtain ⟨before, raw, rfl, rfl, hraw⟩ :=
      Scanner.eq_append_of_endTag ((congrArg Scanner.mode (Cursor.eq_of_read hread).1).trans hmode)
    refine .inr ⟨before, raw, rfl, hraw, ?_⟩
    rwa [List.reverse_append, List.reverse_reverse, List.reverse_singleton,
      List.singleton_append, List.drop_one, List.tail_cons] at hname
  · refine .inl ⟨before, after, rfl, ?_⟩
    rw [Cursor.finish, Move.readAll_done] at hfinish
    obtain rfl := Except.ok.inj hfinish
    exact hafter

/-- Where a reading is done, the document is accepted, whatever follows. -/
theorem Cursor.IsDoneAfter.parse {before after : List Char} {c : Catalog} {document : String}
    (h : Cursor.start.IsDoneAfter before c)
    (hdocument : dropByteOrderMark document.toList = before ++ '>' :: after) :
    Catalog.parse document = .ok c := by
  obtain ⟨s, hread⟩ := h.read after
  rw [parse_eq_finish, hdocument, hread]
  change Cursor.finish _ = _
  rw [Cursor.finish, Move.readAll_done]
  rfl

end MessageCatalog
