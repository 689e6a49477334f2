import Mathlib.Data.List.Infix
import MessageCatalog.Proofs.Catalog.Nesting
import MessageCatalog.Proofs.Catalog.RoundTrip

/-!
# Documents that are cut off

A written document that is cut off anywhere before the end of its last tag's name is refused. One
that lacks only the `>` of that tag and the line break behind it is read like the whole document.

A document is accepted because its root element ends in it, or because it ends inside the end tag of
its root element (`parse_eq_ok_cases`). What is written before the end tag of the root element does
not do the first, since reading it leads to a place inside the root element or to a fault. It does
not do the second, since none of its tags has a name that begins as that of the root element does;
this is a fact about its letters only (`lacksRootEnd`), and holds of texts that cannot be read back
as well.
-/

namespace MessageCatalog

open Markup

/-! ## Where the end tag of the root element is not -/

/-- Whether no `<` begins the end tag of the root element, whatever may follow. -/
def lacksRootEnd : List Char → Bool
  | [] => true
  | c :: cs =>
    (c ≠ '<' || (!"/TS".toList.isPrefixOf cs && !cs.isPrefixOf "/TS".toList)) && lacksRootEnd cs

theorem lacksRootEnd_cons {c : Char} {cs : List Char} :
    lacksRootEnd (c :: cs) = true
      ↔ (c = '<' → ¬"/TS".toList <+: cs ∧ ¬cs <+: "/TS".toList) ∧ lacksRootEnd cs = true := by
  rw [lacksRootEnd, Bool.and_eq_true, Bool.or_eq_true, decide_eq_true_eq, Bool.and_eq_true,
    Bool.not_eq_true', Bool.not_eq_true', ← Bool.not_eq_true, ← Bool.not_eq_true,
    List.isPrefixOf_iff_prefix, List.isPrefixOf_iff_prefix, ← Decidable.imp_iff_not_or]

theorem lacksRootEnd_append {a b : List Char} (ha : lacksRootEnd a = true)
    (hb : lacksRootEnd b = true) : lacksRootEnd (a ++ b) = true := by
  induction a with
  | nil => exact hb
  | cons c a ih =>
    rw [List.cons_append, lacksRootEnd_cons]
    rw [lacksRootEnd_cons] at ha
    refine ⟨fun hc ↦ ?_, ih ha.2⟩
    -- what follows has parted from the end tag before `a` ends
    obtain ⟨hlong, hshort⟩ := ha.1 hc
    refine ⟨fun h ↦ ?_, fun h ↦ hshort ((List.prefix_append a b).trans h)⟩
    exact (List.prefix_or_prefix_of_prefix h (List.prefix_append a b)).elim hlong hshort

theorem lacksRootEnd_flatMap {α : Type} {write : α → List Char}
    (h : ∀ a, lacksRootEnd (write a) = true) (l : List α) :
    lacksRootEnd (l.flatMap write) = true := by
  induction l with
  | nil => rfl
  | cons a l ih =>
    rw [List.flatMap_cons]
    exact lacksRootEnd_append (h a) ih

theorem lacksRootEnd_of_plain {cs : List Char} (h : ∀ c ∈ cs, c ≠ '<') :
    lacksRootEnd cs = true := by
  induction cs with
  | nil => rfl
  | cons c cs ih =>
    exact lacksRootEnd_cons.mpr ⟨fun hc ↦ absurd hc (h c List.mem_cons_self),
      ih fun d hd ↦ h d (List.mem_cons_of_mem c hd)⟩

/-- The end tag of the root element begins only behind such a part. -/
theorem infix_of_lacksRootEnd {a b : List Char} (ha : lacksRootEnd a = true)
    (h : "</TS".toList <:+: a ++ b) : "</TS".toList <:+: b := by
  induction a with
  | nil => exact h
  | cons c a ih =>
    rw [lacksRootEnd_cons] at ha
    rw [List.cons_append, List.infix_cons_iff] at h
    rcases h with h | h
    · have hcons : '<' :: "/TS".toList <+: c :: (a ++ b) := h
      obtain ⟨hc, hrest⟩ := List.cons_prefix_cons.mp hcons
      obtain ⟨hlong, hshort⟩ := ha.1 hc.symm
      exact ((List.prefix_or_prefix_of_prefix hrest (List.prefix_append a b)).elim hlong
        hshort).elim
    · exact ih ha.2 h

/-! ## What is written before it -/

@[simp] theorem lacksRootEnd_encode (cs : List Char) : lacksRootEnd (encode cs) = true :=
  lacksRootEnd_of_plain fun c hc ↦ (storing.plain cs c hc).1

@[simp] theorem lacksRootEnd_indent (n : Nat) : lacksRootEnd (List.replicate n ' ') = true := by
  refine lacksRootEnd_of_plain fun c hc ↦ ?_
  rw [List.eq_of_mem_replicate hc]
  decide

theorem lacksRootEnd_attribute {key : String} (hkey : lacksRootEnd (' ' :: key.toList) = true)
    (value : Option String) : lacksRootEnd (renderAttribute key value) = true := by
  cases value with
  | none => rfl
  | some value =>
    have hequals : lacksRootEnd "=\"".toList = true := by decide
    have hquote : lacksRootEnd ['"'] = true := by decide
    exact lacksRootEnd_append (lacksRootEnd_append (lacksRootEnd_append hkey hequals)
      (lacksRootEnd_encode value.toList)) hquote

theorem lacksRootEnd_element (indent : Nat) {name : String} (text : String)
    (hopen : lacksRootEnd ('<' :: name.toList) = true)
    (hclose : lacksRootEnd ("</".toList ++ name.toList) = true) :
    lacksRootEnd (renderElement indent name text) = true := by
  have hshape : renderElement indent name text
      = List.replicate indent ' ' ++ '<' :: name.toList ++ ['>'] ++ encode text.toList
        ++ ("</".toList ++ name.toList) ++ ">\n".toList := by
    unfold renderElement
    simp only [List.append_assoc, List.cons_append, List.nil_append]
  have hgt : lacksRootEnd ['>'] = true := by decide
  have hend : lacksRootEnd ">\n".toList = true := by decide
  rw [hshape]
  exact lacksRootEnd_append (lacksRootEnd_append (lacksRootEnd_append (lacksRootEnd_append
    (lacksRootEnd_append (lacksRootEnd_indent indent) hopen) hgt)
      (lacksRootEnd_encode text.toList)) hclose) hend

theorem lacksRootEnd_optional (indent : Nat) {name : String} (text : Option String)
    (hopen : lacksRootEnd ('<' :: name.toList) = true)
    (hclose : lacksRootEnd ("</".toList ++ name.toList) = true) :
    lacksRootEnd (renderOptional indent name text) = true := by
  cases text with
  | none => rfl
  | some text => exact lacksRootEnd_element indent text hopen hclose

@[simp] theorem lacksRootEnd_location (l : Location) : lacksRootEnd l.render = true :=
  lacksRootEnd_append (lacksRootEnd_append (lacksRootEnd_append (by decide)
    (lacksRootEnd_attribute (by decide) l.filename)) (lacksRootEnd_attribute (by decide) l.line))
      (by decide)

@[simp] theorem lacksRootEnd_wording (w : Wording) : lacksRootEnd w.render = true := by
  have hform : ∀ text, lacksRootEnd (renderElement 12 "numerusform" text) = true := fun text ↦
    lacksRootEnd_element 12 text (by decide) (by decide)
  cases w with
  | single text => exact lacksRootEnd_encode text.toList
  | plural forms =>
    cases forms with
    | nil => rfl
    | cons form forms =>
      have hforms : lacksRootEnd
          ('\n' :: (form :: forms).flatMap (renderElement 12 "numerusform")) = true :=
        lacksRootEnd_cons.mpr ⟨fun h ↦ absurd h (by decide), lacksRootEnd_flatMap hform _⟩
      exact lacksRootEnd_append hforms (lacksRootEnd_indent 8)

@[simp] theorem lacksRootEnd_translation (t : Translation) : lacksRootEnd t.render = true := by
  have hwording : lacksRootEnd ('>' :: t.wording.render) = true :=
    lacksRootEnd_cons.mpr ⟨fun h ↦ absurd h (by decide), lacksRootEnd_wording t.wording⟩
  exact lacksRootEnd_append (lacksRootEnd_append (lacksRootEnd_append (by decide)
    (lacksRootEnd_attribute (by decide) t.status.mark?)) hwording) (by decide)

@[simp] theorem lacksRootEnd_message (m : Message) : lacksRootEnd m.render = true := by
  unfold Message.render
  refine lacksRootEnd_append (lacksRootEnd_append (lacksRootEnd_append (lacksRootEnd_append
    (lacksRootEnd_append ?tag ?locations) ?source) ?fields) ?translation) ?ending
  case tag =>
    refine lacksRootEnd_append (lacksRootEnd_append (lacksRootEnd_append ?_ ?_) ?_) ?_
    · decide
    · exact lacksRootEnd_attribute (by decide) m.id
    · exact lacksRootEnd_attribute (by decide) (if m.numerus then some "yes" else none)
    · decide
  case locations => exact lacksRootEnd_flatMap lacksRootEnd_location m.locations
  case source => exact lacksRootEnd_element 8 m.source (by decide) (by decide)
  case fields =>
    refine lacksRootEnd_flatMap (fun f ↦ lacksRootEnd_optional 8 (m.field f) ?_ ?_) Field.all
    · cases f <;> decide
    · cases f <;> decide
  case translation => exact lacksRootEnd_translation m.translation
  case ending => decide

@[simp] theorem lacksRootEnd_context (k : Context) : lacksRootEnd k.render = true := by
  unfold Context.render
  refine lacksRootEnd_append (lacksRootEnd_append (lacksRootEnd_append
    (lacksRootEnd_append ?tag ?name) ?comment) ?messages) ?ending
  case tag => decide
  case name => exact lacksRootEnd_element 4 k.name (by decide) (by decide)
  case comment => exact lacksRootEnd_optional 4 k.comment (by decide) (by decide)
  case messages => exact lacksRootEnd_flatMap lacksRootEnd_message k.messages
  case ending => decide

/-- A catalog's document up to the end tag of its root element. -/
def Catalog.renderUnclosed (c : Catalog) : List Char :=
  prolog ++ ('<' :: (tagContent storing "TS" (optionalAttributes c.values) ++ ['>'])
    ++ (['\n'] ++ c.contexts.flatMap Context.render))

theorem render_eq_unclosed (c : Catalog) : c.render = c.renderUnclosed ++ "</TS>\n".toList := by
  have hend : "</TS>\n".toList = "</".toList ++ "TS".toList ++ ['>'] ++ ['\n'] := rfl
  rw [render_eq, elementWritten, Catalog.renderUnclosed, hend]
  simp only [List.append_assoc]

@[simp] theorem lacksRootEnd_unclosed (c : Catalog) : lacksRootEnd c.renderUnclosed = true := by
  have heq := render_eq_unclosed c
  unfold Catalog.render at heq
  simp only [← List.append_cancel_right heq]
  refine lacksRootEnd_append (lacksRootEnd_append (lacksRootEnd_append
    (lacksRootEnd_append (lacksRootEnd_append ?tag ?version) ?language) ?source) ?ending) ?contexts
  case tag => decide
  case version => exact lacksRootEnd_attribute (by decide) c.version
  case language => exact lacksRootEnd_attribute (by decide) c.language
  case source => exact lacksRootEnd_attribute (by decide) c.sourceLanguage
  case ending => decide
  case contexts => exact lacksRootEnd_flatMap lacksRootEnd_context c.contexts

/-! ## Where the reading stands before it -/

theorem Comes.of_stored {α β : Type} {R : α → β → Prop} {x : Except Fault α} {good : Bool} {b : β}
    (h : Comes R x (stored good b)) : (∃ fault, x = .error fault) ∨ ∃ a, x = .ok a ∧ R a b := by
  cases good with
  | false =>
    cases h with
    | error hflaw => exact .inl ⟨_, rfl⟩
  | true =>
    cases h with
    | ok hab => exact .inr ⟨_, rfl, hab⟩

/-- Reading up to the end tag of the root element meets a fault or leads to the normal catalog. -/
theorem read_unclosed (c : Catalog) :
    (∃ fault, Cursor.start.read c.renderUnclosed = .error fault)
      ∨ ∃ x, Cursor.start.read c.renderUnclosed = .ok x ∧ Stands ["TS"] (.root c.normal) x := by
  obtain ⟨x, hprolog, hx⟩ := read_prolog
  have hroot := hx.read_unclosed (by decide) (areAttributes_values c) (follows_root_start c)
    fun inner hinner ↦ eq_of_stored hinner ▸ leads_contexts c
  rw [stored_bind] at hroot
  rw [Catalog.renderUnclosed, Cursor.read_append, hprolog]
  exact hroot.of_stored

theorem Stands.read_rootEnd {c : Catalog} {x : Cursor} (h : Stands ["TS"] (.root c) x) :
    ∃ s, x.read "</T".toList = .ok ⟨s, .go (.root c)⟩ := by
  obtain ⟨n, hlt⟩ := h.read_lt
  refine ⟨⟨n + 1 + 1, ["TS"], .endTag ['T', '/']⟩, ?_⟩
  rw [show "</T".toList = ['<'] ++ ['/', 'T'] from rfl, Cursor.read_append, hlt]
  rfl

/-- After the name in the end tag of the root element, the rest of the document may be missing. -/
theorem Stands.finish_rootEnd {c : Catalog} {x : Cursor} (h : Stands ["TS"] (.root c) x)
    {rest : List Char} (hrest : rest <+: ">\n".toList) :
    (do (← x.read ("</TS".toList ++ rest)).finish) = .ok c := by
  obtain ⟨n, hlt⟩ := h.read_lt
  have hcases : rest ∈ [[], ['>'], ['>', '\n']] := (List.mem_inits _ _).mpr hrest
  rw [show "</TS".toList = ['<'] ++ ['/', 'T', 'S'] from rfl, List.append_assoc,
    Cursor.read_append, hlt]
  simp only [List.mem_cons, List.not_mem_nil, or_false] at hcases
  rcases hcases with rfl | rfl | rfl
  · rfl
  · rfl
  · rfl

/-! ## Cutting off -/

theorem isUnmarked_render (c : Catalog) : IsUnmarked c.render := by
  rw [render_eq]
  exact (by decide : some '<' ≠ some '\uFEFF')

theorem endName_isPrefix (raw : List Char) : endName raw <+: raw := by
  rw [endName]
  split
  · exact List.prefix_refl raw
  · have hsuffix := List.dropWhile_suffix isBlank (l := raw.reverse)
    rwa [← List.reverse_prefix, List.reverse_reverse] at hsuffix

/-- A document that is cut off in the name of its last tag or earlier is refused. -/
theorem parse_error_of_isPrefix (c : Catalog) {kept : List Char} (hmark : IsUnmarked kept)
    (h : kept <+: c.renderUnclosed ++ "</T".toList) :
    ∃ fault, Catalog.parse (String.ofList kept) = .error fault := by
  cases hparse : Catalog.parse (String.ofList kept) with
  | error fault => exact ⟨fault, rfl⟩
  | ok d =>
    have hcases := parse_eq_ok_cases hparse
    rw [String.toList_ofList, hmark.dropByteOrderMark_eq] at hcases
    rcases hcases with ⟨before, after, rfl, hdone⟩ | ⟨before, raw, rfl, -, hname⟩
    · -- the reading would be done, but it is in the root element or has met a fault
      obtain ⟨more, hmore⟩ := h
      obtain ⟨s, hread⟩ := hdone.read (after ++ more)
      rw [← List.cons_append, ← List.append_assoc, hmore, Cursor.read_append] at hread
      rcases read_unclosed c with ⟨fault, herror⟩ | ⟨x, hx, hstands⟩
      · rw [herror] at hread
        cases hread
      · obtain ⟨inner, hinner⟩ := hstands.read_rootEnd
        rw [hx] at hread
        cases hinner.symm.trans hread
    · -- the end tag of the root element would have begun
      have hbegins : "</".toList ++ "TS".toList <+: "</".toList ++ raw :=
        (List.prefix_append_right_inj _).mpr (hname ▸ endName_isPrefix raw)
      have hinfix : "</TS".toList <:+: c.renderUnclosed ++ "</T".toList := by
        refine (hbegins.isInfix.trans ?_).trans h.isInfix
        rw [List.append_assoc]
        exact (List.suffix_append before _).isInfix
      have hshort := infix_of_lacksRootEnd (lacksRootEnd_unclosed c) hinfix
      exact absurd hshort.length_le (by decide)

/-- What a document comes to that is cut off after the name of its last tag does not depend on where
that is. -/
theorem parse_rootEnd (c : Catalog) {rest : List Char} (hrest : rest <+: ">\n".toList)
    (hmark : IsUnmarked (c.renderUnclosed ++ "</TS".toList ++ rest)) :
    Catalog.parse (String.ofList (c.renderUnclosed ++ "</TS".toList ++ rest))
      = (Cursor.start.read c.renderUnclosed).map fun _ ↦ c.normal := by
  rw [parse_eq_finish, String.toList_ofList, hmark.dropByteOrderMark_eq, List.append_assoc,
    Cursor.read_append]
  rcases read_unclosed c with ⟨fault, herror⟩ | ⟨x, hx, hstands⟩
  · rw [herror]
    rfl
  · rw [hx]
    exact hstands.finish_rootEnd hrest

/-- A written document that lacks more than its last two characters is refused. One that lacks no
more is read like the whole: these are the `>` of the last tag and the line break after it. -/
theorem parse_truncated {c : Catalog} {kept lost : String} (h : c.write = kept ++ lost) :
    if 2 < lost.length then ∃ fault, Catalog.parse kept = .error fault
    else Catalog.parse kept = Catalog.parse c.write := by
  have hchars : kept.toList ++ lost.toList = c.render := by
    rw [← String.toList_append, ← h, Catalog.write, String.toList_ofList]
  have hkept : kept.toList <+: c.render := ⟨lost.toList, hchars⟩
  have hmark : IsUnmarked kept.toList := (isUnmarked_render c).of_isPrefix hkept
  have hname : c.renderUnclosed ++ "</T".toList ++ "S>\n".toList = c.render := by
    rw [render_eq_unclosed, List.append_assoc]
    rfl
  have hend : c.renderUnclosed ++ "</TS".toList ++ ">\n".toList = c.render := by
    rw [render_eq_unclosed, List.append_assoc]
    rfl
  -- a cut before or after the last letter of the name leaves three or two characters
  have hlost : lost.toList.length = lost.length := String.length_toList
  have hthree : "S>\n".toList.length = 3 := rfl
  have htwo : ">\n".toList.length = 2 := rfl
  have hlength := congrArg List.length hchars
  have hnameLength := congrArg List.length hname
  have hendLength := congrArg List.length hend
  rw [List.length_append] at hlength hnameLength hendLength
  split
  · next hlong =>
    have hbegins : kept.toList <+: c.renderUnclosed ++ "</T".toList :=
      List.prefix_of_prefix_length_le hkept ⟨_, hname⟩ (by omega)
    have herror := parse_error_of_isPrefix c hmark hbegins
    rwa [String.ofList_toList] at herror
  · next hshort =>
    obtain ⟨rest, hrest⟩ : c.renderUnclosed ++ "</TS".toList <+: kept.toList :=
      List.prefix_of_prefix_length_le ⟨_, hend⟩ hkept (by omega)
    have hsplit : rest ++ lost.toList = ">\n".toList := by
      rw [← hend, ← hrest, List.append_assoc] at hchars
      exact List.append_cancel_left hchars
    have hcut := parse_rootEnd c ⟨_, hsplit⟩ (hrest ▸ hmark)
    have hwhole := parse_rootEnd c (List.prefix_refl _) (hend ▸ isUnmarked_render c)
    rw [hrest, String.ofList_toList] at hcut
    rw [hend] at hwhole
    exact hcut.trans hwhole.symm

theorem parse_truncated_contexts :
    Catalog.write { contexts := [{ name := "a" }, { name := "é" }] }
        = "<?xml version=\"1.0\" encoding=\"utf-8\"?>\n<!DOCTYPE TS>\n<TS>\n"
          ++ "<context>\n    <name>a</name>\n</context>\n"
          ++ "<context>\n    <name>é</name>\n</context>\n</TS>\n"
      ∧ ∃ fault, Catalog.parse ("<?xml version=\"1.0\" encoding=\"utf-8\"?>\n<!DOCTYPE TS>\n<TS>\n"
          ++ "<context>\n    <name>a</name>\n</context>\n") = .error fault := by
  have hwrite : Catalog.write { contexts := [{ name := "a" }, { name := "é" }] }
      = "<?xml version=\"1.0\" encoding=\"utf-8\"?>\n<!DOCTYPE TS>\n<TS>\n"
        ++ "<context>\n    <name>a</name>\n</context>\n"
        ++ "<context>\n    <name>é</name>\n</context>\n</TS>\n" := by
    decide +kernel
  have herror := parse_truncated hwrite
  rw [if_pos (by decide)] at herror
  exact ⟨hwrite, herror⟩

/-- A document that lacks the `>` of its last tag need not be refused. -/
theorem not_parse_truncated_error :
    ¬∀ (c : Catalog) (kept lost : String), c.write = kept ++ lost → 2 ≤ lost.length →
      ∃ fault, Catalog.parse kept = .error fault := by
  intro h
  have hparse : Catalog.parse
      "<?xml version=\"1.0\" encoding=\"utf-8\"?>\n<!DOCTYPE TS>\n<TS>\n</TS" = .ok {} := rfl
  obtain ⟨fault, herror⟩ := h {}
    "<?xml version=\"1.0\" encoding=\"utf-8\"?>\n<!DOCTYPE TS>\n<TS>\n</TS" ">\n"
    (by decide +kernel) (by decide)
  cases hparse.symm.trans herror

end MessageCatalog
