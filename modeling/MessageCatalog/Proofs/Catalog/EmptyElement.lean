import MessageCatalog.Proofs.Catalog.Nesting
import MessageCatalog.Proofs.Catalog.Relocation
import MessageCatalog.Proofs.Markup.EmptyElement

/-!
# Empty elements

An empty element can be written as one tag or as a start tag and an end tag. The two ways are read
alike wherever the element stands and whatever its name and attributes are, but for one exception: a
`byte` element in a text stands for a character only as one tag (`parse_emptyElement`).

Alike means the same catalog, or a fault in both cases. It need not be the same fault: a message
without a source is reported by one tag before its attributes are looked at. After the element the
two readings are at the same place, some bytes apart, and read the rest alike
(`Move.readAll_shift`).
-/

namespace MessageCatalog

open Markup Text

/-! ## One tag and two -/

/-- Whether the empty-element tag leads where the start tag and the end tag lead, wherever the tags
stand. -/
def Place.TreatsAlike (place : Place) (tag : Tag) : Prop :=
  ∀ p q r, ((Move.go place).read ⟨.empty tag, p⟩).toOption
    = ((Move.go place).readAll [⟨.opening tag, q⟩, ⟨.closing, r⟩]).toOption

section

variable (tag : Tag)

theorem treatsAlike_outside : Place.outside.TreatsAlike tag := by
  intro p q r
  by_cases hname : tag.name = "TS"
  · simp only [Move.readAll_cons, Move.read_outside, readOutside, if_pos hname, attributesAt]
    cases tag.attributes with
    | error fault => rfl
    | ok attributes => rfl
  · simp only [Move.readAll_cons, Move.read_outside, readOutside, if_neg hname]
    rfl

/-- A context without a name is refused at its end tag. -/
theorem treatsAlike_root (c : Catalog) : (Place.root c).TreatsAlike tag := by
  intro p q r
  by_cases hname : tag.name = "context"
  · simp only [Move.readAll_cons, Move.read_inRoot, readInRoot, if_pos hname]
    rfl
  · simp only [Move.readAll_cons, Move.read_inRoot, readInRoot, if_neg hname]
    rfl

theorem treatsAlike_context (k : ContextDraft) : (Place.context k).TreatsAlike tag := by
  intro p q r
  simp only [Move.readAll_cons, Move.read_inContext, readInContext]
  split_ifs
  · rfl
  · rfl
  · -- the attributes are looked at only in a start tag, and the source is missing in any case
    simp only [attributesAt]
    cases tag.attributes with
    | error fault => rfl
    | ok attributes => rfl
  · rfl

theorem treatsAlike_message (m : MessageDraft) : (Place.message m).TreatsAlike tag := by
  intro p q r
  simp only [Move.readAll_cons, Move.read_inMessage, readInMessage, MessageDraft.locate,
    attributesAt]
  split_ifs
  · cases tag.attributes with
    | error fault => rfl
    | ok attributes => rfl
  · cases tag.attributes with
    | error fault => rfl
    | ok attributes => rfl
  · cases m.slot? tag.name with
    | none => rfl
    | some slot => rfl

theorem treatsAlike_translation (t : TranslationDraft) (hname : tag.name ≠ "byte") :
    (Place.translation t).TreatsAlike tag := by
  intro p q r
  simp only [Move.readAll_cons, Move.read_inTranslation, readInTranslation, if_neg hname]
  split_ifs
  · rfl
  · rfl

theorem treatsAlike_text (slot : Slot) (read : List Char) (hname : tag.name ≠ "byte") :
    (Place.text slot read).TreatsAlike tag := by
  intro p q r
  simp only [Move.readAll_cons, Move.read_inText, readInText, if_neg hname]
  rfl

theorem treatsAlike_skipped (name : String) (depth : Nat) (back : Place) :
    (Place.skipped name depth back).TreatsAlike tag :=
  fun _ _ _ ↦ rfl

/-- One tag and two are read alike, but for a `byte` element in a text. -/
theorem Place.treatsAlike (place : Place) (hbyte : tag.name = "byte" → place.takesText = false) :
    place.TreatsAlike tag := by
  have hname : place.takesText = true → tag.name ≠ "byte" := by
    intro htext hname
    exact Bool.noConfusion ((hbyte hname).symm.trans htext)
  cases place with
  | outside => exact treatsAlike_outside tag
  | root c => exact treatsAlike_root tag c
  | context k => exact treatsAlike_context tag k
  | message m => exact treatsAlike_message tag m
  | translation t => exact treatsAlike_translation tag t (hname rfl)
  | text slot read => exact treatsAlike_text tag slot read (hname rfl)
  | skipped name depth back => exact treatsAlike_skipped tag name depth back

end

/-! ## In a document -/

/-- Whether a `<` after some characters begins markup, or is not scanned since there was a fault. -/
def AreBeforeMarkup (before : List Char) : Prop :=
  (Scanner.start.read (before ++ ['<'])).1.mode = .markup
    ∨ (Scanner.start.read (before ++ ['<'])).1.mode = .stopped

/-- Whether markup after some characters is directly in an element whose text counts. -/
def AreInText (before : List Char) : Prop :=
  ∃ s place, Cursor.start.read (before ++ ['<']) = .ok ⟨s, .go place⟩ ∧ place.takesText = true

@[simp] theorem Scanner.scan_stopped (n : Nat) (names : List String) (cs : List Char) :
    (⟨n, names, .stopped⟩ : Scanner).scan cs = [] := by
  induction cs generalizing n with
  | nil => rfl
  | cons c cs ih => exact ih (n + c.utf8Size)

section

variable {name : String} {body space : List Char} {before after : List Char}

/-- Both ways to write the element make the same tokens but for its own, those behind it further on
by what the second way is longer. -/
theorem scan_twoTags (hname : isName name = true) (hbody : isTagBody body = true)
    (hspace : space.all Markup.isBlank = true)
    (hbefore : (Scanner.start.read (before ++ ['<'])).1.mode = .markup) :
    ∃ p q r d rest,
      Scanner.start.scan (before ++ ['<'] ++ (name.toList ++ body ++ "/>".toList ++ after))
        = (Scanner.start.read (before ++ ['<'])).2 ++ ⟨.empty ⟨name, body⟩, p⟩ :: rest
      ∧ Scanner.start.scan (before ++ ['<'] ++ (name.toList ++ body ++ ['>']
          ++ ("</".toList ++ name.toList ++ space ++ ['>']) ++ after))
        = (Scanner.start.read (before ++ ['<'])).2
          ++ ⟨.opening ⟨name, body⟩, q⟩ :: ⟨.closing, r⟩ :: rest.map (Token.shift d) := by
  obtain ⟨n, names, hscanner⟩ : ∃ n names,
      (Scanner.start.read (before ++ ['<'])).1 = ⟨n, names, .markup⟩ :=
    ⟨_, _, congrArg (Scanner.mk _ _) hbefore⟩
  obtain ⟨p, hone⟩ := Scanner.read_oneTag hname hbody n names
  obtain ⟨q, r, htwo⟩ := Scanner.read_twoTags hname hbody n names hspace
  -- the second way is longer
  have hp := congrArg (·.1.consumed) hone
  have hr := congrArg (·.1.consumed) htwo
  simp only [Scanner.consumed_read, byteWidth_append] at hp hr
  obtain ⟨d, rfl⟩ : ∃ d, r = p + d := by
    refine ⟨r - p, ?_⟩
    have hwidths : byteWidth "/>".toList ≤ byteWidth ['>'] + byteWidth "</".toList := by decide
    omega
  refine ⟨p, q, p + d, d, (⟨p, names, .between⟩ : Scanner).scan after, ?_, ?_⟩
  · rw [Scanner.scan_append, hscanner, Scanner.scan_append, hone]
    rfl
  · rw [Scanner.scan_append, hscanner, Scanner.scan_append, htwo,
      ← Scanner.scan_shift (Scanner.isAnchored_between p names)]
    rfl

end

theorem Place.TreatsAlike.readAll {place : Place} {tag : Tag} (h : place.TreatsAlike tag)
    (p q r d : Nat) (rest : List Token) :
    (do (← (Move.go place).readAll (⟨.empty tag, p⟩ :: rest)).catalog).toOption
      = (do (← (Move.go place).readAll
          (⟨.opening tag, q⟩ :: ⟨.closing, r⟩ :: rest.map (Token.shift d))).catalog).toOption := by
  have hpair : ⟨.opening tag, q⟩ :: ⟨.closing, r⟩ :: rest.map (Token.shift d)
      = [⟨.opening tag, q⟩, ⟨.closing, r⟩] ++ rest.map (Token.shift d) := rfl
  rw [hpair, Move.readAll_cons, Move.readAll_append]
  simp only [toOption_bind, Move.readAll_shift, toOption_mapError]
  rw [h p q r]

theorem tokens_append_lt (before part : String) :
    tokens (before ++ "<" ++ part) = Scanner.start.scan
      (dropByteOrderMark before.toList ++ ['<'] ++ part.toList) := by
  have hmark : IsUnmarked ('<' :: part.toList) := (by decide : some '<' ≠ some '\uFEFF')
  have hlist : (before ++ "<" ++ part).toList = before.toList ++ '<' :: part.toList := by
    rw [String.toList_append, String.toList_append, List.append_assoc]
    rfl
  rw [tokens, hlist, dropByteOrderMark_append _ hmark, List.append_assoc, List.singleton_append]

theorem parse_eq_catalog (document : String) :
    Catalog.parse document
      = (do (← (Move.go .outside).readAll (tokens document)).catalog) := by
  rw [Catalog.parse, Catalog.read, Place.run_result]

/-- An element without content is read alike as one tag and as two, to the same catalog or to a
fault, but for a `byte` element in a text. The end tag may have white space after its name. -/
theorem parse_emptyElement {before name body space after : String} (hname : isName name = true)
    (hbody : isTagBody body.toList = true) (hspace : space.toList.all Markup.isBlank = true)
    (hbefore : AreBeforeMarkup (dropByteOrderMark before.toList))
    (hbyte : name = "byte" → ¬AreInText (dropByteOrderMark before.toList)) :
    (Catalog.parse (before ++ "<" ++ (name ++ body ++ "/>" ++ after))).toOption
      = (Catalog.parse
        (before ++ "<" ++ (name ++ body ++ "></" ++ name ++ space ++ ">" ++ after))).toOption := by
  have hone : (name ++ body ++ "/>" ++ after).toList
      = name.toList ++ body.toList ++ "/>".toList ++ after.toList := by
    simp only [String.toList_append]
  have htwo : (name ++ body ++ "></" ++ name ++ space ++ ">" ++ after).toList
      = name.toList ++ body.toList ++ ['>'] ++ ("</".toList ++ name.toList ++ space.toList ++ ['>'])
        ++ after.toList := by
    simp only [String.toList_append, List.append_assoc]
    rfl
  rw [parse_eq_catalog, parse_eq_catalog, tokens_append_lt, tokens_append_lt, hone, htwo]
  generalize dropByteOrderMark before.toList = chars at hbefore hbyte ⊢
  rcases hbefore with hmarkup | hstopped
  · obtain ⟨p, q, r, d, rest, hscanOne, hscanTwo⟩ := scan_twoTags hname hbody hspace hmarkup
    rw [hscanOne, hscanTwo, Move.readAll_append, Move.readAll_append]
    cases hmove : (Move.go .outside).readAll (Scanner.start.read (chars ++ ['<'])).2 with
    | error fault => rfl
    | ok move =>
      cases move with
      | done c =>
        change (do (← (Move.done c).readAll _).catalog).toOption
          = (do (← (Move.done c).readAll _).catalog).toOption
        rw [Move.readAll_done, Move.readAll_done]
      | go place =>
        refine (place.treatsAlike ⟨name, body.toList⟩ fun hbyteName ↦ ?_).readAll p q r d rest
        refine Bool.eq_false_iff.mpr fun htext ↦ hbyte hbyteName ?_
        exact ⟨_, place, congrArg (Except.map (Cursor.mk _)) hmove, htext⟩
  · -- nothing after the fault makes a token
    obtain ⟨n, names, hscanner⟩ : ∃ n names,
        (Scanner.start.read (chars ++ ['<'])).1 = ⟨n, names, .stopped⟩ :=
      ⟨_, _, congrArg (Scanner.mk _ _) hstopped⟩
    have hrest : ∀ cs, Scanner.start.scan (chars ++ ['<'] ++ cs)
        = (Scanner.start.read (chars ++ ['<'])).2 := by
      intro cs
      rw [Scanner.scan_append, hscanner, Scanner.scan_stopped, List.append_nil]
    rw [hrest, hrest]

/-- Directly in a context, a `byte` element is skipped either way. -/
theorem parse_emptyElement_context :
    Catalog.parse "<TS><context><name>a</name><byte value='>'></byte\n></context></TS>"
        = .ok { contexts := [{ name := "a" }] }
      ∧ (Catalog.parse "<TS><context><name>a</name><byte value='>'/></context></TS>").toOption
        = (Catalog.parse
          "<TS><context><name>a</name><byte value='>'></byte\n></context></TS>").toOption := by
  have hplace : ¬AreInText (dropByteOrderMark "<TS><context><name>a</name>".toList) := by
    rintro ⟨s, place, hread, htext⟩
    have hcontext : Cursor.start.read
        (dropByteOrderMark "<TS><context><name>a</name>".toList ++ ['<'])
          = .ok ⟨⟨28, ["context", "TS"], .markup⟩,
            .go (.context { catalog := {}, name := some "a" })⟩ := rfl
    cases hread.symm.trans hcontext
    cases htext
  have halike : (Catalog.parse ("<TS><context><name>a</name>" ++ "<"
      ++ ("byte" ++ " value='>'" ++ "/>" ++ "</context></TS>"))).toOption
        = (Catalog.parse ("<TS><context><name>a</name>" ++ "<"
          ++ ("byte" ++ " value='>'" ++ "></" ++ "byte" ++ "\n" ++ ">"
            ++ "</context></TS>"))).toOption :=
    parse_emptyElement (by decide) (by decide) (by decide) (.inl rfl) fun _ ↦ hplace
  exact ⟨rfl, halike⟩

/-- In a name, a `byte` element stands for a character only as one tag. -/
theorem not_parse_emptyElement :
    ¬∀ before name body after : String, isName name = true → isTagBody body.toList = true →
      AreBeforeMarkup (dropByteOrderMark before.toList) →
      (Catalog.parse (before ++ "<" ++ (name ++ body ++ "/>" ++ after))).toOption
        = (Catalog.parse
          (before ++ "<" ++ (name ++ body ++ "></" ++ name ++ ">" ++ after))).toOption := by
  intro h
  have halike := h "<TS><context><name>a" "byte" " value=\"x1b\"" "</name></context></TS>"
    (by decide) (by decide) (.inl rfl)
  have hone : Catalog.parse "<TS><context><name>a<byte value=\"x1b\"/></name></context></TS>"
      = .ok { contexts := [{ name := "a\x1b" }] } := rfl
  have htwo : Catalog.parse
      "<TS><context><name>a<byte value=\"x1b\"></byte></name></context></TS>"
        = .ok { contexts := [{ name := "a" }] } := rfl
  have hsame := (congrArg Except.toOption hone).symm.trans
    (halike.trans (congrArg Except.toOption htwo))
  exact absurd hsame (by decide)

end MessageCatalog
