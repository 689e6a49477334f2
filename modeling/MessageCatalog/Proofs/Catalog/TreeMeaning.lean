import MessageCatalog.Proofs.Catalog.Cursor
import MessageCatalog.Proofs.Catalog.Parts

/-!
# Reading a document tree

The catalog that is read from the rendering of a well-formed tree is the one that the tree means.

Each kind of place has its statement about one node, by cases on the node, and from it follows the
one about the nodes of an element, whose parts are added to its draft (`Leads.renderAll`). Only in a
skipped element is there a recursion over the tree, because there everything to any depth is passed
over; in all other places the elements that a node may hold are those of the next kind of place.
-/

namespace MessageCatalog

open Markup

/-! ## Outcomes that a meaning says -/

/-- The outcome that a meaning says: a place, or a fault of the format. -/
def told {α β : Type} (meaning : Except FormatFault α) (place : α → β) : Except Flaw β :=
  (meaning.map place).mapError .format

@[simp] theorem told_ok {α β : Type} (a : α) (place : α → β) : told (.ok a) place = .ok (place a) :=
  rfl

@[simp] theorem told_map {α β γ : Type} (meaning : Except FormatFault α) (f : α → β)
    (place : β → γ) :
    told (meaning.map f) place = told meaning (place ∘ f) := by
  cases meaning with
  | ok a => rfl
  | error fault => rfl

@[simp] theorem told_id_map {α β : Type} (meaning : Except FormatFault α) (f : α → β) :
    (told meaning id).map f = told (meaning.map f) id := by
  cases meaning with
  | ok a => rfl
  | error fault => rfl

theorem told_eq_told_map {α β : Type} (meaning : Except FormatFault α) (place : α → β) :
    told meaning place = told (meaning.map place) id := by
  rw [told_map, Function.id_comp]

/-- What reading a token of this kind comes to, said as a meaning. -/
theorem Follows.of_meaning {place : Place} {piece : Piece} {meaning : Except FormatFault Place}
    (h : ∀ position, (Move.go place).read ⟨piece, position⟩
      = (meaning.map .go).mapError .format) : Follows place piece (told meaning id) := by
  intro position
  rw [h]
  cases meaning with
  | ok next => exact .ok rfl
  | error fault => exact .error rfl

/-! ## Nodes one after another -/

/-- The nodes of an element, each of which adds to what the ones before have made. -/
theorem Leads.renderAll {σ : Type} (place : σ → Place) {add : σ → Node → Except FormatFault σ}
    (h : ∀ s node, node.isWellFormed = true → Leads (place s) node.render (told (add s node) place))
    {nodes : List Node} (hnodes : areWellFormed nodes = true) (s : σ) :
    Leads (place s) (renderAll nodes) (told (nodes.foldlM add s) place) := by
  induction nodes generalizing s with
  | nil =>
    rw [Markup.renderAll, List.foldlM_nil]
    exact Leads.nil _
  | cons node rest ih =>
    rw [areWellFormed, Bool.and_eq_true] at hnodes
    have hnode := h s node hnodes.1
    rw [Markup.renderAll, List.foldlM_cons]
    cases hadd : add s node with
    | error fault =>
      rw [hadd] at hnode
      exact hnode.append (fun _ ↦ .error (.format fault)) fun q hq ↦ by cases hq
    | ok next =>
      rw [hadd] at hnode
      refine hnode.append (fun _ ↦ told (rest.foldlM add next) place) fun q hq ↦ ?_
      obtain rfl := Except.ok.inj hq
      exact ih hnodes.2 next

/-! ## Elements -/

variable {name : String} {attributes : List Attribute} {children : List Node}

theorem isWellFormed_element (h : (Node.element name attributes children).isWellFormed = true) :
    isName name = true ∧ areAttributes attributes = true ∧ (name = "byte" → children = [])
      ∧ areWellFormed children = true := by
  rw [Node.isWellFormed] at h
  simp only [Bool.and_eq_true, Bool.or_eq_true, decide_eq_true_eq, List.isEmpty_iff] at h
  obtain ⟨⟨⟨hname, hattributes⟩, hbyte⟩, hchildren⟩ := h
  exact ⟨hname, hattributes, fun hb ↦ hbyte.resolve_left (not_not.mpr hb), hchildren⟩

theorem render_childless (name : String) (attributes : List Attribute) :
    (Node.element name attributes []).render
      = '<' :: (tagContent escaping name attributes ++ "/>".toList) :=
  Node.render.eq_def _

theorem render_element (name : String) (attributes : List Attribute) (child : Node)
    (rest : List Node) :
    (Node.element name attributes (child :: rest)).render
      = elementWritten escaping name attributes (renderAll (child :: rest)) := by
  have hrender : (Node.element name attributes (child :: rest)).render
      = '<' :: tagContent escaping name attributes ++ '>' :: child.render ++ renderAll rest
        ++ "</".toList ++ name.toList ++ ['>'] := Node.render.eq_def _
  have hall : renderAll (child :: rest) = child.render ++ renderAll rest := renderAll.eq_def _
  rw [hrender, hall, elementWritten]
  simp only [List.append_assoc, List.cons_append, List.nil_append]

/-- An element without children is one tag; another one is written in full. -/
theorem leads_element {place : Place} {outcome : Except Flaw Place}
    (h : (Node.element name attributes children).isWellFormed = true)
    (hempty : children = [] → Follows place (.empty (.written escaping name attributes)) outcome)
    (hfull : children ≠ [] →
      Leads place (elementWritten escaping name attributes (renderAll children)) outcome) :
    Leads place (Node.element name attributes children).render outcome := by
  obtain ⟨hname, hattributes, -, -⟩ := isWellFormed_element h
  cases children with
  | nil =>
    rw [render_childless]
    exact Leads.empty hname hattributes (hempty rfl)
  | cons child rest =>
    rw [render_element]
    exact hfull (List.cons_ne_nil child rest)

theorem attributesAt_written (h : areAttributes attributes = true) (position : Nat) :
    attributesAt position (.written escaping name attributes) = .ok attributes := by
  have hheld : escaping.holdsAll attributes = true := List.all_eq_true.mpr fun _ _ ↦ rfl
  rw [attributesAt, Tag.attributes_written h hheld]
  rfl

theorem Follows.of_written {place : Place} {piece : Piece} {effect : List Attribute → Place}
    (h : areAttributes attributes = true)
    (hread : ∀ position, (Move.go place).read ⟨piece, position⟩
      = (attributesAt position (.written escaping name attributes)).map
          fun as ↦ .go (effect as)) : Follows place piece (.ok (effect attributes)) :=
  .of_read fun position ↦ by
    rw [hread, attributesAt_written h]
    rfl

/-! ## Nodes that are no elements -/

theorem leads_textNode (content : String) (place : Place) :
    Leads place (Node.text content).render (.ok (place.addText content.toList)) := by
  have hrender : (Node.text content).render = escape content.toList := Node.render.eq_def _
  rw [hrender]
  exact Leads.text (denotes_escape _) (fun c hc ↦ (escaping.plain _ c hc).1) place

theorem leads_verbatimNode {content : String}
    (h : (Node.verbatim content).isWellFormed = true) (place : Place) :
    Leads place (Node.verbatim content).render (.ok (place.addText content.toList)) := by
  have hrender : (Node.verbatim content).render
      = "<![CDATA[".toList ++ content.toList ++ "]]>".toList := Node.render.eq_def _
  rw [Node.isWellFormed, Bool.not_eq_true'] at h
  rw [hrender, List.append_assoc]
  exact Leads.verbatim h place

theorem leads_commentNode {content : String}
    (h : (Node.comment content).isWellFormed = true) (place : Place) :
    Leads place (Node.comment content).render (.ok place) := by
  have hrender : (Node.comment content).render
      = "<!--".toList ++ content.toList ++ "-->".toList := Node.render.eq_def _
  rw [Node.isWellFormed, Bool.not_eq_true'] at h
  rw [hrender, List.append_assoc]
  exact Leads.comment h place

/-! ## Skipped elements -/

mutual

theorem leads_skippedNode (tag : String) (depth : Nat) (back : Place) :
    ∀ node : Node, node.isWellFormed = true →
      Leads (.skipped tag depth back) node.render (.ok (.skipped tag depth back))
  | .text content, _ => leads_textNode content _
  | .verbatim _, h => leads_verbatimNode h _
  | .comment _, h => leads_commentNode h _
  | .element name attributes children, h => by
    obtain ⟨hname, hattributes, -, hchildren⟩ := isWellFormed_element h
    have hopen : Follows (.skipped tag depth back) (.opening (.written escaping name attributes))
        (.ok (.skipped tag (depth + 1) back)) := .of_read fun _ ↦ rfl
    have hclose : Follows (.skipped tag (depth + 1) back) .closing
        (.ok (.skipped tag depth back)) := .of_read fun _ ↦ rfl
    refine leads_element h (fun _ ↦ .of_read fun _ ↦ rfl) fun _ ↦ ?_
    exact Leads.element (fun _ ↦ .ok (.skipped tag depth back)) hname hattributes hopen
      (fun inner hinner ↦ Except.ok.inj hinner ▸
        leads_skippedNodes tag (depth + 1) back children hchildren)
      (fun last hlast ↦ Except.ok.inj hlast ▸ hclose)

theorem leads_skippedNodes (tag : String) (depth : Nat) (back : Place) :
    ∀ nodes : List Node, areWellFormed nodes = true →
      Leads (.skipped tag depth back) (renderAll nodes) (.ok (.skipped tag depth back))
  | [], _ => by
    rw [renderAll]
    exact Leads.nil _
  | node :: rest, h => by
    rw [areWellFormed, Bool.and_eq_true] at h
    rw [renderAll]
    exact (leads_skippedNode tag depth back node h.1).append
      (fun _ ↦ .ok (.skipped tag depth back))
      fun q hq ↦ Except.ok.inj hq ▸ leads_skippedNodes tag depth back rest h.2

end

/-- An element whose start tag is skipped leads to the place that the skipping goes back to. -/
theorem leads_skipped {place back : Place} {tag : String}
    (h : (Node.element name attributes children).isWellFormed = true)
    (hopen : Follows place (.opening (.written escaping name attributes))
      (.ok (.skipped tag 0 back)))
    (hempty : Follows place (.empty (.written escaping name attributes)) (.ok back)) :
    Leads place (Node.element name attributes children).render (.ok back) := by
  obtain ⟨hname, hattributes, -, hchildren⟩ := isWellFormed_element h
  have hclose : Follows (.skipped tag 0 back) .closing (.ok back) := .of_read fun _ ↦ rfl
  refine leads_element h (fun _ ↦ hempty) fun _ ↦ ?_
  exact Leads.element (fun _ ↦ .ok back) hname hattributes hopen
    (fun inner hinner ↦ Except.ok.inj hinner ▸ leads_skippedNodes tag 0 back children hchildren)
    (fun last hlast ↦ Except.ok.inj hlast ▸ hclose)

/-- Whether an element with this name says nothing in a place. -/
def Place.PassesOver (name : String) : Place → Prop
  | .root _ => name ≠ "context"
  | .context _ => name ≠ "name" ∧ name ≠ "comment" ∧ name ≠ "message"
  | .message _ =>
    name ≠ "location" ∧ name ≠ "translation" ∧ name ≠ "source" ∧ Field.ofElement? name = none
  | .translation _ => name ≠ "numerusform" ∧ name ≠ "byte"
  | .text _ _ => name ≠ "byte"
  | .outside | .skipped _ _ _ => False

theorem Place.PassesOver.follows_opening {place : Place} (hplace : place.PassesOver name) :
    Follows place (.opening (.written escaping name attributes))
      (.ok (.skipped name 0 place)) := by
  refine .of_read fun position ↦ ?_
  have hname : (Tag.written escaping name attributes).name = name := rfl
  cases place with
  | root c => simp only [Move.read_inRoot, readInRoot, hname, if_neg hplace]; rfl
  | context k =>
    obtain ⟨hn, hc, hm⟩ := hplace
    simp only [Move.read_inContext, readInContext, hname, hn, hc, hm, if_false]
    rfl
  | message d =>
    obtain ⟨hl, ht, hs, hfield⟩ := hplace
    simp only [Move.read_inMessage, readInMessage, MessageDraft.slot?, hname, hl, ht, hs, hfield,
      if_false]
    rfl
  | translation t =>
    simp only [Move.read_inTranslation, readInTranslation, hname, hplace.1, if_false]
    rfl
  | text slot read => rfl
  | _ => exact hplace.elim

theorem Place.PassesOver.follows_empty {place : Place} (hplace : place.PassesOver name) :
    Follows place (.empty (.written escaping name attributes)) (.ok place) := by
  refine .of_read fun position ↦ ?_
  have hname : (Tag.written escaping name attributes).name = name := rfl
  cases place with
  | root c => simp only [Move.read_inRoot, readInRoot, hname, if_neg hplace]; rfl
  | context k =>
    obtain ⟨hn, hc, hm⟩ := hplace
    simp only [Move.read_inContext, readInContext, hname, hn, hc, hm, if_false]
    rfl
  | message d =>
    obtain ⟨hl, ht, hs, hfield⟩ := hplace
    simp only [Move.read_inMessage, readInMessage, MessageDraft.slot?, hname, hl, ht, hs, hfield,
      if_false]
    rfl
  | translation t =>
    simp only [Move.read_inTranslation, readInTranslation, hname, hplace.1, hplace.2, if_false]
    rfl
  | text slot read =>
    -- the other childless tag would be a character
    have hbyte : name ≠ "byte" := hplace
    simp only [Move.read_inText, readInText, hname, hbyte, if_false]
    rfl
  | _ => exact hplace.elim

theorem leads_passedOver {place : Place} (hplace : place.PassesOver name)
    (h : (Node.element name attributes children).isWellFormed = true) :
    Leads place (Node.element name attributes children).render (.ok place) :=
  leads_skipped h hplace.follows_opening hplace.follows_empty

/-! ## Elements with a meaning -/

/-- The start tag of an element opens a place, where its nodes lead on, and its end tag completes
what they have made. -/
theorem leads_opened {place inner : Place} {σ : Type} {last : σ → Place}
    {content : Except FormatFault σ} {complete : σ → Except FormatFault Place}
    (h : (Node.element name attributes children).isWellFormed = true)
    (hempty : children = [] →
      Follows place (.empty (.written escaping name attributes)) (told (content >>= complete) id))
    (hopen : Follows place (.opening (.written escaping name attributes)) (.ok inner))
    (hbody : Leads inner (renderAll children) (told content last))
    (hclose : ∀ s, Follows (last s) .closing (told (complete s) id)) :
    Leads place (Node.element name attributes children).render
      (told (content >>= complete) id) := by
  obtain ⟨hname, hattributes, -, -⟩ := isWellFormed_element h
  refine leads_element h hempty fun _ ↦ ?_
  cases hcontent : content with
  | error fault =>
    rw [hcontent] at hbody
    exact Leads.element (fun _ ↦ .error (.format fault)) hname hattributes hopen
      (fun q hq ↦ Except.ok.inj hq ▸ hbody)
      fun q (hq : Except.error (Flaw.format fault) = .ok q) ↦ by cases hq
  | ok s =>
    rw [hcontent] at hbody
    exact Leads.element (fun _ ↦ told (complete s) id) hname hattributes hopen
      (fun q hq ↦ Except.ok.inj hq ▸ hbody) fun q hq ↦ Except.ok.inj hq ▸ hclose s

/-! ## Text elements -/

theorem follows_byte {place : Place} (hplace : place.takesText = true)
    (h : areAttributes attributes = true) :
    Follows place (.empty (.written escaping "byte" attributes))
      (told (byteOf attributes) fun c ↦ place.addText [c]) := by
  have hread : ∀ position, readByte position (.written escaping "byte" attributes)
      = (byteOf attributes).mapError .format := by
    intro position
    rw [readByte, attributesAt_written h, byteOf, attribute?]
    dsimp only [bind, Except.bind]
    cases attributes.find? (·.key = "value") with
    | none => rfl
    | some a =>
      simp only [Option.map_some]
      rw [filter_byteCode?]
      cases (codeOf? a.value).filter (·.isValidChar) with
      | none => rfl
      | some code => rfl
  have hplaces : ∀ position, (Move.go place).read
      ⟨.empty (.written escaping "byte" attributes), position⟩
        = (readByte position (.written escaping "byte" attributes)).map
            fun c ↦ .go (place.addText [c]) := by
    intro position
    have hname : (Tag.written escaping "byte" attributes).name = "byte" := rfl
    cases place with
    | translation t =>
      simp only [Move.read_inTranslation, readInTranslation, hname]
      cases readByte position (.written escaping "byte" attributes) <;> rfl
    | text slot read =>
      simp only [Move.read_inText, readInText, hname]
      cases readByte position (.written escaping "byte" attributes) <;> rfl
    | _ => exact Bool.noConfusion hplace
  intro position
  rw [hplaces, hread]
  cases byteOf attributes with
  | error fault => exact .error rfl
  | ok c => exact .ok rfl

/-- What a node contributes to a text, if the place opens no element. -/
theorem leads_piece {place : Place} (hplace : place.takesText = true) {node : Node}
    (h : node.isWellFormed = true)
    (hother : ∀ name attributes children, node = .element name attributes children →
      name ≠ "byte" → place.PassesOver name) :
    Leads place node.render (told (textOfNode node) place.addText) := by
  cases node with
  | text content => exact leads_textNode content place
  | verbatim content => exact leads_verbatimNode h place
  | comment content =>
    rw [textOfNode, told_ok, Place.addText_nil]
    exact leads_commentNode h place
  | element name attributes children =>
    obtain ⟨-, hattributes, hchildless, -⟩ := isWellFormed_element h
    rw [textOfNode]
    by_cases hbyte : name = "byte"
    · rw [hchildless hbyte, hbyte, if_pos rfl, told_map, render_childless]
      exact Leads.empty (by decide) hattributes (follows_byte hplace hattributes)
    · rw [if_neg hbyte, told_ok, Place.addText_nil]
      exact leads_passedOver (hother name attributes children rfl hbyte) h

theorem leads_slot {place : Place} (slot : Slot)
    (h : (Node.element name attributes children).isWellFormed = true)
    (hopen : Follows place (.opening (.written escaping name attributes)) (.ok (.text slot [])))
    (hempty : Follows place (.empty (.written escaping name attributes)) (.ok (slot.fill ""))) :
    Leads place (Node.element name attributes children).render
      (told (textOf children) fun text ↦ slot.fill text) := by
  obtain ⟨-, -, -, hchildren⟩ := isWellFormed_element h
  have hbody := Leads.renderAll (.text slot) (fun read node hnode ↦ by
    rw [told_map]
    have hplace : (Place.text slot read).takesText = true := rfl
    exact leads_piece hplace hnode fun _ _ _ _ hbyte ↦ hbyte) hchildren []
  have hclose : ∀ read, Follows (.text slot read) .closing
      (told (.ok (slot.fill (String.ofList read))) id) := fun read ↦ .of_read fun _ ↦ rfl
  have hmeaning : told (textOf children) (fun text ↦ slot.fill text)
      = told (children.foldlM (fun read node ↦ (textOfNode node).map (read ++ ·)) [] >>=
          fun read ↦ .ok (slot.fill (String.ofList read))) id := by
    rw [textOf_eq, told_map]
    cases children.foldlM (fun read node ↦ (textOfNode node).map (read ++ ·)) [] with
    | error fault => rfl
    | ok read => rfl
  rw [hmeaning]
  refine leads_opened h (fun hchildless ↦ ?_) hopen hbody hclose
  rw [hchildless]
  exact hempty

/-! ## Translations -/

theorem leads_translationNode (t : TranslationDraft) {node : Node}
    (h : node.isWellFormed = true) :
    Leads (.translation t) node.render
      (told (translationPart node) fun part ↦ .translation (t.withPart part)) := by
  have hpiece : (∀ name attributes children, node = .element name attributes children →
      name ≠ "numerusform") →
      Leads (.translation t) node.render
        (told ((textOfNode node).map .text) fun part ↦ .translation (t.withPart part)) := by
    intro hform
    rw [told_map]
    have hplace : (Place.translation t).takesText = true := rfl
    exact leads_piece hplace h fun name attributes children heq hbyte ↦
      ⟨hform name attributes children heq, hbyte⟩
  cases node with
  | element name attributes children =>
    rw [translationPart]
    by_cases hform : name = "numerusform"
    · rw [if_pos hform, told_map]
      rw [hform] at h ⊢
      exact leads_slot (.form t) h (.of_read fun _ ↦ rfl) (.of_read fun _ ↦ rfl)
    · rw [if_neg hform]
      refine hpiece fun _ _ _ heq ↦ ?_
      obtain ⟨rfl, -, -⟩ := Node.element.inj heq
      exact hform
  | _ => exact hpiece fun _ _ _ heq ↦ by cases heq

theorem leads_translationElement (d : MessageDraft)
    (h : (Node.element "translation" attributes children).isWellFormed = true) :
    Leads (.message d) (Node.element "translation" attributes children).render
      (told (translationOf d.message.numerus attributes children) fun t ↦
        .message (d.withPart (.translation t))) := by
  obtain ⟨-, hattributes, -, hchildren⟩ := isWellFormed_element h
  have hstatus := readStatus_eq (areAttributes_iff.mp hattributes).2
  have hopen : Follows (.message d) (.opening (.written escaping "translation" attributes))
      (.ok (.translation (.ofAttributes d attributes))) := by
    rw [TranslationDraft.ofAttributes, ← hstatus]
    exact .of_written hattributes fun position ↦ read_translationStart position d rfl
  have hempty : Follows (.message d) (.empty (.written escaping "translation" attributes))
      (.ok (TranslationDraft.ofAttributes d attributes).complete) := by
    rw [TranslationDraft.ofAttributes, ← hstatus]
    exact .of_written hattributes fun position ↦ read_emptyTranslation position d rfl
  have hbody := Leads.renderAll .translation (fun t node hnode ↦ by
    rw [told_map]
    exact leads_translationNode t hnode) hchildren (.ofAttributes d attributes)
  have hclose : ∀ t : TranslationDraft, Follows (.translation t) .closing
      (told (.ok t.complete) id) := fun t ↦ .of_read fun _ ↦ rfl
  rw [told_eq_told_map, ← complete_translationNodes]
  refine leads_opened h (fun hchildless ↦ ?_) hopen hbody hclose
  rw [hchildless]
  exact hempty

/-! ## Messages -/

theorem leads_locationElement (d : MessageDraft)
    (h : (Node.element "location" attributes children).isWellFormed = true) :
    Leads (.message d) (Node.element "location" attributes children).render
      (.ok (.message (d.withPart (.location (locationOf attributes))))) := by
  obtain ⟨-, hattributes, -, -⟩ := isWellFormed_element h
  have hlocation := readLocation_eq (areAttributes_iff.mp hattributes).2
  rw [← hlocation]
  exact leads_skipped h (.of_written hattributes fun position ↦ read_locationStart position d rfl)
    (.of_written hattributes fun position ↦ read_emptyLocation position d rfl)

theorem leads_messageNode (d : MessageDraft) {node : Node} (h : node.isWellFormed = true) :
    Leads (.message d) node.render
      (told (messagePart d.message.numerus node) fun part ↦ .message (d.withPart part)) := by
  cases node with
  | text content => exact leads_textNode content (.message d)
  | verbatim content => exact leads_verbatimNode h (.message d)
  | comment content => exact leads_commentNode h (.message d)
  | element name attributes children =>
    rw [messagePart]
    split_ifs with hlocation htranslation hsource
    · rw [hlocation] at h ⊢
      exact leads_locationElement d h
    · rw [told_map]
      rw [htranslation] at h ⊢
      exact leads_translationElement d h
    · rw [told_map]
      rw [hsource] at h ⊢
      exact leads_slot (.source d) h (.of_read fun _ ↦ rfl) (.of_read fun _ ↦ rfl)
    · have hname : (Tag.written escaping name attributes).name = name := rfl
      rw [fieldNamed?_eq]
      cases hfield : Field.ofElement? name with
      | none => exact leads_passedOver ⟨hlocation, htranslation, hsource, hfield⟩ h
      | some f =>
        have hslot : d.slot? name = some (.field d f) := by
          rw [MessageDraft.slot?, if_neg hsource, hfield]
          rfl
        have hopen : Follows (.message d) (.opening (.written escaping name attributes))
            (.ok (.text (.field d f) [])) := .of_read fun position ↦ by
          simp only [Move.read_inMessage, readInMessage, hname, hlocation, htranslation, hslot,
            if_false]
          rfl
        have hempty : Follows (.message d) (.empty (.written escaping name attributes))
            (.ok (Slot.fill "" (.field d f))) := .of_read fun position ↦ by
          simp only [Move.read_inMessage, readInMessage, hname, hlocation, htranslation, hslot,
            if_false]
          rfl
        simp only
        rw [told_map]
        exact leads_slot (.field d f) h hopen hempty

theorem leads_messageElement (k : ContextDraft)
    (h : (Node.element "message" attributes children).isWellFormed = true) :
    Leads (.context k) (Node.element "message" attributes children).render
      (told (messageOf k.name attributes children) fun m ↦
        .context { k with messages := k.messages ++ [m] }) := by
  obtain ⟨-, hattributes, -, hchildren⟩ := isWellFormed_element h
  have hmessage := readMessage_eq (areAttributes_iff.mp hattributes).2
  have hopen : Follows (.context k) (.opening (.written escaping "message" attributes))
      (.ok (.message (.ofAttributes k attributes))) := by
    rw [MessageDraft.ofAttributes, ← hmessage]
    exact .of_written hattributes fun position ↦ read_messageStart position k rfl
  have hbody := Leads.renderAll .message (fun d node hnode ↦ by
    rw [told_map]
    exact leads_messageNode d hnode) hchildren (.ofAttributes k attributes)
  have hclose : ∀ d : MessageDraft, Follows (.message d) .closing
      (told (d.whole.map fun m ↦
        Place.context { d.context with messages := d.context.messages ++ [m] }) id) :=
    fun d ↦ .of_meaning fun position ↦ by
      simp only [Move.read_inMessage, readInMessage, d.complete_eq]
      cases d.whole <;> rfl
  rw [told_eq_told_map, ← whole_messageNodes]
  refine leads_opened h (fun hchildless position ↦ ?_) hopen hbody hclose
  -- without children it has no source text
  rw [hchildless]
  exact .error rfl

/-! ## Contexts -/

theorem leads_contextNode (k : ContextDraft) {node : Node} (h : node.isWellFormed = true) :
    Leads (.context k) node.render (told (k.withNode node) .context) := by
  cases node with
  | text content => exact leads_textNode content (.context k)
  | verbatim content => exact leads_verbatimNode h (.context k)
  | comment content => exact leads_commentNode h (.context k)
  | element name attributes children =>
    rw [ContextDraft.withNode]
    split_ifs with hname hcomment hmessage
    · rw [told_map]
      rw [hname] at h ⊢
      exact leads_slot (.contextName k) h (.of_read fun _ ↦ rfl) (.of_read fun _ ↦ rfl)
    · rw [told_map]
      rw [hcomment] at h ⊢
      exact leads_slot (.contextComment k) h (.of_read fun _ ↦ rfl) (.of_read fun _ ↦ rfl)
    · rw [told_map]
      rw [hmessage] at h ⊢
      exact leads_messageElement k h
    · exact leads_passedOver ⟨hname, hcomment, hmessage⟩ h

theorem leads_contextElement (c : Catalog)
    (h : (Node.element "context" attributes children).isWellFormed = true) :
    Leads (.root c) (Node.element "context" attributes children).render
      (told ((contextOf none none [] children).map c.addContext) .root) := by
  obtain ⟨-, -, -, hchildren⟩ := isWellFormed_element h
  let start : ContextDraft := { catalog := c }
  have hopen : Follows (.root c) (.opening (.written escaping "context" attributes))
      (.ok (.context start)) := .of_read fun _ ↦ rfl
  have hbody := Leads.renderAll .context (fun k node hnode ↦ leads_contextNode k hnode) hchildren
    start
  have hclose : ∀ k : ContextDraft, Follows (.context k) .closing
      (told (k.whole.map fun context ↦ Place.root (k.catalog.addContext context)) id) :=
    fun k ↦ .of_meaning fun position ↦ by
      simp only [Move.read_inContext, readInContext, k.complete_eq]
      cases k.whole <;> rfl
  have hmeaning : told ((contextOf none none [] children).map c.addContext) Place.root
      = told ((contextOf none none [] children).map fun context ↦
          Place.root (start.catalog.addContext context)) id := by
    rw [told_map, told_eq_told_map]
    rfl
  rw [hmeaning, ← whole_contextNodes children start]
  refine leads_opened h (fun hchildless position ↦ ?_) hopen hbody hclose
  -- without children it has no name
  rw [hchildless]
  exact .error rfl

theorem leads_rootNode (c : Catalog) {node : Node} (h : node.isWellFormed = true) :
    Leads (.root c) node.render (told (c.withNode node) .root) := by
  cases node with
  | text content => exact leads_textNode content (.root c)
  | verbatim content => exact leads_verbatimNode h (.root c)
  | comment content => exact leads_commentNode h (.root c)
  | element name attributes children =>
    rw [Catalog.withNode]
    split_ifs with hcontext
    · rw [hcontext] at h ⊢
      exact leads_contextElement c h
    · exact leads_passedOver hcontext h

/-! ## Whole trees -/

theorem comes_parse_render (h : (Node.element "TS" attributes children).isWellFormed = true) :
    Comes (· = ·) (Catalog.parse (String.ofList (Node.element "TS" attributes children).render))
      (told (Catalog.ofTree attributes children) id) := by
  obtain ⟨-, hattributes, -, hchildren⟩ := isWellFormed_element h
  let root : Catalog := ⟨attribute? attributes "version", attribute? attributes "language",
    attribute? attributes "sourcelanguage", []⟩
  have hroot : (readRoot attributes).1 = root := readRoot_eq (areAttributes_iff.mp hattributes).2
  have hmeaning : Catalog.ofTree attributes children = children.foldlM Catalog.withNode root := by
    rw [contextsOf_eq, Catalog.ofTree]
    cases contextsOf children with
    | error fault => rfl
    | ok contexts => rfl
  have hx : Stands [] .outside Cursor.start := stands_between 0 [] .outside
  have hpast : Comes IsPast (Cursor.start.read (Node.element "TS" attributes children).render)
      (told (children.foldlM Catalog.withNode root) id) := by
    cases children with
    | nil =>
      rw [render_childless]
      refine hx.read_emptyRoot hattributes fun position ↦ ?_
      rw [read_emptyRoot position rfl, attributesAt_written hattributes]
      exact .ok (congrArg Move.done hroot)
    | cons child rest =>
      rw [render_element]
      have hopen : Follows .outside (.opening (.written escaping "TS" attributes))
          (.ok (.root root)) :=
        hroot ▸ .of_written hattributes fun position ↦ read_rootStart position rfl
      have hbody := Leads.renderAll .root (fun c node hnode ↦ leads_rootNode c hnode) hchildren root
      rw [told_eq_told_map, ← told_id_map] at hbody
      exact hx.read_root hattributes hopen fun inner hinner ↦ Except.ok.inj hinner ▸ hbody
  have hmark : dropByteOrderMark ((Node.element "TS" attributes children).render ++ [])
      = (Node.element "TS" attributes children).render ++ [] := by
    cases children with
    | nil => rw [render_childless]; rfl
    | cons child rest => rw [render_element]; rfl
  rw [hmeaning, ← List.append_nil (Node.render _)]
  exact parse_of_comes hmark hpast

/-- What is read from the rendering of a well-formed tree is what the tree means. -/
theorem parse_render (attributes : List Attribute) (children : List Node)
    (h : (Node.element "TS" attributes children).isWellFormed = true) :
    Catalog.parse (String.ofList (Node.element "TS" attributes children).render)
      = (Catalog.ofTree attributes children).mapError .format := by
  have hcomes := comes_parse_render h
  generalize Catalog.parse (String.ofList (Node.element "TS" attributes children).render)
    = result at hcomes ⊢
  cases hmeaning : Catalog.ofTree attributes children with
  | ok c =>
    rw [hmeaning] at hcomes
    cases hcomes with
    | ok hsame => rw [hsame]; rfl
  | error fault =>
    rw [hmeaning] at hcomes
    cases hcomes with
    | error hflaw => rw [hflaw]; rfl

/-- A context with a message that has all kinds of parts, between elements that say nothing, one of
which holds a message. -/
def richTree : List Node :=
  [.element "extra" [] [.element "context" [] [.element "message" [] []]],
    .element "context" [] [
      .element "name" [] [.text "a<", .comment "-", .verbatim "<b>", .element "i" [] [.text "c"]],
      .element "comment" [] [.text "d"],
      .element "message" [⟨"numerus", "yes"⟩, ⟨"id", "e"⟩] [
        .element "source" [] [.text "old"],
        .element "comment" [] [.text "f"],
        .element "translation" [⟨"type", "unfinished"⟩] [
          .text "aside", .element "numerusform" [] [.element "byte" [⟨"value", "x1b"⟩] []]],
        .element "translatorcomment" [] [.text "g"],
        .element "location" [⟨"line", "7"⟩] [.element "source" [] []],
        .element "oldcomment" [] [.element "byte" [⟨"value", "+104"⟩] []],
        .element "extracomment" [] [.text "i"],
        .element "oldsource" [] [.text "j"],
        .element "source" [] [.text "new"]],
      .element "message" [] [
        .element "source" [] [],
        .element "translation" [⟨"type", "vanished"⟩] []]]]

theorem parse_render_richTree :
    Catalog.parse (String.ofList (Node.element "TS" [⟨"language", "de"⟩] richTree).render)
      = .ok { language := some "de", contexts := [{
          name := "a<<b>", comment := some "d", messages := [{
            id := some "e", numerus := true, locations := [⟨none, some "7"⟩], source := "new",
            oldSource := some "j", comment := some "f", oldComment := some "h",
            extraComment := some "i", translatorComment := some "g",
            translation := { status := .unfinished, wording := .plural ["\x1b"] } }, {
            translation := { status := .vanished } }] }] } := by
  rw [parse_render [⟨"language", "de"⟩] richTree (by decide)]
  rfl

end MessageCatalog
