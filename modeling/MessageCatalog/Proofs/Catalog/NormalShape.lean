import MessageCatalog.Catalog.Normal
import MessageCatalog.Proofs.Catalog.Cursor
import MessageCatalog.Proofs.Catalog.Parts

/-!
# The shapes of messages that are read

The reader decides by the forms of a translation and by the numerus flag of its message which
wording a message has, and it decides so when the translation ends, with the flag long known.
Therefore every catalog that is read consists of messages in normal shape, whatever the document.

The invariant says this of a reading under way: the messages that are complete are normal, and a
translation that is complete fits the flag of the message that it waits to be joined with.
-/

namespace MessageCatalog

open Markup

/-! ## Normal messages -/

@[simp] theorem Message.normal_eq_self_iff (m : Message) : m.normal = m ↔ m.isNormal = true := by
  obtain ⟨id, numerus, locations, source, oldSource, comment, oldComment, extraComment,
    translatorComment, status, wording⟩ := m
  cases wording with
  | single text => cases numerus <;> simp [normal, isNormal, Wording.normal]
  | plural forms =>
    cases forms with
    | nil => cases numerus <;> simp [normal, isNormal, Wording.normal, Wording.blank]
    | cons form forms => simp [normal, isNormal, Wording.normal]

private theorem map_eq_self_iff {α : Type} {f : α → α} {l : List α} :
    l.map f = l ↔ ∀ a ∈ l, f a = a := by
  have h : l.map f = l.map id ↔ ∀ a ∈ l, f a = id a := List.map_inj_left
  rwa [List.map_id] at h

theorem Context.normal_eq_self_iff (k : Context) :
    k.normal = k ↔ ∀ m ∈ k.messages, m.isNormal = true := by
  obtain ⟨name, comment, messages⟩ := k
  simp only [normal, mk.injEq, true_and, map_eq_self_iff, Message.normal_eq_self_iff]

theorem Catalog.normal_eq_self_iff_contexts (c : Catalog) :
    c.normal = c ↔ ∀ k ∈ c.contexts, k.normal = k := by
  obtain ⟨version, language, sourceLanguage, contexts⟩ := c
  simp only [normal, mk.injEq, true_and, map_eq_self_iff]

theorem Catalog.normal_eq_self_iff (c : Catalog) :
    c.normal = c ↔ ∀ m ∈ c.messages, m.2.isNormal = true := by
  rw [normal_eq_self_iff_contexts]
  simp only [Context.normal_eq_self_iff, messages, List.mem_flatMap, List.mem_map]
  constructor
  · rintro h _ ⟨k, hk, m, hm, rfl⟩
    exact h k hk m hm
  · intro h k hk m hm
    exact h (k.name, m) ⟨k, hk, m, hm, rfl⟩

/-! ## The invariant -/

/-- Whether the messages of a draft are in normal shape. -/
def ContextDraft.IsShaped (k : ContextDraft) : Prop :=
  k.catalog.normal = k.catalog ∧ ∀ m ∈ k.messages, m.isNormal = true

/-- Whether a translation that has been read fits the message that it waits for. -/
def MessageDraft.IsShaped (d : MessageDraft) : Prop :=
  d.context.IsShaped ∧ ∀ t ∈ d.translation, ({ d.message with translation := t }).isNormal = true

def Slot.IsShaped : Slot → Prop
  | .contextName k | .contextComment k => k.IsShaped
  | .source d | .field d _ => d.IsShaped
  | .form t => t.message.IsShaped

/-- Whether everything that is complete at a place is in normal shape. -/
def Place.IsShaped : Place → Prop
  | .outside => True
  | .root c => c.normal = c
  | .context k => k.IsShaped
  | .message d => d.IsShaped
  | .translation t => t.message.IsShaped
  | .text slot _ => slot.IsShaped
  | .skipped _ _ back => back.IsShaped

/-- Whether everything that is complete after a move is in normal shape. -/
def Move.IsShaped : Move → Prop
  | .go place => place.IsShaped
  | .done c => c.normal = c

/-! ## Completing drafts -/

theorem ContextDraft.IsShaped.complete {k : ContextDraft} (h : k.IsShaped) {place : Place}
    (hplace : k.complete = .ok place) : place.IsShaped := by
  rw [ContextDraft.complete] at hplace
  cases hname : k.name with
  | none =>
    rw [hname] at hplace
    cases hplace
  | some name =>
    rw [hname] at hplace
    obtain rfl := Except.ok.inj hplace
    obtain ⟨hcatalog, hmessages⟩ := h
    rw [Catalog.normal_eq_self_iff_contexts] at hcatalog
    refine (Catalog.normal_eq_self_iff_contexts _).mpr fun c hc ↦ ?_
    rcases List.mem_append.mp hc with hc | hc
    · exact hcatalog c hc
    · rw [List.mem_singleton.mp hc, Context.normal_eq_self_iff]
      exact hmessages

theorem MessageDraft.IsShaped.complete {d : MessageDraft} (h : d.IsShaped) {place : Place}
    (hplace : d.complete = .ok place) : place.IsShaped := by
  obtain ⟨⟨hcatalog, hmessages⟩, htranslation⟩ := h
  rw [MessageDraft.complete] at hplace
  cases hsource : d.source with
  | none =>
    rw [hsource] at hplace
    cases hplace
  | some source =>
    rw [hsource] at hplace
    obtain rfl := Except.ok.inj hplace
    refine ⟨hcatalog, fun m hm ↦ ?_⟩
    rcases List.mem_append.mp hm with hm | hm
    · exact hmessages m hm
    · rw [List.mem_singleton.mp hm]
      -- a message without a translation has the blank one for its flag
      cases ht : d.translation with
      | none =>
        cases hnumerus : d.message.numerus <;>
          simp [Message.isNormal, Wording.blank, hnumerus]
      | some t => exact htranslation t ht

theorem TranslationDraft.isShaped_complete {t : TranslationDraft} (h : t.message.IsShaped) :
    t.complete.IsShaped := by
  refine ⟨h.1, ?_⟩
  rintro _ ⟨⟩
  cases hforms : t.forms with
  | nil =>
    cases hnumerus : t.message.message.numerus <;>
      simp [Message.isNormal, wording, hforms, hnumerus]
  | cons form forms => simp [Message.isNormal, wording, hforms]

theorem Slot.IsShaped.fill {slot : Slot} (h : slot.IsShaped) (text : String) :
    (slot.fill text).IsShaped := by
  cases slot with
  | contextName k => exact h
  | contextComment k => exact h
  | source d => exact h
  | field d f => cases f <;> exact h
  | form t => exact h

/-! ## One token -/

/-- Whether an effect leads on in normal shape, if it is no fault. -/
def KeepsShapes (effect : Effect) : Prop :=
  ∀ move notices, effect = .ok (move, notices) → move.IsShaped

private theorem keepsShapes_error (fault : Fault) : KeepsShapes (.error fault) :=
  fun _ _ h ↦ by cases h

private theorem keepsShapes_go {place : Place} (h : place.IsShaped) (notices : List Notice) :
    KeepsShapes (.ok (.go place, notices)) := by
  rintro _ _ ⟨⟩
  exact h

private theorem keepsShapes_done {c : Catalog} (h : c.normal = c) (notices : List Notice) :
    KeepsShapes (.ok (.done c, notices)) := by
  rintro _ _ ⟨⟩
  exact h

private theorem keepsShapes_goTo {place : Place} (h : place.IsShaped) : KeepsShapes (goTo place) :=
  keepsShapes_go h []

private theorem keepsShapes_skip (tag : Tag) {back : Place} (h : back.IsShaped) :
    KeepsShapes (skip tag back) := by
  rintro _ _ ⟨⟩
  exact h

private theorem keepsShapes_skipEmpty (tag : Tag) (parent : String) {back : Place}
    (h : back.IsShaped) : KeepsShapes (skipEmpty tag parent back) :=
  keepsShapes_go h _

private theorem keepsShapes_bind {α : Type} {x : Except Fault α} {f : α → Effect}
    (h : ∀ a, x = .ok a → KeepsShapes (f a)) : KeepsShapes (x >>= f) := by
  cases x with
  | error fault => exact keepsShapes_error fault
  | ok a => exact h a rfl

theorem keepsShapes_readOutside (token : Token) : KeepsShapes (readOutside token) := by
  have hroot : ∀ attributes, Place.IsShaped (.root (readRoot attributes).1) := by
    intro attributes
    refine (Catalog.normal_eq_self_iff_contexts _).mpr ?_
    rw [contexts_readRoot]
    exact fun k hk ↦ absurd hk List.not_mem_nil
  rw [readOutside]
  split
  · split_ifs
    · exact keepsShapes_bind fun attributes _ ↦ keepsShapes_go (hroot attributes) _
    · exact keepsShapes_error _
  · split_ifs
    · exact keepsShapes_bind fun attributes _ ↦ keepsShapes_done (hroot attributes) _
    · exact keepsShapes_error _
  · exact keepsShapes_error _
  all_goals exact keepsShapes_goTo trivial

theorem keepsShapes_readInRoot {c : Catalog} (h : c.normal = c) (token : Token) :
    KeepsShapes (readInRoot c token) := by
  rw [readInRoot]
  split
  · split_ifs
    · exact keepsShapes_goTo ⟨h, fun m hm ↦ absurd hm List.not_mem_nil⟩
    · exact keepsShapes_skip _ h
  · split_ifs
    · exact keepsShapes_error _
    · exact keepsShapes_goTo h
  · exact keepsShapes_done h _
  · exact keepsShapes_error _
  all_goals exact keepsShapes_goTo h

theorem keepsShapes_readInContext {k : ContextDraft} (h : k.IsShaped) (token : Token) :
    KeepsShapes (readInContext k token) := by
  rw [readInContext]
  split
  · split_ifs
    · exact keepsShapes_goTo h
    · exact keepsShapes_goTo h
    · refine keepsShapes_bind fun attributes _ ↦ ?_
      -- no translation has been read yet
      have hmessage : Place.IsShaped
          (.message { context := k, message := (readMessage attributes).1 }) :=
        ⟨h, fun t ht ↦ by cases ht⟩
      exact keepsShapes_go hmessage _
    · exact keepsShapes_skip _ h
  · split_ifs
    · exact keepsShapes_goTo h
    · exact keepsShapes_goTo h
    · exact keepsShapes_error _
    · exact keepsShapes_skipEmpty _ _ h
  · exact keepsShapes_bind fun place hplace ↦ keepsShapes_goTo (h.complete hplace)
  · exact keepsShapes_error _
  all_goals exact keepsShapes_goTo h

private theorem isShaped_locate {d next : MessageDraft} (h : d.IsShaped) {token : Token} {tag : Tag}
    {notices : List Notice} (hnext : d.locate token tag = .ok (next, notices)) : next.IsShaped := by
  rw [MessageDraft.locate] at hnext
  cases hattributes : attributesAt token.position tag with
  | error fault =>
    rw [hattributes] at hnext
    cases hnext
  | ok attributes =>
    rw [hattributes] at hnext
    obtain ⟨rfl, -⟩ := Prod.mk.inj (Except.ok.inj hnext)
    exact h

theorem keepsShapes_readInMessage {d : MessageDraft} (h : d.IsShaped) (token : Token) :
    KeepsShapes (readInMessage d token) := by
  have hslot : ∀ {name slot}, d.slot? name = some slot → slot.IsShaped := by
    intro name slot hslot
    rw [MessageDraft.slot?] at hslot
    split_ifs at hslot
    · obtain rfl := Option.some.inj hslot
      exact h
    · obtain ⟨f, -, rfl⟩ := Option.map_eq_some_iff.mp hslot
      exact h
  rw [readInMessage]
  split
  · split_ifs
    · refine keepsShapes_bind fun located hlocated ↦ ?_
      have hnext : ∀ name, Place.IsShaped (.skipped name 0 (.message located.1)) := fun _ ↦
        isShaped_locate h hlocated
      exact keepsShapes_go (hnext _) _
    · refine keepsShapes_bind fun attributes _ ↦ ?_
      have ht : Place.IsShaped (.translation ⟨d, (readStatus attributes).1, [], []⟩) := h
      exact keepsShapes_go ht _
    · split
      · next slot hname => exact keepsShapes_goTo (hslot hname)
      · exact keepsShapes_skip _ h
  · split_ifs
    · refine keepsShapes_bind fun located hlocated ↦ ?_
      have hnext : Place.IsShaped (.message located.1) := isShaped_locate h hlocated
      exact keepsShapes_go hnext _
    · exact keepsShapes_bind fun attributes _ ↦
        keepsShapes_go (TranslationDraft.isShaped_complete h) _
    · split
      · next slot hname => exact keepsShapes_goTo ((hslot hname).fill "")
      · exact keepsShapes_skipEmpty _ _ h
  · exact keepsShapes_bind fun place hplace ↦ keepsShapes_goTo (h.complete hplace)
  · exact keepsShapes_error _
  all_goals exact keepsShapes_goTo h

theorem keepsShapes_readInTranslation {t : TranslationDraft} (h : t.message.IsShaped)
    (token : Token) : KeepsShapes (readInTranslation t token) := by
  have hcomplete := TranslationDraft.isShaped_complete h
  rw [readInTranslation]
  split
  · exact keepsShapes_bind fun text _ ↦ keepsShapes_goTo h
  · exact keepsShapes_goTo h
  · split_ifs
    · exact keepsShapes_goTo h
    · exact keepsShapes_skip _ h
  · split_ifs
    · exact keepsShapes_goTo h
    · exact keepsShapes_bind fun c _ ↦ keepsShapes_goTo h
    · exact keepsShapes_goTo h
  · exact keepsShapes_goTo hcomplete
  · exact keepsShapes_error _
  · exact keepsShapes_goTo h

theorem keepsShapes_readInText {slot : Slot} (h : slot.IsShaped) (read : List Char)
    (token : Token) : KeepsShapes (readInText slot read token) := by
  rw [readInText]
  split
  · exact keepsShapes_bind fun text _ ↦ keepsShapes_goTo h
  · exact keepsShapes_goTo h
  · exact keepsShapes_skip _ h
  · split_ifs
    · exact keepsShapes_bind fun c _ ↦ keepsShapes_goTo h
    · exact keepsShapes_goTo h
  · exact keepsShapes_goTo (h.fill _)
  · exact keepsShapes_error _
  · exact keepsShapes_goTo h

theorem keepsShapes_readSkipped {back : Place} (h : back.IsShaped) (name : String) (depth : Nat)
    (token : Token) : KeepsShapes (readSkipped name depth back token) := by
  unfold readSkipped
  split
  · exact keepsShapes_goTo h
  · split
    · exact keepsShapes_goTo h
    · exact keepsShapes_goTo h
  · exact keepsShapes_error _
  all_goals exact keepsShapes_goTo h

theorem Place.IsShaped.read {place : Place} (h : place.IsShaped) (token : Token) :
    KeepsShapes (place.read token) := by
  cases place with
  | outside => exact keepsShapes_readOutside token
  | root c => exact keepsShapes_readInRoot h token
  | context k => exact keepsShapes_readInContext h token
  | message d => exact keepsShapes_readInMessage h token
  | translation t => exact keepsShapes_readInTranslation h token
  | text slot read => exact keepsShapes_readInText h read token
  | skipped name depth back =>
    have hback : back.IsShaped := h
    exact keepsShapes_readSkipped hback name depth token

/-! ## Whole documents -/

theorem Move.IsShaped.read {move next : Move} (h : move.IsShaped) {token : Token}
    (hnext : move.read token = .ok next) : next.IsShaped := by
  cases move with
  | done c =>
    obtain rfl := Except.ok.inj hnext
    exact h
  | go place =>
    rw [Move.read] at hnext
    obtain ⟨effect, heffect, rfl⟩ := exists_of_map_eq_ok hnext
    exact Place.IsShaped.read h token effect.1 effect.2 heffect

theorem Move.IsShaped.readAll {tokens : List Token} : ∀ {move next : Move}, move.IsShaped →
    move.readAll tokens = .ok next → next.IsShaped := by
  induction tokens with
  | nil =>
    intro move next h hnext
    obtain rfl := Except.ok.inj hnext
    exact h
  | cons token tokens ih =>
    intro move next h hnext
    rw [Move.readAll_cons] at hnext
    obtain ⟨middle, hread, hrest⟩ := exists_of_bind_eq_ok hnext
    exact ih (h.read hread) hrest

/-- Every catalog that is read is in normal shape. -/
theorem normal_of_parse {document : String} {c : Catalog} (h : Catalog.parse document = .ok c) :
    c.normal = c := by
  rw [Catalog.parse, Catalog.read, Place.run_result] at h
  obtain ⟨move, hread, hcatalog⟩ := exists_of_bind_eq_ok h
  have hstart : Move.IsShaped (.go .outside) := trivial
  have hmove := hstart.readAll hread
  cases move with
  | go place => cases hcatalog
  | done d =>
    obtain rfl := Except.ok.inj hcatalog
    exact hmove

end MessageCatalog
