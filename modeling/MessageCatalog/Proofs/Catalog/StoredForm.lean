import MessageCatalog.Catalog.Normal
import MessageCatalog.Catalog.Writer
import MessageCatalog.Proofs.Catalog.Parts

/-!
# Reading what was written

For every part of a catalog, what reading its written form leads to. Each statement has the same
shape: in the place where the part belongs, it leads to the place with that part added, provided
that the part holds no text with U+0000, and to a fault of the markup otherwise (`stored`). Both
cases are proved together, because a part is stored exactly if all its parts are, and the condition
of the whole is the conjunction of theirs in the order in which they are read.

The indentation between elements is text, too. It leads nowhere but in a translation, where it is
collected with the forms and then left aside; the statement about forms therefore does not say which
text has been collected.
-/

namespace MessageCatalog

open Markup

/-! ## Outcomes with a condition -/

/-- The outcome that is `place` if all texts so far could be stored. -/
def stored {α : Type} (good : Bool) (a : α) : Except Flaw α :=
  if good then .ok a else .error .markup

theorem eq_of_stored {α : Type} {good : Bool} {a b : α} (h : stored good a = .ok b) : b = a := by
  cases good with
  | true => exact (Except.ok.inj h).symm
  | false => cases h

@[simp] theorem stored_map {α β : Type} (good : Bool) (a : α) (f : α → β) :
    (stored good a).map f = stored good (f a) := by
  cases good with
  | true => rfl
  | false => rfl

theorem stored_bind {α β : Type} (s t : Bool) (a : α) (b : β) :
    (do let _ ← stored s a; stored t b) = stored (s && t) b := by
  cases s with
  | true => rfl
  | false => rfl

theorem Leads.append_stored {place next last : Place} {a b : List Char} {s t : Bool}
    (ha : Leads place a (stored s next)) (hb : Leads next b (stored t last)) :
    Leads place (a ++ b) (stored (s && t) last) := by
  rw [← stored_bind s t next last]
  exact ha.append (fun _ ↦ stored t last) fun q hq ↦ eq_of_stored hq ▸ hb

/-- Parts of one kind, one after another, each added to what the ones before have made. -/
theorem Leads.flatMap_stored {α σ : Type} (place : σ → Place) {write : α → List Char}
    {good : α → Bool} {add : σ → α → σ}
    (h : ∀ s a, Leads (place s) (write a) (stored (good a) (place (add s a)))) (l : List α) :
    ∀ s, Leads (place s) (l.flatMap write) (stored (l.all good) (place (l.foldl add s))) := by
  induction l with
  | nil => exact fun s ↦ Leads.nil (place s)
  | cons a l ih =>
    intro s
    rw [List.flatMap_cons, List.all_cons, List.foldl_cons]
    exact (h s a).append_stored (ih (add s a))

/-- Characters without a role in markup are text, wherever text counts. -/
private theorem Leads.blank (cs : List Char) (h : ∀ c ∈ cs, c ≠ '&' ∧ c ≠ '<') (place : Place) :
    Leads place cs (stored true (place.addText cs)) :=
  Leads.text (denotes_self fun c hc ↦ (h c hc).1) (fun c hc ↦ (h c hc).2) place

theorem Leads.newline (place : Place) : Leads place ['\n'] (stored true (place.addText ['\n'])) :=
  Leads.blank ['\n'] (forall_mem_of_all (by decide)) place

theorem Leads.indent (place : Place) (n : Nat) : Leads place (List.replicate n ' ')
    (stored true (place.addText (List.replicate n ' '))) := by
  refine Leads.blank _ (fun c hc ↦ ?_) place
  rw [List.eq_of_mem_replicate hc]
  decide

theorem Leads.element_stored {place inner last next : Place} {name : String}
    {attributes : List Attribute} {body : List Char} {s t : Bool} (hname : isName name = true)
    (hattributes : areAttributes attributes = true)
    (hopen : Follows place (.opening (.written storing name attributes)) (stored s inner))
    (hbody : Leads inner body (stored t last)) (hclose : Follows last .closing (.ok next)) :
    Leads place (elementWritten storing name attributes body) (stored (s && t) next) := by
  have houtcome : (do let _ ← stored s inner; let _ ← stored t last; .ok next)
      = stored (s && t) next := by
    have hlast : (do let _ ← stored t last; .ok next) = stored t next := by
      rw [← Bool.and_true t, ← stored_bind t true last next, Bool.and_true]
      rfl
    rw [hlast, stored_bind]
  rw [← houtcome]
  exact Leads.element (fun _ ↦ .ok next) hname hattributes hopen
    (fun q hq ↦ eq_of_stored hq ▸ hbody) fun q hq ↦ eq_of_stored hq ▸ hclose

/-! ## Attributes -/

/-- The attributes for those keys that have a value. -/
def optionalAttributes (values : List (String × Option String)) : List Attribute :=
  values.flatMap fun v ↦ v.2.toList.map (⟨v.1, ·⟩)

theorem renderAttribute_eq (key : String) (value : Option String) :
    renderAttribute key value
      = (value.toList.map (⟨key, ·⟩)).flatMap (Attribute.written storing) := by
  cases value with
  | none => rfl
  | some v => exact (List.append_nil _).symm

@[simp] theorem tagContent_optionalAttributes (name : String)
    (values : List (String × Option String)) :
    tagContent storing name (optionalAttributes values)
      = name.toList ++ values.flatMap (fun v ↦ renderAttribute v.1 v.2) := by
  simp only [tagContent, optionalAttributes, List.flatMap_assoc, renderAttribute_eq]

/-- Whether names can be the keys of one tag. -/
def areKeys (keys : List String) : Bool :=
  keys.all isName && decide keys.Nodup

theorem areAttributes_optionalAttributes {values : List (String × Option String)}
    (h : areKeys (values.map (·.1)) = true) : areAttributes (optionalAttributes values) = true := by
  have hsub : ((optionalAttributes values).map (·.key)).Sublist (values.map (·.1)) := by
    clear h
    induction values with
    | nil => exact List.Sublist.refl []
    | cons v values ih =>
      obtain ⟨key, value⟩ := v
      cases value with
      | none => exact ih.cons key
      | some value => exact ih.cons_cons key
  rw [areKeys, Bool.and_eq_true, List.all_eq_true, decide_eq_true_eq] at h
  exact areAttributes_iff.mpr
    ⟨fun a ha ↦ h.1 _ (hsub.subset (List.mem_map_of_mem ha)), h.2.sublist hsub⟩

theorem holdsAll_optionalAttributes (values : List (String × Option String)) :
    storing.holdsAll (optionalAttributes values)
      = (values.flatMap (·.2.toList)).all isStorable := by
  rw [Coding.holdsAll, optionalAttributes, List.all_flatMap, List.all_flatMap]
  refine congrArg (values.all ·) (funext fun v ↦ ?_)
  rw [List.all_map]
  rfl

/-- A tag whose effect is decided by its attributes has that effect, if they can be stored. -/
theorem Follows.of_attributes {place : Place} {piece : Piece} {name : String}
    {values : List (String × Option String)} {effect : List Attribute → Place}
    (h : areKeys (values.map (·.1)) = true)
    (hread : ∀ position, (Move.go place).read ⟨piece, position⟩
      = (attributesAt position (.written storing name (optionalAttributes values))).map
          fun as ↦ .go (effect as)) :
    Follows place piece (stored ((values.flatMap (·.2.toList)).all isStorable)
      (effect (optionalAttributes values))) := by
  have hattributes := areAttributes_optionalAttributes h
  intro position
  -- whether the tag is good is whether its values are held
  rw [hread, ← holdsAll_optionalAttributes, attributesAt]
  cases hheld : storing.holdsAll (optionalAttributes values) with
  | true =>
    rw [Tag.attributes_written hattributes hheld]
    exact .ok rfl
  | false =>
    have herror : ∃ fault, (Tag.written storing name (optionalAttributes values)).attributes
        = .error fault := Tag.attributes_written_error hattributes hheld
    obtain ⟨fault, hfault⟩ := herror
    rw [hfault]
    exact .error ⟨position, .attribute fault, rfl⟩

variable {name : String} {attributes : List Attribute}

/-! ## Lines -/

theorem Leads.line (place : Place) {next : Place} {part : List Char} {good : Bool} (indent : Nat)
    (h : Leads (place.addText (List.replicate indent ' ')) part (stored good next)) :
    Leads place (List.replicate indent ' ' ++ part ++ ['\n'])
      (stored good (next.addText ['\n'])) := by
  have hline := ((Leads.indent place indent).append_stored h).append_stored (Leads.newline next)
  rwa [Bool.true_and, Bool.and_true] at hline

theorem Leads.textElement {place inner next : Place} (text : String) (hname : isName name = true)
    (hattributes : areAttributes attributes = true)
    (hopen : Follows place (.opening (.written storing name attributes)) (.ok inner))
    (hinner : inner.takesText = true)
    (hclose : Follows (inner.addText text.toList) .closing (.ok next)) :
    Leads place (elementWritten storing name attributes (encode text.toList))
      (stored (isStorable text) next) := by
  have hplain : ∀ c ∈ encode text.toList, c ≠ '<' := fun c hc ↦ (storing.plain _ c hc).1
  cases hgood : isStorable text with
  | true =>
    have htext : Leads inner (encode text.toList) (stored true (inner.addText text.toList)) :=
      Leads.text (storing.denotes _ hgood) hplain inner
    exact Leads.element_stored (s := true) hname hattributes hopen htext hclose
  | false =>
    exact Leads.spoilt hname hattributes hopen hinner (storing.spoils _ hgood) hplain

/-- A line with a text element, in a place that puts its text into a slot. -/
theorem leads_renderElement (place : Place) (slot : Slot) (indent : Nat) (text : String)
    (hname : isName name = true)
    (hopen : Follows (place.addText (List.replicate indent ' ')) (.opening ⟨name, []⟩)
      (.ok (.text slot []))) :
    Leads place (renderElement indent name text)
      (stored (isStorable text) ((slot.fill text).addText ['\n'])) := by
  have hshape : renderElement indent name text
      = List.replicate indent ' ' ++ elementWritten storing name [] (encode text.toList)
        ++ ['\n'] := by
    simp [renderElement, elementWritten, tagContent]
  have hclose : Follows (.text slot text.toList) .closing (.ok (slot.fill text)) :=
    .of_read fun position ↦ by
      rw [Move.read_inText, readInText, String.ofList_toList]
      rfl
  rw [hshape]
  exact Leads.line place indent (Leads.textElement text hname rfl hopen rfl hclose)

/-! ## Messages -/

def MessageDraft.withField (d : MessageDraft) (f : Field) : Option String → MessageDraft
  | none => d
  | some text => d.withPart (.field f text)

theorem leads_location (d : MessageDraft) (l : Location) :
    Leads (.message d) l.render
      (stored (l.texts.all isStorable) (.message (d.withPart (.location l)))) := by
  obtain ⟨values, hvalues⟩ : ∃ values, values = [("filename", l.filename), ("line", l.line)] :=
    ⟨_, rfl⟩
  have hkeys : areKeys (values.map (·.1)) = true :=
    hvalues ▸ (by decide : areKeys ["filename", "line"] = true)
  have hlocation : (readLocation (optionalAttributes values)).1 = l := by
    obtain ⟨filename, line⟩ := l
    rw [hvalues]
    cases filename <;> cases line <;> rfl
  have htexts : values.flatMap (·.2.toList) = l.texts := by
    rw [hvalues, Location.texts]
    exact congrArg (l.filename.toList ++ ·) (List.append_nil _)
  have hempty := Follows.of_attributes hkeys fun position ↦ read_emptyLocation position d rfl
  rw [hlocation, htexts] at hempty
  have hshape : l.render = List.replicate 8 ' '
      ++ '<' :: (tagContent storing "location" (optionalAttributes values) ++ "/>".toList)
      ++ ['\n'] := by
    have hbegin : "        <location".toList = List.replicate 8 ' ' ++ '<' :: "location".toList :=
      rfl
    have hend : "/>\n".toList = "/>".toList ++ ['\n'] := rfl
    unfold Location.render
    simp only [hbegin, hend, hvalues, tagContent_optionalAttributes, List.flatMap_cons,
      List.flatMap_nil, List.append_nil, List.append_assoc, List.cons_append]
  rw [hshape]
  exact Leads.line (.message d) 8
    (Leads.empty (by decide) (areAttributes_optionalAttributes hkeys) hempty)

theorem leads_field (d : MessageDraft) (f : Field) (value : Option String) :
    Leads (.message d) (renderOptional 8 f.element value)
      (stored (value.toList.all isStorable) (.message (d.withField f value))) := by
  cases value with
  | none => exact Leads.nil _
  | some text =>
    have hname : isName f.element = true := by cases f <;> decide
    have hopen : Follows (.message d) (.opening ⟨f.element, []⟩) (.ok (.text (.field d f) [])) :=
      .of_read fun position ↦ by cases f <;> rfl
    rw [Option.toList_some, List.all_cons, List.all_nil, Bool.and_true]
    exact leads_renderElement (.message d) (.field d f) 8 text hname hopen

/-! ## Translations -/

/-- The draft with one more form, and with the white space around its element. -/
def TranslationDraft.withForm (t : TranslationDraft) (form : String) : TranslationDraft :=
  { t with text := t.text ++ List.replicate 12 ' ' ++ ['\n'], forms := t.forms ++ [form] }

theorem TranslationDraft.foldl_withForm (forms : List String) :
    ∀ t : TranslationDraft, ∃ text, forms.foldl withForm t
      = { t with text, forms := t.forms ++ forms } := by
  induction forms with
  | nil => exact fun t ↦ ⟨t.text, by rw [List.append_nil]; rfl⟩
  | cons form forms ih =>
    intro t
    obtain ⟨text, h⟩ := ih (t.withForm form)
    refine ⟨text, ?_⟩
    rw [List.foldl_cons, h]
    simp only [withForm, List.append_assoc, List.singleton_append]

theorem leads_form (t : TranslationDraft) (form : String) :
    Leads (.translation t) (renderElement 12 "numerusform" form)
      (stored (isStorable form) (.translation (t.withForm form))) :=
  leads_renderElement (.translation t) (.form { t with text := t.text ++ List.replicate 12 ' ' })
    12 form (by decide) (.of_read fun _ ↦ rfl)

/-- The draft with a translation in the shape that a document holds. -/
def MessageDraft.withTranslation (d : MessageDraft) (t : Translation) : MessageDraft :=
  d.withPart (.translation { t with wording := t.wording.normal d.message.numerus })

theorem TranslationDraft.wording_of_text (t : TranslationDraft) (h : t.forms = []) :
    t.wording = (Wording.single (String.ofList t.text)).normal t.message.message.numerus := by
  simp only [wording, h, Wording.normal, ne_eq, not_true, or_false]

theorem TranslationDraft.wording_of_forms (t : TranslationDraft) (h : t.forms = [] → t.text = []) :
    t.wording = (Wording.plural t.forms).normal t.message.message.numerus := by
  cases hforms : t.forms with
  | nil =>
    rw [wording_of_text t hforms, h hforms]
    rfl
  | cons form forms => simp only [wording, hforms, Wording.normal, ne_eq, reduceCtorEq,
      not_false_eq_true, or_true, if_true]

theorem follows_translation_end (t : TranslationDraft) :
    Follows (.translation t) .closing (.ok t.complete) :=
  .of_read fun _ ↦ rfl

theorem leads_forms (d : MessageDraft) (status : Status) (forms : List String) :
    ∃ text, Leads (.translation { message := d, status }) (Wording.plural forms).render
        (stored (forms.all isStorable) (.translation { message := d, status, text, forms }))
      ∧ (forms = [] → text = []) := by
  cases forms with
  | nil => exact ⟨[], Leads.nil _, fun _ ↦ rfl⟩
  | cons form forms =>
    let start : TranslationDraft := { message := d, status, text := ['\n'] }
    -- the white space between forms is text that counts for nothing once there is a form
    obtain ⟨text, hfold⟩ := TranslationDraft.foldl_withForm (form :: forms) start
    refine ⟨text ++ List.replicate 8 ' ', ?_, fun h ↦ by cases h⟩
    have hlead : Leads (.translation { message := d, status }) ['\n']
        (stored true (.translation start)) := Leads.newline _
    have hlines := (hlead.append_stored
      (Leads.flatMap_stored .translation leads_form (form :: forms) start)).append_stored
        (Leads.indent _ 8)
    rw [hfold, Bool.true_and, Bool.and_true] at hlines
    exact hlines

/-- A translation's element, once its start tag is known to state the status. -/
theorem leads_wording (d : MessageDraft) (status : Status) (wording : Wording)
    {attributes : List Attribute} (hattributes : areAttributes attributes = true)
    (hopen : Follows (.message d) (.opening (.written storing "translation" attributes))
      (.ok (.translation { message := d, status }))) :
    Leads (.message d) (elementWritten storing "translation" attributes wording.render)
      (stored (wording.forms.all isStorable) (.message (d.withTranslation ⟨status, wording⟩))) := by
  have hname : isName "translation" = true := by decide
  cases wording with
  | single text =>
    let last : TranslationDraft := { message := d, status, text := text.toList }
    have hclose := follows_translation_end last
    rw [TranslationDraft.complete, last.wording_of_text rfl, String.ofList_toList] at hclose
    rw [Wording.forms, List.all_cons, List.all_nil, Bool.and_true]
    exact Leads.textElement text hname hattributes hopen rfl hclose
  | plural forms =>
    obtain ⟨text, hforms, htext⟩ := leads_forms d status forms
    let last : TranslationDraft := { message := d, status, text, forms }
    have hclose := follows_translation_end last
    rw [TranslationDraft.complete, last.wording_of_forms htext] at hclose
    exact Leads.element_stored (s := true) hname hattributes hopen hforms hclose

theorem leads_translation (d : MessageDraft) (t : Translation) :
    Leads (.message d) t.render
      (stored (t.wording.forms.all isStorable) (.message (d.withTranslation t))) := by
  obtain ⟨status, wording⟩ := t
  obtain ⟨values, hvalues⟩ : ∃ values, values = [("type", status.mark?)] := ⟨_, rfl⟩
  have hkeys : areKeys (values.map (·.1)) = true :=
    hvalues ▸ (by decide : areKeys ["type"] = true)
  have hstatus : (readStatus (optionalAttributes values)).1 = status := by
    rw [hvalues]
    cases status <;> rfl
  have htexts : (values.flatMap (·.2.toList)).all isStorable = true := by
    rw [hvalues]
    cases status <;> decide
  have hopen := Follows.of_attributes hkeys fun position ↦ read_translationStart position d rfl
  rw [hstatus, htexts] at hopen
  have hshape : (Translation.mk status wording).render = List.replicate 8 ' '
      ++ elementWritten storing "translation" (optionalAttributes values) wording.render
      ++ ['\n'] := by
    have hbegin : "        <translation".toList
        = List.replicate 8 ' ' ++ '<' :: "translation".toList := rfl
    have hend : "</translation>\n".toList
        = "</".toList ++ "translation".toList ++ ['>'] ++ ['\n'] := rfl
    unfold Translation.render elementWritten
    simp only [hbegin, hend, hvalues, tagContent_optionalAttributes, List.flatMap_cons,
      List.flatMap_nil, List.append_nil, List.append_assoc, List.cons_append, List.nil_append]
  rw [hshape]
  exact Leads.line (.message d) 8
    (leads_wording d status wording (areAttributes_optionalAttributes hkeys) hopen)

/-! ## Messages and contexts -/

theorem foldl_locations (locations : List Location) : ∀ d : MessageDraft,
    locations.foldl (fun d l ↦ d.withPart (.location l)) d
      = { d with message := { d.message with locations := d.message.locations ++ locations } } := by
  induction locations with
  | nil => exact fun d ↦ by rw [List.append_nil]; rfl
  | cons l locations ih =>
    intro d
    rw [List.foldl_cons, ih]
    simp only [MessageDraft.withPart, List.append_assoc, List.singleton_append]

/-- The draft with one more message in the shape that a document holds. -/
def ContextDraft.withMessage (k : ContextDraft) (m : Message) : ContextDraft :=
  { k with messages := k.messages ++ [m.normal] }

/-- The draft of a message as its attributes begin it. -/
def MessageDraft.begin (k : ContextDraft) (m : Message) : MessageDraft :=
  { context := k, message := { id := m.id, numerus := m.numerus } }

/-- The draft with all parts of a message, added in the order in which they are written. -/
def MessageDraft.withParts (d : MessageDraft) (m : Message) : MessageDraft :=
  (Field.all.foldl (fun d f ↦ MessageDraft.withField d f (m.field f))
    ((m.locations.foldl (fun d l ↦ MessageDraft.withPart d (.location l)) d).withPart
      (.source m.source))).withTranslation m.translation

theorem complete_withParts (k : ContextDraft) (m : Message) :
    ((MessageDraft.begin k m).withParts m).complete
      = .ok (.context (k.withMessage m)) := by
  rw [MessageDraft.withParts, foldl_locations]
  obtain ⟨id, numerus, locations, source, oldSource, comment, oldComment, extraComment,
    translatorComment, translation⟩ := m
  cases oldSource <;> cases comment <;> cases oldComment <;> cases extraComment
    <;> cases translatorComment <;> rfl

theorem leads_source (d : MessageDraft) (text : String) :
    Leads (.message d) (renderElement 8 "source" text)
      (stored (isStorable text) (.message (d.withPart (.source text)))) :=
  leads_renderElement (.message d) (.source d) 8 text (by decide) (.of_read fun _ ↦ rfl)

def Message.body (m : Message) : List Char :=
  ['\n'] ++ m.locations.flatMap Location.render ++ renderElement 8 "source" m.source
    ++ Field.all.flatMap (fun f ↦ renderOptional 8 f.element (m.field f)) ++ m.translation.render
    ++ List.replicate 4 ' '

def Message.bodyTexts (m : Message) : List String :=
  m.locations.flatMap Location.texts ++ [m.source]
    ++ Field.all.flatMap (fun f ↦ (m.field f).toList) ++ m.forms

theorem leads_messageBody (d : MessageDraft) (m : Message) :
    Leads (.message d) m.body
      (stored (m.bodyTexts.all isStorable) (.message (d.withParts m))) := by
  have hfields := Leads.flatMap_stored .message
    (fun d f ↦ leads_field d f (m.field f)) Field.all
    ((m.locations.foldl (fun d l ↦ MessageDraft.withPart d (.location l)) d).withPart
      (.source m.source))
  have hbody := (((((Leads.newline (.message d)).append_stored
    (Leads.flatMap_stored .message leads_location m.locations d)).append_stored
      (leads_source _ m.source)).append_stored hfields).append_stored
        (leads_translation _ m.translation)).append_stored
          (Leads.indent _ 4)
  have hgood : m.bodyTexts.all isStorable
      = (true && m.locations.all (fun l ↦ l.texts.all isStorable) && isStorable m.source
        && Field.all.all (fun f ↦ (m.field f).toList.all isStorable)
        && m.translation.wording.forms.all isStorable && true) := by
    simp only [Message.bodyTexts, Message.forms, List.all_append, List.all_flatMap, List.all_cons,
      List.all_nil, Bool.and_true, Bool.true_and]
  rw [hgood]
  exact hbody

theorem leads_message (k : ContextDraft) (m : Message) :
    Leads (.context k) m.render
      (stored (m.texts.all isStorable) (.context (k.withMessage m))) := by
  obtain ⟨values, hvalues⟩ : ∃ values, values
    = [("id", m.id), ("numerus", if m.numerus then some "yes" else none)] := ⟨_, rfl⟩
  have hkeys : areKeys (values.map (·.1)) = true :=
    hvalues ▸ (by decide : areKeys ["id", "numerus"] = true)
  have hbegin : ({ context := k, message := (readMessage (optionalAttributes values)).1 }
      : MessageDraft) = .begin k m := by
    rw [hvalues, MessageDraft.begin]
    cases m.id <;> cases m.numerus <;> rfl
  have htexts : (values.flatMap (·.2.toList)).all isStorable = m.id.toList.all isStorable := by
    have hyes : isStorable "yes" = true := by decide
    rw [hvalues]
    cases m.numerus with
    | true => simp [hyes]
    | false => simp
  have hopen := Follows.of_attributes hkeys fun position ↦ read_messageStart position k rfl
  rw [hbegin, htexts] at hopen
  have hclose : Follows (.message ((MessageDraft.begin k m).withParts m)) .closing
      (.ok (.context (k.withMessage m))) :=
    .of_read fun position ↦ by
      simp only [Move.read_inMessage, readInMessage, complete_withParts]
      rfl
  have helement := Leads.element_stored (by decide) (areAttributes_optionalAttributes hkeys) hopen
    (leads_messageBody _ m) hclose
  have hshape : m.render = List.replicate 4 ' '
      ++ elementWritten storing "message" (optionalAttributes values) m.body ++ ['\n'] := by
    have hbegin : "    <message".toList = List.replicate 4 ' ' ++ '<' :: "message".toList := rfl
    have hmid : ">\n".toList = ['>'] ++ ['\n'] := rfl
    have hend : "    </message>\n".toList
        = List.replicate 4 ' ' ++ ("</".toList ++ "message".toList ++ ['>']) ++ ['\n'] := rfl
    unfold Message.render Message.body elementWritten
    simp only [hbegin, hmid, hend, hvalues, tagContent_optionalAttributes, List.flatMap_cons,
      List.flatMap_nil, List.append_nil, List.append_assoc, List.cons_append, List.nil_append]
  have hgood : m.texts.all isStorable
      = (m.id.toList.all isStorable && m.bodyTexts.all isStorable) := by
    simp only [Message.texts, Message.bodyTexts, List.all_append, Bool.and_assoc]
  rw [hshape, hgood]
  exact Leads.line (.context k) 4 helement

theorem foldl_withMessage (messages : List Message) : ∀ k : ContextDraft,
    messages.foldl ContextDraft.withMessage k
      = { k with messages := k.messages ++ messages.map Message.normal } := by
  induction messages with
  | nil => exact fun k ↦ by rw [List.map_nil, List.append_nil]; rfl
  | cons m messages ih =>
    intro k
    rw [List.foldl_cons, ih]
    simp only [ContextDraft.withMessage, List.append_assoc, List.singleton_append, List.map_cons]

theorem leads_contextName (k : ContextDraft) (text : String) :
    Leads (.context k) (renderElement 4 "name" text)
      (stored (isStorable text) (.context { k with name := some text })) :=
  leads_renderElement (.context k) (.contextName k) 4 text (by decide) (.of_read fun _ ↦ rfl)

theorem leads_contextComment (k : ContextDraft) (h : k.comment = none) (comment : Option String) :
    Leads (.context k) (renderOptional 4 "comment" comment)
      (stored (comment.toList.all isStorable) (.context { k with comment })) := by
  cases comment with
  | none =>
    obtain ⟨catalog, name, comment, messages⟩ := k
    obtain rfl : comment = none := h
    exact Leads.nil _
  | some text =>
    rw [Option.toList_some, List.all_cons, List.all_nil, Bool.and_true]
    exact leads_renderElement (.context k) (.contextComment k) 4 text (by decide)
      (.of_read fun _ ↦ rfl)

theorem leads_context (c : Catalog) (k : Context) :
    Leads (.root c) k.render
      (stored (k.texts.all isStorable) (.root (c.addContext k.normal))) := by
  obtain ⟨name, comment, messages⟩ := k
  let start : ContextDraft := { catalog := c }
  have hopen : Follows (.root c) (.opening (.written storing "context" []))
      (stored true (.context start)) := .of_read fun _ ↦ rfl
  have hbody := ((Leads.newline (.context start)).append_stored
    (leads_contextName start name)).append_stored
      ((leads_contextComment { start with name := some name } rfl comment).append_stored
        (Leads.flatMap_stored .context leads_message messages
          { start with name := some name, comment }))
  rw [foldl_withMessage] at hbody
  have hclose : Follows (.context ⟨c, some name, comment, [] ++ messages.map Message.normal⟩)
      .closing (.ok (.root (c.addContext (Context.normal ⟨name, comment, messages⟩)))) :=
    .of_read fun _ ↦ rfl
  have helement := Leads.element_stored (by decide) rfl hopen hbody hclose
  have hshape : (Context.mk name comment messages).render = List.replicate 0 ' '
      ++ elementWritten storing "context" [] (['\n'] ++ renderElement 4 "name" name
        ++ (renderOptional 4 "comment" comment ++ messages.flatMap Message.render))
      ++ ['\n'] := by
    have hbegin : "<context>\n".toList = '<' :: "context".toList ++ ['>'] ++ ['\n'] := rfl
    have hend : "</context>\n".toList = "</".toList ++ "context".toList ++ ['>'] ++ ['\n'] := rfl
    unfold Context.render elementWritten tagContent
    simp only [hbegin, hend, List.flatMap_nil, List.append_nil, List.append_assoc,
      List.cons_append, List.nil_append, List.replicate_zero]
  have hgood : (Context.texts ⟨name, comment, messages⟩).all isStorable
      = (true && (true && isStorable name
        && (comment.toList.all isStorable && messages.all fun m ↦ m.texts.all isStorable))) := by
    simp only [Context.texts, List.cons_append, List.all_cons, List.all_append, List.all_flatMap,
      Bool.true_and]
  rw [hshape, hgood]
  exact Leads.line (.root c) 0 helement

end MessageCatalog
