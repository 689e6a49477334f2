import Mathlib.Data.List.Induction
import MessageCatalog.Catalog.Meaning
import MessageCatalog.Proofs.Catalog.Cursor

/-!
# Drafts made of parts

The reader adds the parts of an element to a draft one after another, so that of two parts of one
kind the later one stays. The meaning of an element is said of all its parts at once, by their last
one. Here the two are shown to agree: for the attributes of an element, of which no two have the
same key, and for the parts that its children contribute.

The tags whose attributes the reader looks at are described last, by what it makes of the list of
their attributes, so that what is known of that list need not be carried through the reader.
-/

namespace MessageCatalog

open Markup

/-! ## Attributes -/

section

variable {attributes : List Attribute}

@[simp] theorem attribute?_cons (a : Attribute) (attributes : List Attribute) (key : String) :
    attribute? (a :: attributes) key
      = if a.key = key then some a.value else attribute? attributes key := by
  by_cases hkey : a.key = key <;> simp [attribute?, hkey]

theorem attribute?_eq_none {key : String} (h : key ∉ attributes.map (·.key)) :
    attribute? attributes key = none := by
  rw [attribute?, Option.map_eq_none_iff, List.find?_eq_none]
  intro a ha
  rw [decide_eq_true_eq]
  rintro rfl
  exact h (List.mem_map_of_mem ha)

/-- What only the attributes with one key change is in the end as that attribute, if there is one,
has made it. -/
theorem foldl_attributes {σ β : Type} (get : σ → β) (value : String → β) (key : String)
    {f : σ → Attribute → σ}
    (h : ∀ s a, get (f s a) = if a.key = key then value a.value else get s)
    (hkeys : (attributes.map (·.key)).Nodup) (s : σ) :
    get (attributes.foldl f s) = ((attribute? attributes key).map value).getD (get s) := by
  induction attributes generalizing s with
  | nil => rfl
  | cons a rest ih =>
    rw [List.map_cons, List.nodup_cons] at hkeys
    rw [List.foldl_cons, ih hkeys.2, h, attribute?_cons]
    by_cases hkey : a.key = key
    · -- the key does not come again, so this attribute stays
      rw [attribute?_eq_none (hkey ▸ hkeys.1), if_pos hkey, if_pos hkey]
      rfl
    · rw [if_neg hkey, if_neg hkey]

theorem foldl_attributes_text {σ : Type} (get : σ → Option String) (key : String)
    {f : σ → Attribute → σ}
    (h : ∀ s a, get (f s a) = if a.key = key then some a.value else get s)
    (hkeys : (attributes.map (·.key)).Nodup) {s : σ} (hs : get s = none) :
    get (attributes.foldl f s) = attribute? attributes key := by
  rw [foldl_attributes get some key h hkeys, hs]
  cases attribute? attributes key with
  | none => rfl
  | some value => rfl

theorem foldl_attributes_other {σ β : Type} (get : σ → β) {f : σ → Attribute → σ}
    (h : ∀ s a, get (f s a) = get s) (s : σ) : get (attributes.foldl f s) = get s := by
  induction attributes generalizing s with
  | nil => rfl
  | cons a rest ih => rw [List.foldl_cons, ih, h]

theorem filter_key (hkeys : (attributes.map (·.key)).Nodup) (key : String) :
    (attributes.filter (·.key = key)).map (·.value) = (attribute? attributes key).toList := by
  induction attributes with
  | nil => rfl
  | cons a rest ih =>
    rw [List.map_cons, List.nodup_cons] at hkeys
    rw [attribute?_cons]
    by_cases hkey : a.key = key
    · have hrest := ih hkeys.2
      rw [attribute?_eq_none (hkey ▸ hkeys.1)] at hrest
      simp [hkey, hrest]
    · simp [hkey, ih hkeys.2]

theorem readLocation_eq (hkeys : (attributes.map (·.key)).Nodup) :
    (readLocation attributes).1 = locationOf attributes := by
  have hfilename : (readLocation attributes).1.filename = attribute? attributes "filename" :=
    foldl_attributes_text _ _ (fun l a ↦ by
      rw [Location.withAttribute]; split_ifs <;> simp_all) hkeys rfl
  have hline : (readLocation attributes).1.line = attribute? attributes "line" :=
    foldl_attributes_text _ _ (fun l a ↦ by
      rw [Location.withAttribute]; split_ifs <;> simp_all) hkeys rfl
  rw [locationOf, ← hfilename, ← hline]

@[simp] theorem contexts_readRoot (attributes : List Attribute) :
    (readRoot attributes).1.contexts = [] :=
  foldl_attributes_other Catalog.contexts
    (fun c a ↦ by rw [Catalog.withAttribute]; split_ifs <;> rfl) {}

theorem readRoot_eq (hkeys : (attributes.map (·.key)).Nodup) : (readRoot attributes).1
    = ⟨attribute? attributes "version", attribute? attributes "language",
        attribute? attributes "sourcelanguage", []⟩ := by
  have hversion : (readRoot attributes).1.version = attribute? attributes "version" :=
    foldl_attributes_text _ _ (fun c a ↦ by
      rw [Catalog.withAttribute]; split_ifs <;> simp_all) hkeys rfl
  have hlanguage : (readRoot attributes).1.language = attribute? attributes "language" :=
    foldl_attributes_text _ _ (fun c a ↦ by
      rw [Catalog.withAttribute]; split_ifs <;> simp_all) hkeys rfl
  have hsource : (readRoot attributes).1.sourceLanguage = attribute? attributes "sourcelanguage" :=
    foldl_attributes_text _ _ (fun c a ↦ by
      rw [Catalog.withAttribute]; split_ifs <;> simp_all) hkeys rfl
  rw [← hversion, ← hlanguage, ← hsource, ← contexts_readRoot attributes]

/-- Whether the attributes of a message say that it depends on a count. -/
def numerusOf (attributes : List Attribute) : Bool :=
  attribute? attributes "numerus" = some "yes"

theorem readMessage_eq (hkeys : (attributes.map (·.key)).Nodup) : (readMessage attributes).1
    = { id := attribute? attributes "id", numerus := numerusOf attributes } := by
  have hid : (readMessage attributes).1.id = attribute? attributes "id" :=
    foldl_attributes_text _ _ (fun m a ↦ by
      rw [Message.withAttribute]; split_ifs <;> simp_all) hkeys rfl
  have hnumerus : (readMessage attributes).1.numerus = numerusOf attributes := by
    have h := foldl_attributes Message.numerus (fun value ↦ decide (value = "yes")) "numerus"
      (f := Message.withAttribute) (fun m a ↦ by
        rw [Message.withAttribute]; split_ifs <;> simp_all) hkeys {}
    rw [numerusOf]
    refine h.trans ?_
    cases attribute? attributes "numerus" with
    | none => rfl
    | some value => simp only [Option.map_some, Option.getD_some, Option.some.injEq]
  have hrest : { (readMessage attributes).1 with id := none, numerus := false } = ({} : Message) :=
    foldl_attributes_other (fun m : Message ↦ { m with id := none, numerus := false })
      (fun m a ↦ by rw [Message.withAttribute]; split_ifs <;> rfl) {}
  rw [← hid, ← hnumerus]
  -- what is left to show is that no other field has changed
  generalize (readMessage attributes).1 = m at hrest ⊢
  obtain ⟨id, numerus, locations, source, oldSource, comment, oldComment, extraComment,
    translatorComment, translation⟩ := m
  simpa only [Message.mk.injEq, true_and] using hrest

theorem statusOf_eq (attributes : List Attribute) :
    statusOf attributes = ((attribute? attributes "type").bind Status.ofMark?).getD .finished := by
  rw [statusOf]
  split
  case h_4 hunfinished hobsolete hvanished =>
    rcases htype : attribute? attributes "type" with - | mark
    · rfl
    · have hnone : Status.ofMark? mark = none := by
        rw [Status.ofMark?, List.find?_eq_none]
        rintro status - hstatus
        have hmark : status.mark? = some mark := of_decide_eq_true hstatus
        cases status with
        | finished => cases hmark
        | unfinished => exact hunfinished (htype.trans hmark.symm)
        | obsolete => exact hobsolete (htype.trans hmark.symm)
        | vanished => exact hvanished (htype.trans hmark.symm)
      rw [Option.bind_some, hnone]
      rfl
  all_goals
    rename_i heq
    rw [heq]
    rfl

theorem readStatus_eq (hkeys : (attributes.map (·.key)).Nodup) :
    (readStatus attributes).1 = statusOf attributes := by
  rw [readStatus, filter_key hkeys, statusOf_eq]
  cases attribute? attributes "type" with
  | none => rfl
  | some mark => rfl

end

/-! ## Parts one after another -/

/-- Adding what each node contributes is adding all contributions, if what a node contributes is
not changed by the ones before it. -/
theorem foldlM_parts {σ π : Type} (part : σ → Node → Except FormatFault π) {join : σ → π → σ}
    (hpart : ∀ s p, part (join s p) = part s) (nodes : List Node) (s : σ) :
    nodes.foldlM (fun s node ↦ (part s node).map (join s)) s
      = (nodes.mapM (part s)).map (·.foldl join s) := by
  induction nodes generalizing s with
  | nil => rfl
  | cons node rest ih =>
    rw [List.foldlM_cons, List.mapM_cons]
    cases part s node with
    | error fault => rfl
    | ok p =>
      -- what the rest contributes does not depend on this part
      refine (ih (join s p)).trans ?_
      rw [hpart]
      change _ = Except.map _ (rest.mapM (part s) >>= fun parts ↦ .ok (p :: parts))
      cases rest.mapM (part s) with
      | error fault => rfl
      | ok parts => rfl

/-! ## Text -/

/-- Going along digits comes to the number that they denote by their places. -/
theorem natural?_eq_placeValue? (base : Nat) (digits : List Char) :
    Text.natural? base digits = placeValue? base digits := by
  have hfold : ∀ n, digits.foldlM (fun n c ↦ (Text.digit? base c).map (base * n + ·)) n
      = (digits.mapM (Text.digit? base)).map (·.foldl (fun n d ↦ base * n + d) n) := by
    induction digits with
    | nil => exact fun n ↦ rfl
    | cons c rest ih =>
      intro n
      rw [List.foldlM_cons, List.mapM_cons]
      cases Text.digit? base c with
      | none => rfl
      | some d =>
        refine (ih (base * n + d)).trans ?_
        cases rest.mapM (Text.digit? base) with
        | none => rfl
        | some ds => rfl
  rw [placeValue?]
  split_ifs with hdigits
  · rw [hdigits]
    rfl
  · rw [Text.natural?.eq_2 base digits hdigits, hfold]

/-- A number of a character is in any range that is large enough for all of them. -/
theorem filter_isValidChar (n : Option Nat) :
    (n.filter (· ≤ Text.maxWord32)).filter (·.isValidChar) = n.filter (·.isValidChar) := by
  rw [Option.filter_filter]
  refine congrArg (Option.filter · n) (funext fun k ↦ ?_)
  have himp : k.isValidChar → k ≤ Text.maxWord32 := by
    rw [Nat.isValidChar, Text.maxWord32]
    omega
  rw [← Bool.decide_and, decide_eq_decide]
  exact and_iff_right_of_imp himp

theorem filter_unsigned? (base : Nat) (cs : List Char) :
    (Text.unsigned? base Text.maxWord32 cs).filter (·.isValidChar)
      = (plusValue? base cs).filter (·.isValidChar) := by
  rw [Text.unsigned?.eq_def]
  split
  case h_1 => rw [filter_isValidChar, natural?_eq_placeValue?, plusValue?]
  case h_2 hplain =>
    rw [filter_isValidChar, natural?_eq_placeValue?, plusValue?.eq_2 base cs hplain]

theorem filter_byteCode? (value : String) :
    (byteCode? value).filter (·.isValidChar) = (codeOf? value).filter (·.isValidChar) := by
  by_cases hhex : ∃ hex, value.toList = 'x' :: hex
  · obtain ⟨hex, hvalue⟩ := hhex
    rw [byteCode?, codeOf?, hvalue]
    exact filter_unsigned? 16 hex
  · have hbyte : byteCode? value = Text.unsigned? 10 Text.maxWord32 value.toList := by
      rw [byteCode?]
      split
      case h_1 hex hvalue => exact absurd ⟨hex, hvalue⟩ hhex
      case h_2 => rfl
    have hcode : codeOf? value = plusValue? 10 value.toList := by
      rw [codeOf?]
      split
      case h_1 hex hvalue => exact absurd ⟨hex, hvalue⟩ hhex
      case h_2 => rfl
    rw [hbyte, hcode, filter_unsigned?]

theorem textOf_eq (children : List Node) :
    textOf children = (children.foldlM (fun read node ↦ (textOfNode node).map (read ++ ·)) []).map
      String.ofList := by
  have hflatten : ∀ (pieces : List (List Char)) (read : List Char),
      pieces.foldl (· ++ ·) read = read ++ pieces.flatten := by
    intro pieces
    induction pieces with
    | nil => exact fun read ↦ (List.append_nil read).symm
    | cons piece pieces ih =>
      intro read
      rw [List.foldl_cons, ih, List.flatten_cons, List.append_assoc]
  rw [foldlM_parts (fun _ ↦ textOfNode) (fun _ _ ↦ rfl), textOf]
  cases children.mapM textOfNode with
  | error fault => rfl
  | ok pieces => exact congrArg (Except.ok ∘ String.ofList) (hflatten pieces []).symm

/-! ## Parts of translations -/

def TranslationDraft.withPart (t : TranslationDraft) : TranslationPart → TranslationDraft
  | .text piece => { t with text := t.text ++ piece }
  | .form text => { t with forms := t.forms ++ [text] }

theorem TranslationDraft.foldl_withPart (parts : List TranslationPart) (t : TranslationDraft) :
    parts.foldl withPart t
      = { t with text := t.text ++ (textOfParts parts).toList,
                 forms := t.forms ++ formsOfParts parts } := by
  induction parts generalizing t with
  | nil =>
    simp only [List.foldl_nil, textOfParts, formsOfParts, List.flatMap_nil, List.filterMap_nil,
      String.toList_ofList, List.append_nil]
  | cons part parts ih =>
    rw [List.foldl_cons, ih]
    cases part with
    | text piece =>
      simp only [withPart, textOfParts, formsOfParts, List.flatMap_cons, List.filterMap_cons_none,
        String.toList_ofList, List.append_assoc]
    | form text =>
      simp only [withPart, textOfParts, formsOfParts, List.flatMap_cons, List.nil_append,
        List.filterMap_cons, List.append_assoc, List.singleton_append]

def translationOfParts (numerus : Bool) (status : Status) (parts : List TranslationPart) :
    Translation where
  status
  wording :=
    if numerus ∨ formsOfParts parts ≠ [] then .plural (formsOfParts parts)
    else .single (textOfParts parts)

theorem translationOf_eq (numerus : Bool) (attributes : List Attribute) (children : List Node) :
    translationOf numerus attributes children
      = (children.mapM translationPart).map
          (translationOfParts numerus (statusOf attributes)) := by
  rw [translationOf]
  cases children.mapM translationPart with
  | error fault => rfl
  | ok parts => rfl

/-! ## Parts of messages -/

theorem fieldNamed?_eq (name : String) : fieldNamed? name = Field.ofElement? name := by
  rw [fieldNamed?.eq_def]
  split
  case h_6 holdSource hcomment holdComment hextraComment htranslatorComment =>
    symm
    rw [Field.ofElement?, List.find?_eq_none]
    rintro f - hf
    have helement : f.element = name := of_decide_eq_true hf
    cases f with
    | oldSource => exact holdSource helement.symm
    | comment => exact hcomment helement.symm
    | oldComment => exact holdComment helement.symm
    | extraComment => exact hextraComment helement.symm
    | translatorComment => exact htranslatorComment helement.symm
  all_goals rfl

def MessageDraft.withPart (d : MessageDraft) : MessagePart → MessageDraft
  | .location l => { d with message := { d.message with locations := d.message.locations ++ [l] } }
  | .source text => { d with source := some text }
  | .field f text => { d with message := d.message.setField text f }
  | .translation t => { d with translation := some t }
  | .nothing => d

/-- The draft of a translation in a message that its attributes begin. -/
def TranslationDraft.ofAttributes (d : MessageDraft) (attributes : List Attribute) :
    TranslationDraft where
  message := d
  status := statusOf attributes

theorem complete_translation_parts (d : MessageDraft) (attributes : List Attribute)
    (parts : List TranslationPart) :
    (parts.foldl TranslationDraft.withPart (.ofAttributes d attributes)).complete
      = .message (d.withPart (.translation
          (translationOfParts d.message.numerus (statusOf attributes) parts))) := by
  rw [TranslationDraft.ofAttributes, TranslationDraft.foldl_withPart, TranslationDraft.complete,
    TranslationDraft.wording]
  simp only [List.nil_append, String.ofList_toList]
  rfl

/-- What the draft of a translation makes in the end of the nodes that are added to it. -/
theorem complete_translationNodes (d : MessageDraft) (attributes : List Attribute)
    (children : List Node) :
    (do
      let last ← children.foldlM
        (fun t node ↦ (translationPart node).map (TranslationDraft.withPart t))
        (.ofAttributes d attributes)
      .ok last.complete)
      = (translationOf d.message.numerus attributes children).map fun t ↦
          .message (d.withPart (.translation t)) := by
  rw [foldlM_parts (fun _ ↦ translationPart) (fun _ _ ↦ rfl), translationOf_eq]
  cases children.mapM translationPart with
  | error fault => rfl
  | ok parts => exact congrArg Except.ok (complete_translation_parts d attributes parts)

@[simp] theorem lastOf_concat {α β : Type} (value? : α → Option β) (parts : List α) (part : α) :
    lastOf value? (parts ++ [part]) = (value? part).or (lastOf value? parts) := by
  rw [lastOf, List.filterMap_append]
  cases hvalue : value? part with
  | none => rw [List.filterMap_cons_none hvalue, List.filterMap_nil, List.append_nil]; rfl
  | some value =>
    rw [List.filterMap_cons_some hvalue, List.filterMap_nil, List.getLast?_concat]
    rfl

def sourceOfParts : List MessagePart → Option String :=
  lastOf fun part ↦ match part with
    | .source text => some text
    | _ => none

def lastTranslation : List MessagePart → Option Translation :=
  lastOf fun part ↦ match part with
    | .translation t => some t
    | _ => none

theorem foldl_messageParts (k : ContextDraft) (attributes : List Attribute) (numerus : Bool)
    (parts : List MessagePart) :
    parts.foldl MessageDraft.withPart
        { context := k, message := { id := attribute? attributes "id", numerus } }
      = { context := k
          message := messageOfParts attributes numerus parts
          source := sourceOfParts parts
          translation := lastTranslation parts } := by
  -- from the end, because there the last part of each kind is known
  induction parts using List.reverseRecOn with
  | nil => rfl
  | append_singleton parts part ih =>
    rw [List.foldl_append, List.foldl_cons, List.foldl_nil, ih]
    cases part with
    | field f text =>
      cases f <;> simp [MessageDraft.withPart, messageOfParts, fieldOf, sourceOfParts,
        lastTranslation, lastOf_concat, Message.setField]
    | _ =>
      simp [MessageDraft.withPart, messageOfParts, fieldOf, sourceOfParts, lastTranslation,
        lastOf_concat]

/-- The message that parts make up, or its fault in a context. -/
def wholeMessage (context : Option String) (attributes : List Attribute)
    (parts : List MessagePart) : Except FormatFault Message :=
  match sourceOfParts parts with
  | none => .error (.messageWithoutSource (context.getD ""))
  | some source =>
    let numerus := numerusOf attributes
    let unfinished : Translation := { status := .unfinished, wording := .blank numerus }
    .ok { messageOfParts attributes numerus parts with
      source, translation := (lastTranslation parts).getD unfinished }

theorem messageOf_eq (context : Option String) (attributes : List Attribute)
    (children : List Node) :
    messageOf context attributes children
      = children.mapM (messagePart (numerusOf attributes)) >>= wholeMessage context attributes := by
  rw [messageOf]
  refine congrArg _ (funext fun parts ↦ ?_)
  rw [wholeMessage]
  rfl

/-- The message that a draft makes. -/
def MessageDraft.whole (d : MessageDraft) : Except FormatFault Message :=
  match d.source with
  | none => .error (.messageWithoutSource (d.context.name.getD ""))
  | some source =>
    let unfinished : Translation :=
      { status := .unfinished, wording := .blank d.message.numerus }
    .ok { d.message with source, translation := d.translation.getD unfinished }

theorem MessageDraft.complete_eq (d : MessageDraft) :
    d.complete = (d.whole.map fun m ↦
      .context { d.context with messages := d.context.messages ++ [m] }).mapError .format := by
  rw [complete, whole]
  cases d.source with
  | none => rfl
  | some source => rfl

/-- The draft of a message in a context that its attributes begin. -/
def MessageDraft.ofAttributes (k : ContextDraft) (attributes : List Attribute) : MessageDraft where
  context := k
  message := { id := attribute? attributes "id", numerus := numerusOf attributes }

theorem whole_messageParts (k : ContextDraft) (attributes : List Attribute)
    (parts : List MessagePart) :
    (parts.foldl MessageDraft.withPart (.ofAttributes k attributes)).whole
        = wholeMessage k.name attributes parts
      ∧ (parts.foldl MessageDraft.withPart (.ofAttributes k attributes)).context = k := by
  rw [MessageDraft.ofAttributes, foldl_messageParts, MessageDraft.whole, wholeMessage]
  cases sourceOfParts parts with
  | none => exact ⟨rfl, rfl⟩
  | some source => exact ⟨rfl, rfl⟩

@[simp] theorem MessageDraft.numerus_withPart (d : MessageDraft) (part : MessagePart) :
    (d.withPart part).message.numerus = d.message.numerus := by
  cases part with
  | field f text => cases f <;> rfl
  | _ => rfl

theorem whole_messageNodes (k : ContextDraft) (attributes : List Attribute)
    (children : List Node) :
    (do
      let last ← children.foldlM
        (fun d node ↦ (messagePart d.message.numerus node).map (MessageDraft.withPart d))
        (.ofAttributes k attributes)
      last.whole.map fun m ↦
        Place.context { last.context with messages := last.context.messages ++ [m] })
      = (messageOf k.name attributes children).map fun m ↦
          .context { k with messages := k.messages ++ [m] } := by
  rw [foldlM_parts (fun d : MessageDraft ↦ messagePart d.message.numerus)
    (fun d part ↦ by rw [d.numerus_withPart]), messageOf_eq]
  change (Except.map _ (children.mapM (messagePart (numerusOf attributes))) >>= _) = _
  cases children.mapM (messagePart (numerusOf attributes)) with
  | error fault => rfl
  | ok parts =>
    obtain ⟨hwhole, hcontext⟩ := whole_messageParts k attributes parts
    change (MessageDraft.whole _).map _ = (wholeMessage k.name attributes parts).map _
    rw [hwhole, hcontext]

/-! ## Parts of contexts and catalogs -/

/-- The draft with what a node contributes. -/
def ContextDraft.withNode (k : ContextDraft) : Node → Except FormatFault ContextDraft
  | .element tag attributes children =>
    if tag = "name" then (textOf children).map fun text ↦ { k with name := some text }
    else if tag = "comment" then (textOf children).map fun text ↦ { k with comment := some text }
    else if tag = "message" then (messageOf k.name attributes children).map fun m ↦
      { k with messages := k.messages ++ [m] }
    else .ok k
  | _ => .ok k

def ContextDraft.whole (k : ContextDraft) : Except FormatFault Context :=
  match k.name with
  | none => .error .contextWithoutName
  | some name => .ok ⟨name, k.comment, k.messages⟩

theorem ContextDraft.complete_eq (k : ContextDraft) :
    k.complete = (k.whole.map fun context ↦ .root (k.catalog.addContext context)).mapError
      .format := by
  rw [complete, whole]
  cases k.name with
  | none => rfl
  | some name => rfl

theorem whole_contextNodes (children : List Node) (k : ContextDraft) :
    (do
      let last ← children.foldlM ContextDraft.withNode k
      last.whole.map fun context ↦ Place.root (last.catalog.addContext context))
      = (contextOf k.name k.comment k.messages children).map fun context ↦
          .root (k.catalog.addContext context) := by
  induction children generalizing k with
  | nil => rfl
  | cons node rest ih =>
    rw [List.foldlM_cons, bind_assoc]
    cases node with
    | element tag attributes children =>
      rw [ContextDraft.withNode, contextOf]
      split_ifs
      · cases textOf children with
        | error fault => rfl
        | ok text => exact ih { k with name := some text }
      · cases textOf children with
        | error fault => rfl
        | ok text => exact ih { k with comment := some text }
      · cases messageOf k.name attributes children with
        | error fault => rfl
        | ok m => exact ih { k with messages := k.messages ++ [m] }
      · exact ih k
    | _ => exact ih k

def Catalog.withNode (c : Catalog) : Node → Except FormatFault Catalog
  | .element tag _ children =>
    if tag = "context" then (contextOf none none [] children).map c.addContext else .ok c
  | _ => .ok c

theorem contextsOf_eq (children : List Node) (c : Catalog) :
    children.foldlM Catalog.withNode c
      = (contextsOf children).map fun contexts ↦ { c with contexts := c.contexts ++ contexts } := by
  induction children generalizing c with
  | nil =>
    change Except.ok c = .ok { c with contexts := c.contexts ++ [] }
    rw [List.append_nil]
  | cons node rest ih =>
    rw [List.foldlM_cons]
    cases node with
    | element tag attributes children =>
      rw [Catalog.withNode, contextsOf]
      split_ifs
      · cases contextOf none none [] children with
        | error fault => rfl
        | ok context =>
          refine (ih (c.addContext context)).trans ?_
          cases contextsOf rest with
          | error fault => rfl
          | ok contexts =>
            refine congrArg Except.ok ?_
            simp only [Catalog.addContext, List.append_assoc, List.singleton_append]
      · exact ih c
    | _ => exact ih c

/-! ## Tags whose attributes count -/

section

variable {tag : Tag} (position : Nat)

theorem read_rootStart (h : tag.name = "TS") :
    (Move.go .outside).read ⟨.opening tag, position⟩
      = (attributesAt position tag).map fun attributes ↦ .go (.root (readRoot attributes).1) := by
  simp only [Move.read_outside, readOutside, h, if_true]
  cases attributesAt position tag <;> rfl

theorem read_emptyRoot (h : tag.name = "TS") :
    (Move.go .outside).read ⟨.empty tag, position⟩
      = (attributesAt position tag).map fun attributes ↦ .done (readRoot attributes).1 := by
  simp only [Move.read_outside, readOutside, h, if_true]
  cases attributesAt position tag <;> rfl

theorem read_messageStart (k : ContextDraft) (h : tag.name = "message") :
    (Move.go (.context k)).read ⟨.opening tag, position⟩
      = (attributesAt position tag).map fun attributes ↦
          .go (.message { context := k, message := (readMessage attributes).1 }) := by
  simp only [Move.read_inContext, readInContext, h]
  cases attributesAt position tag <;> rfl

variable (d : MessageDraft)

theorem read_translationStart (h : tag.name = "translation") :
    (Move.go (.message d)).read ⟨.opening tag, position⟩
      = (attributesAt position tag).map fun attributes ↦
          .go (.translation { message := d, status := (readStatus attributes).1 }) := by
  simp only [Move.read_inMessage, readInMessage, h, if_true]
  cases attributesAt position tag <;> rfl

theorem read_emptyTranslation (h : tag.name = "translation") :
    (Move.go (.message d)).read ⟨.empty tag, position⟩
      = (attributesAt position tag).map fun attributes ↦
          .go (TranslationDraft.complete
            { message := d, status := (readStatus attributes).1 }) := by
  simp only [Move.read_inMessage, readInMessage, h, if_true]
  cases attributesAt position tag <;> rfl

theorem read_locationStart (h : tag.name = "location") :
    (Move.go (.message d)).read ⟨.opening tag, position⟩
      = (attributesAt position tag).map fun attributes ↦ .go (.skipped "location" 0
          (.message (d.withPart (.location (readLocation attributes).1)))) := by
  simp only [Move.read_inMessage, readInMessage, skip, h, if_true, MessageDraft.locate]
  cases attributesAt position tag <;> rfl

theorem read_emptyLocation (h : tag.name = "location") :
    (Move.go (.message d)).read ⟨.empty tag, position⟩
      = (attributesAt position tag).map fun attributes ↦
          .go (.message (d.withPart (.location (readLocation attributes).1))) := by
  simp only [Move.read_inMessage, readInMessage, h, if_true, MessageDraft.locate]
  cases attributesAt position tag <;> rfl

end

end MessageCatalog
