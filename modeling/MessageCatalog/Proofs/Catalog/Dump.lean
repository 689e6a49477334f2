import Mathlib.Data.List.Nodup
import MessageCatalog.Catalog.Json
import MessageCatalog.Proofs.Json.Printed
import MessageCatalog.Proofs.Outcome

/-!
# Dumping and loading

A catalog is loaded from its dump as it was, whatever its texts hold. Reading gives back the
document of the dump (`ofText_pretty`); here the values are taken from that document.

A record is dumped with all its fields, in the order in which the loader lists them. All records are
therefore taken in one way, each field in its turn (`takeRecord_object`), and what is left for each
is that its fields are taken one by one as they were dumped.
-/

namespace MessageCatalog.Json

/-! ## Records and lists -/

section

variable {α : Type}

/-- The members of an object that holds a value for each field of a record, in order. -/
def RecordField.members (fields : List (RecordField α)) (values : List Document) :
    List (Document × Document) :=
  (fields.zip values).map fun p ↦ (.text (.ok p.1.name) none, p.2)

/-- The record with the values of its fields put into it, in order. -/
def RecordField.putAll (fields : List (RecordField α)) (values : List Document) (record : α) :
    Except Fault α :=
  (fields.zip values).foldlM (fun r p ↦ p.1.put r p.2) record

@[simp] theorem RecordField.putAll_nil (values : List Document) (record : α) :
    putAll [] values record = .ok record := rfl

@[simp] theorem RecordField.putAll_cons (field : RecordField α) (fields : List (RecordField α))
    (value : Document) (values : List Document) (record : α) :
    putAll (field :: fields) (value :: values) record
      = (do putAll fields values (← field.put record value)) :=
  List.foldlM_cons

theorem takeMembers_cons {fields : List (RecordField α)} {field : RecordField α}
    {seen : List String} (stop : Option Fault) (record : α) (value : Document)
    (rest : List (Document × Document))
    (hfind : fields.find? (·.name = field.name) = some field) (hnew : field.name ∉ seen) :
    takeMembers fields stop seen record ((.text (.ok field.name) none, value) :: rest)
      = (do takeMembers fields stop (field.name :: seen) (← field.put record value) rest) := by
  rw [takeMembers, Document.takeKey, ok_bind, hfind]
  dsimp only
  rw [if_neg hnew]

/-- The names of a record's fields are distinct, so that each member is put into its own field and
none is taken for a repetition. -/
private theorem takeMembers_members (todo : List (RecordField α)) :
    ∀ (done : List (RecordField α)) (values : List Document) (record : α),
      ((done ++ todo).map RecordField.name).Nodup → values.length = todo.length →
        takeMembers (done ++ todo) none (done.map RecordField.name).reverse record
          (RecordField.members todo values) = RecordField.putAll todo values record := by
  induction todo with
  | nil =>
    intro done values record _ _
    have hall : (done ++ []).all (fun f ↦ !f.required
        || decide (f.name ∈ (done.map RecordField.name).reverse)) = true := by
      rw [List.append_nil, List.all_eq_true]
      intro f hf
      rw [Bool.or_eq_true, decide_eq_true_eq, List.mem_reverse]
      exact Or.inr (List.mem_map_of_mem hf)
    rw [RecordField.members, RecordField.putAll_nil, List.zip_nil_left, List.map_nil, takeMembers]
    exact if_pos hall
  | cons field todo ih =>
    intro done values record hnodup hlength
    obtain ⟨value, values, rfl⟩ := List.exists_cons_of_length_eq_add_one hlength
    have hnew : field.name ∉ done.map RecordField.name := by
      intro hmem
      rw [List.map_append, List.map_cons] at hnodup
      exact List.disjoint_of_nodup_append hnodup hmem List.mem_cons_self
    have hfind : (done ++ field :: todo).find? (·.name = field.name) = some field := by
      have hdone : done.find? (·.name = field.name) = none := by
        rw [List.find?_eq_none]
        intro f hf
        rw [decide_eq_true_eq]
        exact fun hname ↦ hnew (hname ▸ List.mem_map_of_mem hf)
      rw [List.find?_append, hdone, Option.none_or, List.find?_cons, decide_eq_true rfl]
    have hsplit : done ++ field :: todo = (done ++ [field]) ++ todo := by
      rw [List.append_assoc, List.singleton_append]
    have hseen : field.name :: (done.map RecordField.name).reverse
        = ((done ++ [field]).map RecordField.name).reverse := by
      rw [List.map_append, List.map_singleton, List.reverse_concat]
    rw [RecordField.members, RecordField.putAll_cons, List.zip_cons_cons, List.map_cons,
      takeMembers_cons none record value _ hfind
        (fun h ↦ hnew (List.mem_reverse.mp h)), hseen]
    rw [hsplit] at hnodup ⊢
    exact congrArg (field.put record value >>= ·) (funext fun next ↦
      ih (done ++ [field]) values next hnodup (Nat.succ.inj hlength))

theorem takeRecord_object (fields : List (RecordField α)) (values : List Document) (blank : α)
    (hnodup : (fields.map RecordField.name).Nodup) (hlength : values.length = fields.length) :
    Document.takeRecord fields blank (.object (RecordField.members fields values) none)
      = RecordField.putAll fields values blank :=
  takeMembers_members fields [] values blank hnodup hlength

theorem takeList_array {take : Document → Except Fault α} {json : α → Value} (items : List α)
    (h : ∀ a, take (json a).document = .ok a) :
    (Value.array (items.map json)).document.takeList take = .ok items := by
  have hall : (items.map fun a ↦ (json a).document).mapM take = .ok items := by
    induction items with
    | nil => rfl
    | cons a items ih =>
      rw [List.map_cons, List.mapM_cons, h, ih]
      rfl
  rw [Value.document, documents_eq_map, List.map_map, Document.takeList]
  change (items.map fun a ↦ (json a).document).mapM take >>= _ = _
  rw [hall]
  rfl

theorem isNumberless_array {json : α → Value} (items : List α)
    (h : ∀ a, (json a).isNumberless = true) :
    (Value.array (items.map json)).isNumberless = true := by
  rw [Value.isNumberless]
  induction items with
  | nil => rfl
  | cons a items ih => rw [List.map_cons, areNumberless, h, ih, Bool.and_true]

end

@[simp] theorem takeText?_ofText? (s : Option String) :
    (Value.ofText? s).document.takeText? = .ok s := by
  cases s with
  | none => rfl
  | some s => rfl

@[simp] theorem isNumberless_ofText? (s : Option String) :
    (Value.ofText? s).isNumberless = true := by
  cases s with
  | none => rfl
  | some s => rfl

end MessageCatalog.Json

namespace MessageCatalog

open Json

/-! ## Taking what was dumped -/

@[simp] theorem takeStatus_name (s : Status) : takeStatus (Value.text s.name).document = .ok s := by
  cases s <;> rfl

@[simp] theorem takeWording_toJson (w : Wording) : takeWording w.toJson.document = .ok w := by
  cases w with
  | single text => rfl
  | plural forms =>
    have hforms : (Value.array (forms.map .text)).document.takeList Document.takeText = .ok forms :=
      takeList_array forms fun _ ↦ rfl
    change ((Value.array (forms.map .text)).document.takeList Document.takeText).map Wording.plural
      >>= _ = _
    rw [hforms]
    rfl

@[simp] theorem takeTranslation_toJson (t : Translation) :
    takeTranslation t.toJson.document = .ok t := by
  refine (takeRecord_object _ [(Value.text t.status.name).document, t.wording.toJson.document] _
    (by decide) rfl).trans ?_
  simp only [RecordField.putAll_cons, RecordField.putAll_nil, takeStatus_name, takeWording_toJson]
  rfl

@[simp] theorem takeLocation_toJson (l : Location) : takeLocation l.toJson.document = .ok l := by
  refine (takeRecord_object _
    [(Value.ofText? l.filename).document, (Value.ofText? l.line).document] _
    (by decide) rfl).trans ?_
  simp only [RecordField.putAll_cons, RecordField.putAll_nil, takeText?_ofText?]
  rfl

@[simp] theorem takeMessage_toJson (m : Message) : takeMessage m.toJson.document = .ok m := by
  have hlocations := takeList_array m.locations takeLocation_toJson
  refine (takeRecord_object _ [(Value.ofText? m.id).document, (Value.bool m.numerus).document,
    (Value.array (m.locations.map Location.toJson)).document, (Value.text m.source).document,
    (Value.ofText? m.oldSource).document, (Value.ofText? m.comment).document,
    (Value.ofText? m.oldComment).document, (Value.ofText? m.extraComment).document,
    (Value.ofText? m.translatorComment).document, m.translation.toJson.document] _
    (by decide) rfl).trans ?_
  simp only [RecordField.putAll_cons, RecordField.putAll_nil, takeText?_ofText?, hlocations,
    takeTranslation_toJson]
  rfl

@[simp] theorem takeContext_toJson (k : Context) : takeContext k.toJson.document = .ok k := by
  have hmessages := takeList_array k.messages takeMessage_toJson
  refine (takeRecord_object _ [(Value.text k.name).document, (Value.ofText? k.comment).document,
    (Value.array (k.messages.map Message.toJson)).document] _ (by decide) rfl).trans ?_
  simp only [RecordField.putAll_cons, RecordField.putAll_nil, takeText?_ofText?, hmessages]
  rfl

@[simp] theorem takeCatalog_toJson (c : Catalog) : takeCatalog c.toJson.document = .ok c := by
  have hcontexts := takeList_array c.contexts takeContext_toJson
  refine (takeRecord_object _ [(Value.ofText? c.version).document,
    (Value.ofText? c.language).document, (Value.ofText? c.sourceLanguage).document,
    (Value.array (c.contexts.map Context.toJson)).document] _ (by decide) rfl).trans ?_
  simp only [RecordField.putAll_cons, RecordField.putAll_nil, takeText?_ofText?, hcontexts]
  rfl

/-! ## No numbers in a dump -/

@[simp] theorem Wording.isNumberless_toJson (w : Wording) : w.toJson.isNumberless = true := by
  cases w with
  | single text => rfl
  | plural forms =>
    have hforms : (Value.array (forms.map .text)).isNumberless = true :=
      isNumberless_array forms fun _ ↦ rfl
    rw [toJson, Value.isNumberless, haveNoNumbers, hforms]
    rfl

@[simp] theorem Location.isNumberless_toJson (l : Location) : l.toJson.isNumberless = true := by
  simp only [toJson, Value.isNumberless, haveNoNumbers, isNumberless_ofText?, Bool.and_true]

@[simp] theorem Message.isNumberless_toJson (m : Message) : m.toJson.isNumberless = true := by
  have hlocations := isNumberless_array m.locations Location.isNumberless_toJson
  have hwording := m.translation.wording.isNumberless_toJson
  rw [Value.isNumberless] at hlocations
  simp only [toJson, Translation.toJson, Value.isNumberless, haveNoNumbers, isNumberless_ofText?,
    hlocations, hwording, Bool.and_true]

@[simp] theorem Context.isNumberless_toJson (k : Context) : k.toJson.isNumberless = true := by
  have hmessages := isNumberless_array k.messages Message.isNumberless_toJson
  rw [Value.isNumberless] at hmessages
  simp only [toJson, Value.isNumberless, haveNoNumbers, isNumberless_ofText?, hmessages,
    Bool.and_true]

@[simp] theorem Catalog.isNumberless_toJson (c : Catalog) : c.toJson.isNumberless = true := by
  have hcontexts := isNumberless_array c.contexts Context.isNumberless_toJson
  rw [Value.isNumberless] at hcontexts
  simp only [toJson, Value.isNumberless, haveNoNumbers, isNumberless_ofText?, hcontexts,
    Bool.and_true]

/-! ## The dump -/

/-- Every catalog is loaded from its dump exactly as it was. -/
theorem ofJson_dump (c : Catalog) : Catalog.ofJson c.dump = .ok c := by
  have htext : Document.ofText c.dump = (c.toJson.document, false) :=
    ofText_pretty c.isNumberless_toJson
  rw [Catalog.ofJson, takeFrom, htext]
  change (takeCatalog c.toJson.document).bind _ = _
  rw [takeCatalog_toJson]
  rfl

end MessageCatalog
