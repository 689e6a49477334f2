import Mathlib.Tactic.SplitIfs
import MessageCatalog.Catalog.Reader

/-!
# Faults of documents

Reading a document ends, if not with a catalog, with a fault of its markup or of its format. So a
fault in loading a catalog tells whether the file could be read at all.
-/

namespace MessageCatalog

open Markup

/-- Whether a fault is one of a document, as opposed to its file. -/
def Fault.isOfDocument : Fault → Bool
  | .markup _ _ | .format _ => true
  | _ => false

/-- If an operation fails, it is because of a document. -/
def BlamesDocument {α : Type} (x : Except Fault α) : Prop :=
  ∀ fault, x = .error fault → fault.isOfDocument = true

section

variable {α β : Type}

@[simp] theorem blamesDocument_ok (a : α) : BlamesDocument (.ok a) := by
  rintro fault ⟨⟩

theorem blamesDocument_error {fault : Fault} (h : fault.isOfDocument = true) :
    BlamesDocument (.error fault : Except Fault α) := by
  rintro fault' ⟨⟩
  exact h

theorem BlamesDocument.bind {x : Except Fault α} {f : α → Except Fault β}
    (hx : BlamesDocument x) (hf : ∀ a, BlamesDocument (f a)) : BlamesDocument (x >>= f) := by
  rcases x with fault | a
  · exact blamesDocument_error (hx fault rfl)
  · exact hf a

theorem blamesDocument_mapError {ε : Type} (x : Except ε α) {f : ε → Fault}
    (hf : ∀ e, (f e).isOfDocument = true) : BlamesDocument (x.mapError f) := by
  rcases x with e | a
  · exact blamesDocument_error (hf e)
  · exact blamesDocument_ok a

end

/-! ## Parts of tokens -/

section

variable (position : Nat) (tag : Tag)

theorem blamesDocument_attributesAt : BlamesDocument (attributesAt position tag) :=
  blamesDocument_mapError _ fun _ ↦ rfl

theorem blamesDocument_decodeAt (raw : List Char) : BlamesDocument (decodeAt position raw) :=
  blamesDocument_mapError _ fun _ ↦ rfl

theorem blamesDocument_readByte : BlamesDocument (readByte position tag) := by
  refine (blamesDocument_attributesAt position tag).bind fun attributes ↦ ?_
  split
  · exact blamesDocument_error rfl
  · split
    · exact blamesDocument_ok _
    · exact blamesDocument_error rfl

theorem MessageDraft.blamesDocument_locate (m : MessageDraft) (token : Token) :
    BlamesDocument (m.locate token tag) :=
  (blamesDocument_attributesAt token.position tag).bind fun _ ↦ blamesDocument_ok _

end

theorem ContextDraft.blamesDocument_complete (k : ContextDraft) : BlamesDocument k.complete := by
  rw [complete]
  split
  · exact blamesDocument_error rfl
  · exact blamesDocument_ok _

theorem MessageDraft.blamesDocument_complete (m : MessageDraft) : BlamesDocument m.complete := by
  rw [complete]
  split
  · exact blamesDocument_error rfl
  · exact blamesDocument_ok _

/-! ## Tokens -/

section

variable (token : Token)

theorem blamesDocument_readOutside : BlamesDocument (readOutside token) := by
  obtain ⟨piece, position⟩ := token
  cases piece with
  | opening tag | empty tag =>
    simp only [readOutside]
    split_ifs
    · exact (blamesDocument_attributesAt _ _).bind fun _ ↦ blamesDocument_ok _
    · exact blamesDocument_error rfl
  | fault fault => exact blamesDocument_error rfl
  | _ => exact blamesDocument_ok _

theorem blamesDocument_readInRoot (c : Catalog) : BlamesDocument (readInRoot c token) := by
  obtain ⟨piece, position⟩ := token
  cases piece with
  | opening tag =>
    simp only [readInRoot]
    split_ifs <;> exact blamesDocument_ok _
  | empty tag =>
    simp only [readInRoot]
    split_ifs
    · exact blamesDocument_error rfl
    · exact blamesDocument_ok _
  | fault fault => exact blamesDocument_error rfl
  | _ => exact blamesDocument_ok _

theorem blamesDocument_readInContext (k : ContextDraft) :
    BlamesDocument (readInContext k token) := by
  obtain ⟨piece, position⟩ := token
  cases piece with
  | opening tag =>
    simp only [readInContext]
    split_ifs
    · exact blamesDocument_ok _
    · exact blamesDocument_ok _
    · exact (blamesDocument_attributesAt _ _).bind fun _ ↦ blamesDocument_ok _
    · exact blamesDocument_ok _
  | empty tag =>
    simp only [readInContext]
    split_ifs
    · exact blamesDocument_ok _
    · exact blamesDocument_ok _
    · exact blamesDocument_error rfl
    · exact blamesDocument_ok _
  | closing => exact k.blamesDocument_complete.bind fun _ ↦ blamesDocument_ok _
  | fault fault => exact blamesDocument_error rfl
  | _ => exact blamesDocument_ok _

theorem blamesDocument_readInMessage (m : MessageDraft) :
    BlamesDocument (readInMessage m token) := by
  obtain ⟨piece, position⟩ := token
  cases piece with
  | opening tag | empty tag =>
    simp only [readInMessage]
    split_ifs
    · exact (m.blamesDocument_locate _ _).bind fun _ ↦ blamesDocument_ok _
    · exact (blamesDocument_attributesAt _ _).bind fun _ ↦ blamesDocument_ok _
    · split <;> exact blamesDocument_ok _
  | closing => exact m.blamesDocument_complete.bind fun _ ↦ blamesDocument_ok _
  | fault fault => exact blamesDocument_error rfl
  | _ => exact blamesDocument_ok _

theorem blamesDocument_readInTranslation (t : TranslationDraft) :
    BlamesDocument (readInTranslation t token) := by
  obtain ⟨piece, position⟩ := token
  cases piece with
  | text raw => exact (blamesDocument_decodeAt _ _).bind fun _ ↦ blamesDocument_ok _
  | opening tag =>
    simp only [readInTranslation]
    split_ifs <;> exact blamesDocument_ok _
  | empty tag =>
    simp only [readInTranslation]
    split_ifs
    · exact blamesDocument_ok _
    · exact (blamesDocument_readByte _ _).bind fun _ ↦ blamesDocument_ok _
    · exact blamesDocument_ok _
  | fault fault => exact blamesDocument_error rfl
  | _ => exact blamesDocument_ok _

theorem blamesDocument_readInText (slot : Slot) (read : List Char) :
    BlamesDocument (readInText slot read token) := by
  obtain ⟨piece, position⟩ := token
  cases piece with
  | text raw => exact (blamesDocument_decodeAt _ _).bind fun _ ↦ blamesDocument_ok _
  | empty tag =>
    simp only [readInText]
    split_ifs
    · exact (blamesDocument_readByte _ _).bind fun _ ↦ blamesDocument_ok _
    · exact blamesDocument_ok _
  | fault fault => exact blamesDocument_error rfl
  | _ => exact blamesDocument_ok _

theorem blamesDocument_readSkipped (name : String) (depth : Nat) (back : Place) :
    BlamesDocument (readSkipped name depth back token) := by
  obtain ⟨piece, position⟩ := token
  cases piece with
  | closing => cases depth <;> exact blamesDocument_ok _
  | fault fault => exact blamesDocument_error rfl
  | _ => exact blamesDocument_ok _

theorem Place.blamesDocument_read (place : Place) : BlamesDocument (place.read token) := by
  cases place with
  | outside => exact blamesDocument_readOutside token
  | root c => exact blamesDocument_readInRoot token c
  | context k => exact blamesDocument_readInContext token k
  | message m => exact blamesDocument_readInMessage token m
  | translation t => exact blamesDocument_readInTranslation token t
  | text slot read => exact blamesDocument_readInText token slot read
  | skipped name depth back => exact blamesDocument_readSkipped token name depth back

end

/-! ## Documents -/

theorem Place.blamesDocument_run (place : Place) (tokens : List Token) :
    BlamesDocument (place.run tokens).result := by
  induction tokens generalizing place with
  | nil => exact blamesDocument_error rfl
  | cons token rest ih =>
    have hread := place.blamesDocument_read token
    rw [run]
    split
    · next fault hfault => exact blamesDocument_error (hread fault hfault)
    · exact blamesDocument_ok _
    · next next _ _ => exact ih next

/-- A document that is no catalog is blamed for that itself. -/
theorem blamesDocument_parse (document : String) : BlamesDocument (Catalog.parse document) :=
  Place.blamesDocument_run .outside _

end MessageCatalog
