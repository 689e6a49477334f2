import MessageCatalog.Proofs.Catalog.Cursor
import MessageCatalog.Proofs.Markup.Steps

/-!
# Reading further on in a document

Where a token stands matters to the reader only for the position of a fault of the markup. Tokens
that stand further on therefore lead to the same places and the same catalogs, leave the same
notices and the same faults of the format, and every fault of the markup is further on by as much
(`Place.run_shift`).

Each of the seven ways in which a token is read is followed once, by the kind of the token; the few
operations that report a position have a lemma of their own.
-/

namespace MessageCatalog

open Markup

/-- The fault, where it is one of the markup `d` bytes later in the document. -/
def Fault.shift (d : Nat) : Fault → Fault
  | .markup position fault => .markup (position + d) fault
  | fault => fault

/-- What comes of reading the same tokens `d` bytes later in the document. -/
def Reading.shift (d : Nat) (r : Reading) : Reading where
  result := r.result.mapError (Fault.shift d)
  notices := r.notices
  rest := r.rest.map (Token.shift d)

section

variable (d position : Nat) (tag : Tag)

@[simp] theorem attributesAt_shift :
    attributesAt (position + d) tag = (attributesAt position tag).mapError (Fault.shift d) := by
  rw [attributesAt, attributesAt]
  cases tag.attributes with
  | error fault => rfl
  | ok attributes => rfl

@[simp] theorem decodeAt_shift (raw : List Char) :
    decodeAt (position + d) raw = (decodeAt position raw).mapError (Fault.shift d) := by
  rw [decodeAt, decodeAt]
  cases decode raw with
  | error fault => rfl
  | ok text => rfl

@[simp] theorem readByte_shift :
    readByte (position + d) tag = (readByte position tag).mapError (Fault.shift d) := by
  rw [readByte, readByte, attributesAt_shift]
  cases attributesAt position tag with
  | error fault => rfl
  | ok attributes =>
    simp only [Except.mapError, bind, Except.bind]
    cases attributes.find? (·.key = "value") with
    | none => rfl
    | some a =>
      simp only
      cases (byteCode? a.value).filter (·.isValidChar) with
      | none => rfl
      | some code => rfl

theorem MessageDraft.locate_shift (m : MessageDraft) (token : Token) :
    m.locate (token.shift d) tag = (m.locate token tag).mapError (Fault.shift d) := by
  rw [locate, locate, Token.shift, attributesAt_shift]
  cases attributesAt token.position tag with
  | error fault => rfl
  | ok attributes => rfl

end

/-! ## Tokens -/

section

variable (d : Nat) (token : Token)

theorem readOutside_shift :
    readOutside (token.shift d) = (readOutside token).mapError (Fault.shift d) := by
  obtain ⟨piece, position⟩ := token
  cases piece with
  | opening tag | empty tag =>
    simp only [readOutside, Token.shift, attributesAt_shift]
    split
    · cases attributesAt position tag <;> rfl
    · rfl
  | _ => rfl

theorem readInRoot_shift (c : Catalog) :
    readInRoot c (token.shift d) = (readInRoot c token).mapError (Fault.shift d) := by
  obtain ⟨piece, position⟩ := token
  cases piece with
  | opening tag | empty tag =>
    simp only [readInRoot, Token.shift]
    split <;> rfl
  | _ => rfl

theorem readInContext_shift (k : ContextDraft) :
    readInContext k (token.shift d) = (readInContext k token).mapError (Fault.shift d) := by
  obtain ⟨piece, position⟩ := token
  cases piece with
  | opening tag =>
    simp only [readInContext, Token.shift, attributesAt_shift]
    split_ifs
    · rfl
    · rfl
    · cases attributesAt position tag <;> rfl
    · rfl
  | empty tag =>
    simp only [readInContext, Token.shift]
    split_ifs <;> rfl
  | closing =>
    simp only [readInContext, Token.shift, ContextDraft.complete]
    cases k.name <;> rfl
  | _ => rfl

theorem readInMessage_shift (m : MessageDraft) :
    readInMessage m (token.shift d) = (readInMessage m token).mapError (Fault.shift d) := by
  obtain ⟨piece, position⟩ := token
  have hlocate := fun tag ↦ m.locate_shift d tag ⟨piece, position⟩
  cases piece with
  | opening tag =>
    simp only [readInMessage, hlocate]
    simp only [Token.shift, attributesAt_shift]
    split_ifs
    · cases m.locate ⟨.opening tag, position⟩ tag <;> rfl
    · cases attributesAt position tag <;> rfl
    · cases m.slot? tag.name <;> rfl
  | empty tag =>
    simp only [readInMessage, hlocate]
    simp only [Token.shift, attributesAt_shift]
    split_ifs
    · cases m.locate ⟨.empty tag, position⟩ tag <;> rfl
    · cases attributesAt position tag <;> rfl
    · cases m.slot? tag.name <;> rfl
  | closing =>
    simp only [readInMessage, Token.shift, MessageDraft.complete]
    cases m.source <;> rfl
  | _ => rfl

theorem readInTranslation_shift (t : TranslationDraft) :
    readInTranslation t (token.shift d) = (readInTranslation t token).mapError (Fault.shift d) := by
  obtain ⟨piece, position⟩ := token
  cases piece with
  | text raw =>
    simp only [readInTranslation, Token.shift, decodeAt_shift]
    cases decodeAt position raw <;> rfl
  | opening tag =>
    simp only [readInTranslation, Token.shift]
    split <;> rfl
  | empty tag =>
    simp only [readInTranslation, Token.shift, readByte_shift]
    split_ifs
    · rfl
    · cases readByte position tag <;> rfl
    · rfl
  | _ => rfl

theorem readInText_shift (slot : Slot) (read : List Char) :
    readInText slot read (token.shift d)
      = (readInText slot read token).mapError (Fault.shift d) := by
  obtain ⟨piece, position⟩ := token
  cases piece with
  | text raw =>
    simp only [readInText, Token.shift, decodeAt_shift]
    cases decodeAt position raw <;> rfl
  | empty tag =>
    simp only [readInText, Token.shift, readByte_shift]
    split
    · cases readByte position tag <;> rfl
    · rfl
  | _ => rfl

theorem readSkipped_shift (name : String) (depth : Nat) (back : Place) :
    readSkipped name depth back (token.shift d)
      = (readSkipped name depth back token).mapError (Fault.shift d) := by
  obtain ⟨piece, position⟩ := token
  cases piece with
  | closing => cases depth <;> rfl
  | _ => rfl

/-- A token that stands further on is read as the same token here. -/
@[simp] theorem Place.read_shift (place : Place) :
    place.read (token.shift d) = (place.read token).mapError (Fault.shift d) := by
  cases place with
  | outside => exact readOutside_shift d token
  | root c => exact readInRoot_shift d token c
  | context k => exact readInContext_shift d token k
  | message m => exact readInMessage_shift d token m
  | translation t => exact readInTranslation_shift d token t
  | text slot read => exact readInText_shift d token slot read
  | skipped name depth back => exact readSkipped_shift d token name depth back

end

@[simp] theorem Move.read_shift (d : Nat) (token : Token) (move : Move) :
    move.read (token.shift d) = (move.read token).mapError (Fault.shift d) := by
  cases move with
  | done c => rfl
  | go place =>
    rw [Move.read, Move.read, Place.read_shift]
    cases place.read token with
    | error fault => rfl
    | ok effect => rfl

/-! ## Runs -/

theorem Place.run_shift (place : Place) (d : Nat) (tokens : List Token) :
    place.run (tokens.map (Token.shift d)) = (place.run tokens).shift d := by
  induction tokens generalizing place with
  | nil => rfl
  | cons token tokens ih =>
    rw [List.map_cons, run, run, read_shift]
    cases place.read token with
    | error fault => rfl
    | ok effect =>
      obtain ⟨move, notices⟩ := effect
      cases move with
      | done c => rfl
      | go next => simp only [Except.mapError, ih, Reading.shift]

theorem Move.readAll_shift (d : Nat) (tokens : List Token) (move : Move) :
    move.readAll (tokens.map (Token.shift d))
      = (move.readAll tokens).mapError (Fault.shift d) := by
  induction tokens generalizing move with
  | nil => rfl
  | cons token tokens ih =>
    rw [List.map_cons, readAll_cons, readAll_cons, read_shift]
    cases move.read token with
    | error fault => rfl
    | ok next => exact ih next

end MessageCatalog
