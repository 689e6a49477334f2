import MessageCatalog.Catalog.Reader
import MessageCatalog.Proofs.Markup.Tokens
import MessageCatalog.Proofs.Outcome

/-!
# Reading a document part by part

A `Cursor` is a reading that has come to some character of a document: the scanner there, and what
the tokens so far have led to. Cursors run over the characters of a part (`Cursor.read`), runs
compose (`Cursor.read_append`), and a document is parsed by running over all of it
(`parse_eq_finish`).

## What a part leads to

`Leads place part outcome` says what comes of reading a part in an element, whichever elements are
open and wherever in the document it stands. An outcome is the next place, or a `Flaw`: a fault
without its position. The statement is about cursors between constructs, and such a cursor may hold
text that is not complete yet; what that text will denote already counts as read (`Stands`). Without
this a text could not be read in pieces, and most parts begin or end with one.

Reading a part of the document is thereby the same as following the meaning of the part, and the
outcomes of parts compose like the parts do (`Leads.append`, `Leads.element`).
-/

namespace MessageCatalog

open Markup

/-! ## Cursors -/

/-- What one more token leads to. After the end of the root element, nothing is read. -/
def Move.read (move : Move) (token : Token) : Except Fault Move :=
  match move with
  | .done c => .ok (.done c)
  | .go place => (place.read token).map (·.1)

section

variable (token : Token)

@[simp] theorem Move.read_outside :
    (Move.go .outside).read token = (readOutside token).map (·.1) := rfl

@[simp] theorem Move.read_inRoot (c : Catalog) :
    (Move.go (.root c)).read token = (readInRoot c token).map (·.1) := rfl

@[simp] theorem Move.read_inContext (k : ContextDraft) :
    (Move.go (.context k)).read token = (readInContext k token).map (·.1) := rfl

@[simp] theorem Move.read_inMessage (d : MessageDraft) :
    (Move.go (.message d)).read token = (readInMessage d token).map (·.1) := rfl

@[simp] theorem Move.read_inTranslation (t : TranslationDraft) :
    (Move.go (.translation t)).read token = (readInTranslation t token).map (·.1) := rfl

@[simp] theorem Move.read_inText (slot : Slot) (read : List Char) :
    (Move.go (.text slot read)).read token = (readInText slot read token).map (·.1) := rfl

end

/-- What more tokens lead to. -/
def Move.readAll (move : Move) (tokens : List Token) : Except Fault Move :=
  tokens.foldlM Move.read move

def Move.catalog : Move → Except Fault Catalog
  | .done c => .ok c
  | .go place => .error (.format place.cutShort)

@[simp] theorem Move.readAll_cons (move : Move) (token : Token) (tokens : List Token) :
    move.readAll (token :: tokens) = (do (← move.read token).readAll tokens) :=
  List.foldlM_cons

@[simp] theorem Move.readAll_append (move : Move) (a b : List Token) :
    move.readAll (a ++ b) = (do (← move.readAll a).readAll b) :=
  List.foldlM_append

@[simp] theorem Move.readAll_singleton (move : Move) (token : Token) :
    move.readAll [token] = move.read token := by
  rw [readAll_cons]
  cases move.read token with
  | error fault => rfl
  | ok next => rfl

@[simp] theorem Move.readAll_done (c : Catalog) (tokens : List Token) :
    (Move.done c).readAll tokens = .ok (.done c) := by
  induction tokens with
  | nil => rfl
  | cons token tokens ih => exact ih

theorem Place.run_result (place : Place) (tokens : List Token) :
    (place.run tokens).result = (do (← (Move.go place).readAll tokens).catalog) := by
  induction tokens generalizing place with
  | nil => rfl
  | cons token tokens ih =>
    rw [Place.run, Move.readAll_cons, Move.read]
    cases hread : place.read token with
    | error fault => rfl
    | ok effect =>
      obtain ⟨move, notices⟩ := effect
      cases move with
      | go next => exact ih next
      | done c => exact (congrArg (· >>= Move.catalog) (Move.readAll_done c tokens)).symm

/-- A reading that has come to some character of a document. -/
structure Cursor where
  scanner : Scanner
  move : Move

def Cursor.start : Cursor := ⟨.start, .go .outside⟩

/-- The cursor after more characters. -/
def Cursor.read (x : Cursor) (cs : List Char) : Except Fault Cursor :=
  (x.move.readAll (x.scanner.read cs).2).map (⟨(x.scanner.read cs).1, ·⟩)

def Cursor.finish (x : Cursor) : Except Fault Catalog := do
  (← x.move.readAll x.scanner.finish.toList).catalog

theorem Cursor.read_append (x : Cursor) (a b : List Char) :
    x.read (a ++ b) = (do (← x.read a).read b) := by
  rw [read, Scanner.read_append, Move.readAll_append, read]
  cases x.move.readAll (x.scanner.read a).2 with
  | error fault => rfl
  | ok move => rfl

/-- Characters that complete no token are read without any effect on the catalog. -/
theorem Cursor.read_of_no_token {s next : Scanner} {cs : List Char} (h : s.read cs = (next, []))
    (move : Move) : (⟨s, move⟩ : Cursor).read cs = .ok ⟨next, move⟩ := by
  rw [read, h]
  rfl

/-- Characters that complete one token have the effect of that token. -/
theorem Cursor.read_of_token {s next : Scanner} {cs : List Char} {token : Token}
    (h : s.read cs = (next, [token])) (move : Move) :
    (⟨s, move⟩ : Cursor).read cs = (move.read token).map (⟨next, ·⟩) := by
  rw [read, h]
  exact congrArg _ (move.readAll_singleton token)

/-- Reading the rest of a document token by token is reading it character by character. -/
theorem Cursor.readAll_scan (x : Cursor) (cs : List Char) :
    (do (← x.move.readAll (x.scanner.scan cs)).catalog) = (do (← x.read cs).finish) := by
  rw [Scanner.scan_eq, Move.readAll_append, read]
  cases x.move.readAll (x.scanner.read cs).2 with
  | error fault => rfl
  | ok move => rfl

theorem parse_eq_finish (document : String) :
    Catalog.parse document
      = (do (← Cursor.start.read (dropByteOrderMark document.toList)).finish) := by
  rw [Catalog.parse, Catalog.read, Place.run_result, tokens]
  exact Cursor.start.readAll_scan _

/-! ## Outcomes -/

/-- What a fault is, its position left out: some fault of the markup, or a fault of the format. -/
inductive Flaw
  | markup
  | format (fault : FormatFault)
  deriving DecidableEq, Repr

/-- Whether a fault is the flaw. -/
def Flaw.Describes : Flaw → Fault → Prop
  | .markup, fault => ∃ position markup, fault = .markup position markup
  | .format f, fault => fault = .format f

/-- Whether a result is an outcome: a related value, or a fault that is the flaw. -/
inductive Comes {α β : Type} (R : α → β → Prop) : Except Fault α → Except Flaw β → Prop
  | ok {a : α} {b : β} (h : R a b) : Comes R (.ok a) (.ok b)
  | error {fault : Fault} {flaw : Flaw} (h : flaw.Describes fault) :
    Comes R (.error fault) (.error flaw)

theorem Comes.bind {α β γ δ : Type} {R : α → β → Prop} {S : γ → δ → Prop} {x : Except Fault α}
    {y : Except Flaw β} {f : α → Except Fault γ} {g : β → Except Flaw δ} (h : Comes R x y)
    (hf : ∀ a b, y = .ok b → R a b → Comes S (f a) (g b)) : Comes S (x >>= f) (y >>= g) := by
  cases h with
  | ok hab => exact hf _ _ rfl hab
  | error hflaw => exact .error hflaw

theorem Comes.map {α β γ : Type} {R : α → β → Prop} {S : γ → β → Prop} {x : Except Fault α}
    {y : Except Flaw β} {f : α → γ} (h : Comes R x y) (hf : ∀ a b, R a b → S (f a) b) :
    Comes S (x.map f) y := by
  cases h with
  | ok hab => exact .ok (hf _ _ hab)
  | error hflaw => exact .error hflaw

theorem Comes.mono {α β : Type} {R S : α → β → Prop} {x : Except Fault α} {y : Except Flaw β}
    (h : Comes R x y) (hrs : ∀ a b, R a b → S a b) : Comes S x y := by
  cases h with
  | ok hab => exact .ok (hrs _ _ hab)
  | error hflaw => exact .error hflaw

/-! ## Text -/

/-- The place with more text, if it is in an element whose text counts. -/
def Place.addText (text : List Char) : Place → Place
  | .translation t => .translation { t with text := t.text ++ text }
  | .text slot read => .text slot (read ++ text)
  | place => place

/-- Whether a place is in an element whose text counts. -/
def Place.takesText : Place → Bool
  | .translation _ | .text _ _ => true
  | _ => false

@[simp] theorem Place.addText_nil (place : Place) : place.addText [] = place := by
  cases place with
  | translation t => rw [addText, List.append_nil]
  | text slot read => rw [addText, List.append_nil]
  | _ => rfl

@[simp] theorem Place.addText_append (place : Place) (a b : List Char) :
    place.addText (a ++ b) = (place.addText a).addText b := by
  cases place with
  | translation t => simp only [addText, List.append_assoc]
  | text slot read => simp only [addText, List.append_assoc]
  | _ => rfl

@[simp] theorem Place.takesText_addText (place : Place) (text : List Char) :
    (place.addText text).takesText = place.takesText := by
  cases place with
  | _ => rfl

theorem Move.read_text {raw text : List Char} (h : decode raw = .ok text) (place : Place)
    (position : Nat) :
    (Move.go place).read ⟨.text raw, position⟩ = .ok (.go (place.addText text)) := by
  have hdecode : decodeAt position raw = .ok text := by rw [decodeAt, h]; rfl
  cases place with
  | translation t => simp only [read_inTranslation, readInTranslation, hdecode]; rfl
  | text slot cs => simp only [read_inText, readInText, hdecode]; rfl
  | _ => rfl

@[simp] theorem Move.read_verbatim (content : List Char) (place : Place) (position : Nat) :
    (Move.go place).read ⟨.verbatim content, position⟩ = .ok (.go (place.addText content)) := by
  cases place with
  | _ => rfl

@[simp] theorem Move.read_aside (place : Place) (position : Nat) :
    (Move.go place).read ⟨.aside, position⟩ = .ok (.go place) := by
  cases place with
  | _ => rfl

theorem Move.read_text_error {raw : List Char} {fault : ReferenceFault}
    (h : decode raw = .error fault) {place : Place} (hplace : place.takesText = true)
    (position : Nat) :
    (Move.go place).read ⟨.text raw, position⟩
      = .error (.markup position (.reference fault)) := by
  have hdecode : decodeAt position raw = .error (.markup position (.reference fault)) := by
    rw [decodeAt, h]; rfl
  cases place with
  | translation t => simp only [read_inTranslation, readInTranslation, hdecode]; rfl
  | text slot cs => simp only [read_inText, readInText, hdecode]; rfl
  | _ => exact Bool.noConfusion hplace

/-! ## Standing at a place -/

/-- Whether a cursor stands between constructs in a place, inside elements of these names. It may
hold text that has not been given away; the place is the one that this text will lead to. -/
def Stands (names : List String) (place : Place) (x : Cursor) : Prop :=
  ∃ n raw text before, x = ⟨.resting n names raw, .go before⟩ ∧ Denotes raw text
    ∧ place = before.addText text

theorem stands_between (n : Nat) (names : List String) (place : Place) :
    Stands names place ⟨⟨n, names, .between⟩, .go place⟩ :=
  ⟨n, [], [], place, rfl, .nil, place.addText_nil.symm⟩

theorem Stands.read_lt {names : List String} {place : Place} {x : Cursor}
    (h : Stands names place x) :
    ∃ n, x.read ['<'] = .ok ⟨⟨n, names, .markup⟩, .go place⟩ := by
  obtain ⟨n, raw, text, before, rfl, hdenotes, rfl⟩ := h
  refine ⟨n + 1, ?_⟩
  rw [Cursor.read, Scanner.read_lt]
  cases raw with
  | nil =>
    have htext : text = [] := Except.ok.inj (hdenotes.decode_eq.symm.trans rfl)
    rw [htext, Place.addText_nil]
    rfl
  | cons c raw =>
    rw [textToken, Move.readAll_singleton, Move.read_text hdenotes.decode_eq]
    rfl

/-- A construct that is one token comes to what the token comes to, after the text that waits. -/
private theorem Stands.read_construct {α : Type} {R : Cursor → α → Prop}
    {names after : List String} {place : Place} {part : List Char} {piece : Piece}
    {outcome : Except Flaw α}
    (hscan : ∀ n, ∃ stop, (⟨n, names, .markup⟩ : Scanner).read part
      = (⟨stop, after, .between⟩, [⟨piece, stop⟩]))
    (hread : ∀ stop, Comes (fun move a ↦ R ⟨⟨stop, after, .between⟩, move⟩ a)
      ((Move.go place).read ⟨piece, stop⟩) outcome)
    {x : Cursor} (hx : Stands names place x) : Comes R (x.read ('<' :: part)) outcome := by
  obtain ⟨n, hlt⟩ := hx.read_lt
  obtain ⟨stop, hstop⟩ := hscan n
  rw [← List.singleton_append, Cursor.read_append, hlt]
  change Comes _ (Cursor.read _ part) outcome
  rw [Cursor.read_of_token hstop]
  exact (hread stop).map fun _ _ h ↦ h

/-- What reading a part of a document in a place comes to, in whatever elements. -/
def Leads (place : Place) (part : List Char) (outcome : Except Flaw Place) : Prop :=
  ∀ names x, Stands names place x → Comes (fun y next ↦ Stands names next y) (x.read part) outcome

theorem Leads.nil (place : Place) : Leads place [] (.ok place) :=
  fun _ _ h ↦ .ok h

theorem Leads.append {place : Place} {a b : List Char} {outcome : Except Flaw Place}
    (next : Place → Except Flaw Place) (ha : Leads place a outcome)
    (hb : ∀ q, outcome = .ok q → Leads q b (next q)) : Leads place (a ++ b) (outcome >>= next) := by
  intro names x hx
  rw [Cursor.read_append]
  exact (ha names x hx).bind fun y q hq hy ↦ hb q hq names y hy

theorem Leads.text {raw text : List Char} (h : Denotes raw text) (hplain : ∀ c ∈ raw, c ≠ '<')
    (place : Place) : Leads place raw (.ok (place.addText text)) := by
  rintro names x ⟨n, waiting, before, place, rfl, hwaiting, rfl⟩
  obtain ⟨stop, hread⟩ := Scanner.read_text names hplain n waiting
  rw [Cursor.read_of_no_token hread]
  exact .ok ⟨stop, waiting ++ raw, before ++ text, place, rfl, hwaiting.append h,
    (place.addText_append before text).symm⟩

private theorem Leads.construct {place : Place} {part : List Char} {piece : Piece}
    {outcome : Except Flaw Place}
    (hscan : ∀ n names, ∃ stop, (⟨n, names, .markup⟩ : Scanner).read part
      = (⟨stop, names, .between⟩, [⟨piece, stop⟩]))
    (hread : ∀ position, Comes (· = .go ·) ((Move.go place).read ⟨piece, position⟩) outcome) :
    Leads place ('<' :: part) outcome := by
  intro names x hx
  refine Stands.read_construct (fun n ↦ hscan n names) (fun stop ↦ ?_) hx
  exact (hread stop).mono fun move next h ↦ h ▸ stands_between stop names next

theorem Leads.verbatim {content : List Char} (h : occursIn "]]>".toList content = false)
    (place : Place) :
    Leads place ("<![CDATA[".toList ++ (content ++ "]]>".toList))
      (.ok (place.addText content)) := by
  refine Leads.construct (Scanner.read_verbatim h) fun position ↦ ?_
  rw [Move.read_verbatim]
  exact .ok rfl

theorem Leads.comment {content : List Char} (h : occursIn "--".toList content = false)
    (place : Place) :
    Leads place ("<!--".toList ++ (content ++ "-->".toList)) (.ok place) := by
  refine Leads.construct (Scanner.read_comment h) fun position ↦ ?_
  rw [Move.read_aside]
  exact .ok rfl

/-! ## Elements -/

/-- What a token of this kind comes to in a place, wherever it stands. -/
def Follows (place : Place) (piece : Piece) (outcome : Except Flaw Place) : Prop :=
  ∀ position, Comes (· = .go ·) ((Move.go place).read ⟨piece, position⟩) outcome

theorem Follows.of_read {place next : Place} {piece : Piece}
    (h : ∀ position, (Move.go place).read ⟨piece, position⟩ = .ok (.go next)) :
    Follows place piece (.ok next) := by
  intro position
  rw [h]
  exact .ok rfl

variable {code : Coding} {name : String} {attributes : List Attribute}

theorem Leads.empty {place : Place} {outcome : Except Flaw Place} (hname : isName name = true)
    (hattributes : areAttributes attributes = true)
    (h : Follows place (.empty (.written code name attributes)) outcome) :
    Leads place ('<' :: (tagContent code name attributes ++ "/>".toList)) outcome :=
  Leads.construct (Scanner.read_empty code hname hattributes) h

private theorem read_start {place : Place} {outcome : Except Flaw Place}
    (hname : isName name = true) (hattributes : areAttributes attributes = true)
    (h : Follows place (.opening (.written code name attributes)) outcome) {names : List String}
    {x : Cursor} (hx : Stands names place x) :
    Comes (fun y next ↦ Stands (name :: names) next y)
      (x.read ('<' :: (tagContent code name attributes ++ ['>']))) outcome := by
  refine Stands.read_construct
    (fun n ↦ Scanner.read_opening code hname hattributes n names) (fun stop ↦ ?_) hx
  exact (h stop).mono fun move next h ↦ h ▸ stands_between stop (name :: names) next

private theorem read_end {place : Place} {α : Type} {R : Cursor → α → Prop}
    {outcome : Except Flaw α} (hname : isName name = true) {names : List String}
    (h : ∀ stop, Comes (fun move a ↦ R ⟨⟨stop, names, .between⟩, move⟩ a)
      ((Move.go place).read ⟨.closing, stop⟩) outcome)
    {x : Cursor} (hx : Stands (name :: names) place x) :
    Comes R (x.read ("</".toList ++ name.toList ++ ['>'])) outcome := by
  have hshape : "</".toList ++ name.toList ++ ['>'] = '<' :: '/' :: (name.toList ++ ['>']) := rfl
  rw [hshape]
  exact Stands.read_construct (fun n ↦ Scanner.read_closing hname n names) h hx

def elementWritten (code : Coding) (name : String) (attributes : List Attribute)
    (body : List Char) : List Char :=
  '<' :: (tagContent code name attributes ++ ['>']) ++ body ++ ("</".toList ++ name.toList ++ ['>'])

/-- A start tag and what follows it, up to the end tag, leave the element open. -/
theorem Stands.read_unclosed {names : List String} {place : Place} {x : Cursor} {body : List Char}
    {opened content : Except Flaw Place} (hx : Stands names place x) (hname : isName name = true)
    (hattributes : areAttributes attributes = true)
    (hopen : Follows place (.opening (.written code name attributes)) opened)
    (hbody : ∀ inner, opened = .ok inner → Leads inner body content) :
    Comes (fun y next ↦ Stands (name :: names) next y)
      (x.read ('<' :: (tagContent code name attributes ++ ['>']) ++ body))
      (do let _ ← opened; content) := by
  rw [Cursor.read_append]
  exact (read_start hname hattributes hopen hx).bind fun y inner hinner hy ↦
    hbody inner hinner _ y hy

/-- An element leads through its start tag and its content to its end tag. -/
theorem Leads.element {place : Place} {body : List Char} {opened content : Except Flaw Place}
    (closed : Place → Except Flaw Place) (hname : isName name = true)
    (hattributes : areAttributes attributes = true)
    (hopen : Follows place (.opening (.written code name attributes)) opened)
    (hbody : ∀ inner, opened = .ok inner → Leads inner body content)
    (hclose : ∀ last, content = .ok last → Follows last .closing (closed last)) :
    Leads place (elementWritten code name attributes body)
      (do let _ ← opened; closed (← content)) := by
  intro names x hx
  rw [elementWritten, List.append_assoc, Cursor.read_append]
  refine (read_start hname hattributes hopen hx).bind fun y inner hinner hy ↦ ?_
  rw [Cursor.read_append]
  refine (hbody inner hinner _ y hy).bind fun z last hlast hz ↦ ?_
  refine read_end hname (fun stop ↦ ?_) hz
  exact (hclose last hlast stop).mono fun move next h ↦ h ▸ stands_between stop names next

/-- A text that is not held spoils the element that it is the content of. -/
theorem Leads.spoilt {place inner : Place} {body : List Char} (hname : isName name = true)
    (hattributes : areAttributes attributes = true)
    (hopen : Follows place (.opening (.written code name attributes)) (.ok inner))
    (hinner : inner.takesText = true) (hbody : Spoils body) (hplain : ∀ c ∈ body, c ≠ '<') :
    Leads place (elementWritten code name attributes body) (.error .markup) := by
  intro names x hx
  rw [elementWritten, List.append_assoc, Cursor.read_append]
  refine (read_start hname hattributes hopen hx).bind (g := fun _ ↦ .error .markup)
    fun y q hq hy ↦ ?_
  obtain rfl := Except.ok.inj hq
  -- the fault comes only at the `<` of the end tag, with all text that waits there
  obtain ⟨n, waiting, before, first, rfl, hwaiting, hfirst⟩ := hy
  obtain ⟨stop, hread⟩ := Scanner.read_text (name :: names) hplain n waiting
  have htakes : first.takesText = true := by
    rw [← first.takesText_addText before, ← hfirst, hinner]
  obtain ⟨fault, hfault⟩ := (hwaiting.append_spoils hbody).decode_eq
  have hlt : (⟨.resting stop (name :: names) (waiting ++ body), .go first⟩ : Cursor).read ['<']
      = .error (.markup stop (.reference fault)) := by
    rw [Cursor.read, Scanner.read_lt]
    cases hraw : waiting ++ body with
    | nil => rw [hraw, Denotes.nil.decode_eq] at hfault; cases hfault
    | cons c raw =>
      rw [hraw] at hfault
      rw [textToken, Move.readAll_singleton, Move.read_text_error hfault htakes]
      rfl
  rw [Cursor.read_append, Cursor.read_of_no_token hread]
  change Comes _ (Cursor.read _ (['<'] ++ ('/' :: name.toList ++ ['>']))) _
  rw [Cursor.read_append, hlt]
  exact .error ⟨stop, .reference fault, rfl⟩

/-! ## Whole documents -/

/-- Whether a cursor is past the end of the root element of a catalog. -/
def IsPast (x : Cursor) (c : Catalog) : Prop :=
  x.move = .done c

/-- The root element leads through its start tag and its content past its end. -/
theorem Stands.read_root {x : Cursor} {body : List Char} {opened : Except Flaw Place}
    {outcome : Except Flaw Catalog} (hx : Stands [] .outside x)
    (hattributes : areAttributes attributes = true)
    (hopen : Follows .outside (.opening (.written code "TS" attributes)) opened)
    (hbody : ∀ inner, opened = .ok inner → Leads inner body (outcome.map .root)) :
    Comes IsPast (x.read (elementWritten code "TS" attributes body))
      (do let _ ← opened; outcome) := by
  have hname : isName "TS" = true := by decide
  rw [elementWritten, List.append_assoc, Cursor.read_append]
  refine (read_start hname hattributes hopen hx).bind fun y inner hinner hy ↦ ?_
  rw [Cursor.read_append]
  have hcontent := hbody inner hinner _ y hy
  cases outcome with
  | ok c =>
    refine hcontent.bind (g := fun _ ↦ .ok c) fun z last hlast hz ↦ ?_
    obtain rfl := Except.ok.inj hlast
    have hclose : ∀ stop, Comes (fun move a ↦ IsPast ⟨⟨stop, [], .between⟩, move⟩ a)
        ((Move.go (.root c)).read ⟨.closing, stop⟩) (.ok c) := fun _ ↦ .ok (a := Move.done c) rfl
    exact read_end hname hclose hz
  | error flaw => exact hcontent.bind (g := fun _ ↦ .error flaw) fun z last hlast _ ↦ by cases hlast

/-- A root element that is one tag is past its end at once. -/
theorem Stands.read_emptyRoot {x : Cursor} {outcome : Except Flaw Catalog}
    (hx : Stands [] .outside x) (hattributes : areAttributes attributes = true)
    (h : ∀ position, Comes (· = .done ·)
      ((Move.go .outside).read ⟨.empty (.written code "TS" attributes), position⟩) outcome) :
    Comes IsPast (x.read ('<' :: (tagContent code "TS" attributes ++ "/>".toList))) outcome := by
  have hname : isName "TS" = true := by decide
  exact Stands.read_construct (fun n ↦ Scanner.read_empty code hname hattributes n []) h hx

/-- What follows the root element is not read. -/
theorem parse_of_comes {document rest : List Char} {outcome : Except Flaw Catalog}
    (hmark : dropByteOrderMark (document ++ rest) = document ++ rest)
    (h : Comes IsPast (Cursor.start.read document) outcome) :
    Comes (· = ·) (Catalog.parse (String.ofList (document ++ rest))) outcome := by
  rw [parse_eq_finish, String.toList_ofList, hmark, Cursor.read_append]
  generalize Cursor.start.read document = result at h
  cases h with
  | @ok y c hpast =>
    obtain ⟨scanner, move⟩ := y
    obtain rfl : move = .done c := hpast
    change Comes _ (Cursor.read _ rest >>= Cursor.finish) _
    rw [Cursor.read, Move.readAll_done]
    change Comes _ (Cursor.finish _) _
    rw [Cursor.finish, Move.readAll_done]
    exact .ok rfl
  | error hflaw => exact .error hflaw

end MessageCatalog
