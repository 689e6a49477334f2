import Mathlib.Data.List.Induction
import MessageCatalog.Proofs.Markup.Tokens

/-!
# What one step of the scanner can do

A character is collected, or it is the `<` that gives away the text before it, or it ends a
construct. `stride` says so once for all modes, and everything else about single steps follows from
it: how far the scanner moves, which elements are open afterwards, which characters can end a
construct, and that none of this depends on where the scanner stands.

## Standing elsewhere

A fault may be reported some way back from where the scanner stands, at the beginning of what it is
reading. That way never leads past the beginning of the document (`Scanner.IsAnchored`), so that a
scanner that stands further on reports the same faults, each further on by as much
(`Scanner.scan_shift`). A position in Lean stops at zero; without the condition a report could be
cut off there, and would not move along.
-/

namespace MessageCatalog.Markup

open Text

/-! ## Ends of constructs -/

/-- The end of a construct, wherever it stands: its piece, how far back from the end it is reported,
and the open elements after it. -/
structure Ending where
  piece : Piece
  back : Nat
  names : List String

/-- The completion of a construct with this end, before byte `stop`. -/
def Ending.at (e : Ending) (stop : Nat) : Completion :=
  ⟨e.piece, stop - e.back, e.names⟩

/-- Whether the open elements before and after a piece are as its kind demands. A fault ends the
scan, so that nothing is asked of it. -/
def Piece.Turns (before after : List String) : Piece → Prop
  | .opening tag => after = tag.name :: before
  | .closing => ∃ name, before = name :: after
  | .text _ | .verbatim _ | .empty _ | .aside => after = before
  | .fault _ => True

def Piece.depthAfter (before : Nat) : Piece → Nat
  | .opening _ => before + 1
  | .closing => before - 1
  | .text _ | .verbatim _ | .empty _ | .aside | .fault _ => before

theorem Piece.Turns.length_eq {before after : List String} {piece : Piece}
    (h : piece.Turns before after) (hfault : ∀ fault, piece ≠ .fault fault) :
    after.length = piece.depthAfter before.length := by
  cases piece with
  | opening tag =>
    obtain rfl : after = tag.name :: before := h
    rfl
  | closing =>
    obtain ⟨name, rfl⟩ := h
    rfl
  | fault fault => exact absurd rfl (hfault fault)
  | _ => exact congrArg List.length h

/-- Whether an end fits a construct of some width inside elements of these names. -/
structure Ending.Fits (e : Ending) (names : List String) (width : Nat) : Prop where
  back_le : e.back ≤ width
  turns : e.piece.Turns names e.names

theorem Ending.Fits.mono {e : Ending} {names : List String} {width wider : Nat}
    (h : e.Fits names width) (hle : width ≤ wider) : e.Fits names wider :=
  ⟨Nat.le_trans h.back_le hle, h.turns⟩

section

variable (names : List String) (read : List Char)

theorem completeComment_eq_at : ∃ e : Ending, e.Fits names (byteWidth read)
    ∧ ∀ stop, completeComment names stop read = e.at stop := by
  unfold completeComment
  split
  · exact ⟨⟨.aside, 0, names⟩, ⟨Nat.zero_le _, rfl⟩, fun _ ↦ rfl⟩
  · exact ⟨⟨.fault _, 0, names⟩, ⟨Nat.zero_le _, trivial⟩, fun _ ↦ rfl⟩

theorem completeVerbatim_eq_at : ∃ e : Ending, e.Fits names (byteWidth read)
    ∧ ∀ stop, completeVerbatim names stop read = e.at stop := by
  unfold completeVerbatim
  split
  · exact ⟨⟨.verbatim _, 0, names⟩, ⟨Nat.zero_le _, rfl⟩, fun _ ↦ rfl⟩
  · exact ⟨⟨.fault _, 0, names⟩, ⟨Nat.zero_le _, trivial⟩, fun _ ↦ rfl⟩

theorem completeDoctype_eq_at : ∃ e : Ending, e.Fits names (byteWidth read)
    ∧ ∀ stop, completeDoctype names stop read = e.at stop := by
  unfold completeDoctype
  split
  · split
    · exact ⟨⟨.fault _, 0, names⟩, ⟨Nat.zero_le _, trivial⟩, fun _ ↦ rfl⟩
    · exact ⟨⟨.aside, 0, names⟩, ⟨Nat.zero_le _, rfl⟩, fun _ ↦ rfl⟩
  · exact ⟨⟨.fault _, 0, names⟩, ⟨Nat.zero_le _, trivial⟩, fun _ ↦ rfl⟩

theorem completeInstruction_eq_at : ∃ e : Ending, e.Fits names (byteWidth read)
    ∧ ∀ stop, completeInstruction names stop read = e.at stop := by
  unfold completeInstruction
  split
  · exact ⟨⟨.aside, 0, names⟩, ⟨Nat.zero_le _, rfl⟩, fun _ ↦ rfl⟩
  · exact ⟨⟨.fault _, byteWidth read, names⟩, ⟨Nat.le_refl _, trivial⟩, fun _ ↦ rfl⟩

theorem completeEnd_eq_at : ∃ e : Ending, e.Fits names (byteWidth read)
    ∧ ∀ stop, completeEnd names stop read = e.at stop := by
  cases names with
  | nil => exact ⟨⟨.fault _, byteWidth read, []⟩, ⟨Nat.le_refl _, trivial⟩, fun _ ↦ rfl⟩
  | cons expected outer =>
    simp only [completeEnd]
    split
    · exact ⟨⟨.closing, 0, outer⟩, ⟨Nat.zero_le _, expected, rfl⟩, fun _ ↦ rfl⟩
    · exact ⟨⟨.fault _, byteWidth read, outer⟩, ⟨Nat.le_refl _, trivial⟩, fun _ ↦ rfl⟩

theorem completeTag_eq_at : ∃ e : Ending, e.Fits names (byteWidth read)
    ∧ ∀ stop, completeTag names stop read = e.at stop := by
  unfold completeTag
  split
  · exact ⟨⟨.empty _, 0, names⟩, ⟨Nat.zero_le _, rfl⟩, fun _ ↦ rfl⟩
  · exact ⟨⟨.opening _, 0, _ :: names⟩, ⟨Nat.zero_le _, rfl⟩, fun _ ↦ rfl⟩

end

/-! ## Steps -/

/-- How far back from where it stands the scanner may report a fault, at most. -/
def Mode.reach : Mode → Nat
  | .between | .markup | .stopped => 0
  | .text _ | .bang => 1
  | .comment read | .verbatim read | .doctype read _ | .endTag read | .instruction read
  | .tag read _ => byteWidth read

/-- Whether a mode can be the next one. Markup is begun by a `<` and an end tag by the slash after
it; an end tag holds all of its characters, none of which is a `>`. -/
def Mode.IsNext (mode : Mode) (c : Char) : Mode → Prop
  | .markup => c = '<'
  | .endTag read =>
    (mode = .markup ∧ c = '/' ∧ read = [c]) ∨ ∃ earlier, mode = .endTag earlier ∧ c ≠ '>'
      ∧ read = c :: earlier
  | _ => True

/-- What a character does inside elements of some names, wherever the scanner stands. -/
inductive Stride (names : List String) (mode : Mode) (c : Char) : Prop
  /-- It completes nothing. -/
  | collects (next : Mode) (isNext : mode.IsNext c next)
    (reach_le : next.reach ≤ mode.reach + c.utf8Size)
    (step_eq : ∀ n, (⟨n, names, mode⟩ : Scanner).step c = (⟨n + c.utf8Size, names, next⟩, none))
  /-- It begins markup after a text. -/
  | begins (raw : List Char) (lt : c = '<')
    (step_eq : ∀ n, (⟨n, names, mode⟩ : Scanner).step c
      = (⟨n + c.utf8Size, names, .markup⟩, some ⟨.text raw, n⟩))
  /-- It ends a construct, or is the fault itself. -/
  | ends (e : Ending) (fits : e.Fits names (mode.reach + c.utf8Size))
    (gt_or_fault : c = '>' ∨ ∃ fault, e.piece = .fault fault)
    (step_eq : ∀ n, (⟨n, names, mode⟩ : Scanner).step c
      = (e.at (n + c.utf8Size)).scanned (n + c.utf8Size))

section

variable {names : List String} {mode : Mode} {c : Char}

/-- A character that ends a construct under a condition, and else is collected. -/
private theorem Stride.of_ite (next : Mode) {p : Prop} [Decidable p] {complete : Nat → Completion}
    {e : Ending}
    (hstep : ∀ n, (⟨n, names, mode⟩ : Scanner).step c
      = if p then (complete (n + c.utf8Size)).scanned (n + c.utf8Size)
        else (⟨n + c.utf8Size, names, next⟩, none))
    (hgt : p → c = '>') (hnext : ¬p → mode.IsNext c next)
    (hreach : next.reach ≤ mode.reach + c.utf8Size)
    (h : e.Fits names mode.reach ∧ ∀ stop, complete stop = e.at stop) : Stride names mode c := by
  by_cases hp : p
  · exact .ends e (h.1.mono (Nat.le_add_right _ _)) (.inl (hgt hp)) fun n ↦ by
      rw [hstep, if_pos hp, h.2]
  · exact .collects next (hnext hp) hreach fun n ↦ by rw [hstep, if_neg hp]

/-- After a `<`, the character that is not the mark of another construct begins a tag. -/
private theorem stride_markup : Stride names .markup c := by
  have hsize : byteWidth [c] ≤ 0 + c.utf8Size := Nat.le_of_eq (Nat.add_comm _ _)
  by_cases hbang : c = '!'
  · exact .collects .bang trivial (by subst hbang; decide) fun n ↦ by
      simp only [Scanner.step, if_pos hbang]
  by_cases hslash : c = '/'
  · exact .collects (.endTag [c]) (.inl ⟨rfl, hslash, rfl⟩) hsize fun n ↦ by
      simp only [Scanner.step, if_neg hbang, if_pos hslash]
  by_cases hquestion : c = '?'
  · exact .collects (.instruction [c]) trivial hsize fun n ↦ by
      simp only [Scanner.step, if_neg hbang, if_neg hslash, if_pos hquestion]
  -- what is left is what happens in a tag of which nothing has been read
  have htag : ∀ n, (⟨n, names, .markup⟩ : Scanner).step c
      = (⟨n, names, .tag [] none⟩ : Scanner).step c := fun n ↦ by
    simp only [Scanner.step, if_neg hbang, if_neg hslash, if_neg hquestion]
  obtain ⟨e, he⟩ := completeTag_eq_at names []
  exact .of_ite (.tag [c] _) (fun n ↦ (htag n).trans rfl) id (fun _ ↦ trivial) hsize he

/-- After `<!`, a character begins one of three constructs or is a fault. -/
private theorem stride_bang : Stride names .bang c := by
  have hreach : byteWidth [c, '!'] ≤ 1 + c.utf8Size := Nat.le_of_eq (Nat.add_comm _ _)
  by_cases hbracket : c = '['
  · exact .collects (.verbatim [c, '!']) trivial hreach fun n ↦ by
      simp only [Scanner.step, if_pos hbracket]
  by_cases hdash : c = '-'
  · exact .collects (.comment [c, '!']) trivial hreach fun n ↦ by
      simp only [Scanner.step, if_neg hbracket, if_pos hdash]
  by_cases hd : c = 'D' ∨ c = 'd'
  · exact .collects (.doctype [c, '!'] 0) trivial hreach fun n ↦ by
      simp only [Scanner.step, if_neg hbracket, if_neg hdash, if_pos hd]
  · refine .ends ⟨.fault (.strayBang (leadByte c)), c.utf8Size + 1, names⟩
      ⟨Nat.le_of_eq (Nat.add_comm _ _), trivial⟩ (.inr ⟨_, rfl⟩) fun n ↦ ?_
    simp only [Scanner.step, if_neg hbracket, if_neg hdash, if_neg hd, Ending.at]
    rw [Nat.sub_add_eq, Nat.add_sub_cancel]

end

theorem stride (names : List String) (mode : Mode) (c : Char) : Stride names mode c := by
  have hpos : 0 < c.utf8Size := c.utf8Size_pos
  have hreach : ∀ read, byteWidth (c :: read) ≤ byteWidth read + c.utf8Size := fun read ↦
    Nat.le_of_eq (Nat.add_comm _ _)
  cases mode with
  | between =>
    by_cases hlt : c = '<'
    · exact .collects .markup hlt (Nat.zero_le _) fun n ↦ by simp only [Scanner.step, if_pos hlt]
    · exact .collects (.text [c]) trivial (Nat.le_add_left_of_le hpos) fun n ↦ by
        simp only [Scanner.step, if_neg hlt]
  | text read =>
    by_cases hlt : c = '<'
    · exact .begins read.reverse hlt fun n ↦ by simp only [Scanner.step, if_pos hlt]
    · exact .collects (.text (c :: read)) trivial (Nat.le_add_right _ _) fun n ↦ by
        simp only [Scanner.step, if_neg hlt]
  | markup => exact stride_markup
  | bang => exact stride_bang
  | comment read =>
    obtain ⟨e, he⟩ := completeComment_eq_at names read
    exact .of_ite (.comment (c :: read)) (fun n ↦ rfl) And.left (fun _ ↦ trivial) (hreach read) he
  | verbatim read =>
    obtain ⟨e, hfits, he⟩ := completeVerbatim_eq_at names (read.drop 2)
    have hdrop : byteWidth (read.drop 2) ≤ byteWidth read := by
      rw [← List.take_append_drop 2 read, byteWidth_append, List.take_append_drop]
      exact Nat.le_add_left _ _
    exact .of_ite (.verbatim (c :: read)) (fun n ↦ rfl) And.left (fun _ ↦ trivial) (hreach read)
      ⟨hfits.mono hdrop, he⟩
  | doctype read depth =>
    obtain ⟨e, he⟩ := completeDoctype_eq_at names read
    cases depth with
    | zero =>
      exact .of_ite (.doctype (c :: read) _) (fun n ↦ rfl) id (fun _ ↦ trivial) (hreach read) he
    | succ depth =>
      by_cases hgt : c = '>'
      · exact .collects (.doctype (c :: read) depth) trivial (hreach read) fun n ↦ by
          simp only [Scanner.step, if_pos hgt]
      · exact .collects (.doctype (c :: read) _) trivial (hreach read) fun n ↦ by
          simp only [Scanner.step, if_neg hgt]
          rfl
  | endTag read =>
    obtain ⟨e, he⟩ := completeEnd_eq_at names read
    exact .of_ite (.endTag (c :: read)) (fun n ↦ rfl) id (fun hgt ↦ .inr ⟨read, rfl, hgt, rfl⟩)
      (hreach read) he
  | instruction read =>
    obtain ⟨e, he⟩ := completeInstruction_eq_at names read
    exact .of_ite (.instruction (c :: read)) (fun n ↦ rfl) id (fun _ ↦ trivial) (hreach read) he
  | tag read quote =>
    cases quote with
    | some q => exact .collects (.tag (c :: read) _) trivial (hreach read) fun n ↦ rfl
    | none =>
      obtain ⟨e, he⟩ := completeTag_eq_at names read
      exact .of_ite (.tag (c :: read) _) (fun n ↦ rfl) id (fun _ ↦ trivial) (hreach read) he
  | stopped => exact .collects .stopped trivial (Nat.zero_le _) fun n ↦ rfl

/-! ## What follows for all steps -/

theorem Completion.mode_scanned_ne (e : Completion) (stop : Nat) {mode : Mode}
    (hbetween : mode ≠ .between) (hstopped : mode ≠ .stopped) : (e.scanned stop).1.mode ≠ mode := by
  rw [Completion.scanned]
  cases e.piece with
  | fault _ => exact hstopped.symm
  | _ => exact hbetween.symm

theorem Completion.mode_scanned {e : Completion} (h : ∀ fault, e.piece ≠ .fault fault)
    (stop : Nat) : (e.scanned stop).1.mode = .between := by
  rw [Completion.scanned]
  cases hpiece : e.piece with
  | fault fault => exact absurd hpiece (h fault)
  | _ => rfl

namespace Scanner

@[simp] theorem consumed_step (s : Scanner) (c : Char) :
    (s.step c).1.consumed = s.consumed + c.utf8Size := by
  obtain ⟨n, names, mode⟩ := s
  rcases stride names mode c with
    ⟨next, -, -, hstep⟩ | ⟨raw, -, hstep⟩ | ⟨e, -, -, hstep⟩
  all_goals rw [hstep]
  rfl

@[simp] theorem consumed_read (s : Scanner) (cs : List Char) :
    (s.read cs).1.consumed = s.consumed + byteWidth cs := by
  induction cs generalizing s with
  | nil => rfl
  | cons c cs ih => rw [read_cons, ih, consumed_step, byteWidth_cons, Nat.add_assoc]

theorem read_concat (s : Scanner) (cs : List Char) (c : Char) :
    (s.read (cs ++ [c])).1 = ((s.read cs).1.step c).1 := by
  rw [read_append]
  rfl

theorem eq_append_of_markup {cs : List Char} (h : (start.read cs).1.mode = .markup) :
    ∃ before, cs = before ++ ['<'] := by
  rcases List.eq_nil_or_concat' cs with rfl | ⟨before, c, rfl⟩
  · cases h
  rw [read_concat] at h
  generalize (start.read before).1 = s at h
  obtain ⟨n, names, mode⟩ := s
  rcases stride names mode c with
    ⟨next, hnext, -, hstep⟩ | ⟨raw, hlt, hstep⟩ | ⟨e, -, -, hstep⟩
  · rw [hstep] at h
    obtain rfl : next = .markup := h
    exact ⟨before, congrArg (before ++ [·]) hnext⟩
  · exact ⟨before, congrArg (before ++ [·]) hlt⟩
  · rw [hstep] at h
    exact absurd h (Completion.mode_scanned_ne _ _ (by decide) (by decide))

/-- An end tag that has not ended is all that was read since its `<`. -/
theorem eq_append_of_endTag {cs read : List Char} (h : (start.read cs).1.mode = .endTag read) :
    ∃ before raw, cs = before ++ "</".toList ++ raw ∧ read = raw.reverse ++ ['/'] ∧ '>' ∉ raw := by
  induction cs using List.reverseRecOn generalizing read with
  | nil => cases h
  | append_singleton cs c ih =>
    rw [read_concat] at h
    generalize hs : (start.read cs).1 = s at h
    obtain ⟨n, names, mode⟩ := s
    rcases stride names mode c with
      ⟨next, hnext, -, hstep⟩ | ⟨raw, -, hstep⟩ | ⟨e, -, -, hstep⟩
    · rw [hstep] at h
      obtain rfl : next = .endTag read := h
      rcases hnext with ⟨rfl, rfl, rfl⟩ | ⟨earlier, rfl, hgt, rfl⟩
      · obtain ⟨before, rfl⟩ := eq_append_of_markup (congrArg mode hs)
        exact ⟨before, [], by simp, rfl, List.not_mem_nil⟩
      · obtain ⟨before, raw, rfl, rfl, hraw⟩ := ih (congrArg mode hs)
        refine ⟨before, raw ++ [c], (List.append_assoc _ raw [c]), ?_, ?_⟩
        · rw [List.reverse_concat, List.cons_append]
        · rw [List.mem_append, List.mem_singleton]
          rintro (hmem | rfl)
          · exact hraw hmem
          · exact hgt rfl
    · rw [hstep] at h
      cases h
    · rw [hstep] at h
      exact absurd h (Completion.mode_scanned_ne _ _ (by rintro ⟨⟩) (by rintro ⟨⟩))

/-- The end of the document ends an end tag that fits, and no other tag. -/
theorem piece_of_finish {s : Scanner} {token : Token} (h : s.finish = some token) :
    (∀ tag, token.piece ≠ .empty tag) ∧ (token.piece = .closing → ∃ read expected outer,
      s.mode = .endTag read ∧ s.names = expected :: outer
        ∧ String.ofList (endName (read.reverse.drop 1)) = expected) := by
  obtain ⟨n, names, mode⟩ := s
  cases mode with
  | between | markup | stopped => cases h
  | endTag read =>
    cases names with
    | nil =>
      obtain rfl := Option.some.inj h
      exact ⟨fun _ heq ↦ (by cases heq), fun heq ↦ (by cases heq)⟩
    | cons expected outer =>
      simp only [finish, completeEnd] at h
      split_ifs at h with hname
      · obtain rfl := Option.some.inj h
        exact ⟨fun _ heq ↦ (by cases heq), fun _ ↦ ⟨read, expected, outer, rfl, rfl, hname⟩⟩
      · obtain rfl := Option.some.inj h
        exact ⟨fun _ heq ↦ (by cases heq), fun heq ↦ (by cases heq)⟩
  | instruction read =>
    simp only [finish, completeInstruction] at h
    split_ifs at h
    all_goals
      obtain rfl := Option.some.inj h
      exact ⟨fun _ heq ↦ (by cases heq), fun heq ↦ (by cases heq)⟩
  | _ =>
    obtain rfl := Option.some.inj h
    exact ⟨fun _ heq ↦ (by cases heq), fun heq ↦ (by cases heq)⟩

/-! ## Standing elsewhere -/

/-- Whether no fault would be reported before the beginning of the document. -/
def IsAnchored (s : Scanner) : Prop :=
  s.mode.reach ≤ s.consumed

theorem isAnchored_between (n : Nat) (names : List String) :
    IsAnchored ⟨n, names, .between⟩ :=
  Nat.zero_le n

theorem IsAnchored.step {s : Scanner} (h : s.IsAnchored) (c : Char) : (s.step c).1.IsAnchored := by
  obtain ⟨n, names, mode⟩ := s
  rcases stride names mode c with
    ⟨next, -, hreach, hstep⟩ | ⟨raw, -, hstep⟩ | ⟨e, -, -, hstep⟩
  · rw [hstep]
    exact Nat.le_trans hreach (Nat.add_le_add_right h c.utf8Size)
  · rw [hstep]
    exact Nat.zero_le _
  · rw [hstep, Ending.at, Completion.scanned]
    cases e.piece with
    | _ => exact Nat.zero_le _

theorem IsAnchored.read {s : Scanner} (h : s.IsAnchored) (cs : List Char) :
    (s.read cs).1.IsAnchored := by
  induction cs generalizing s with
  | nil => exact h
  | cons c cs ih => exact ih (h.step c)

end Scanner

/-- The token, `d` bytes later in the document. -/
def Token.shift (d : Nat) (t : Token) : Token :=
  { t with position := t.position + d }

/-- The scanner, `d` bytes later in the document. -/
def Scanner.shift (d : Nat) (s : Scanner) : Scanner :=
  { s with consumed := s.consumed + d }

/-- A construct that is reported back to a byte in the document is reported just as far back
elsewhere. -/
theorem Ending.scanned_shift {e : Ending} {stop : Nat} (h : e.back ≤ stop) (d : Nat) :
    (e.at (stop + d)).scanned (stop + d)
      = (((e.at stop).scanned stop).1.shift d,
        ((e.at stop).scanned stop).2.map (Token.shift d)) := by
  have hback : stop + d - e.back = stop - e.back + d := Nat.sub_add_comm h
  simp only [Ending.at, Completion.scanned, hback]
  rfl

namespace Scanner

theorem step_shift {s : Scanner} (h : s.IsAnchored) (d : Nat) (c : Char) :
    (s.shift d).step c = ((s.step c).1.shift d, (s.step c).2.map (Token.shift d)) := by
  obtain ⟨n, names, mode⟩ := s
  have hadd : n + d + c.utf8Size = n + c.utf8Size + d := Nat.add_right_comm n d c.utf8Size
  rcases stride names mode c with
    ⟨next, -, -, hstep⟩ | ⟨raw, -, hstep⟩ | ⟨e, hfits, -, hstep⟩
  · rw [shift, hstep, hstep, hadd]
    rfl
  · rw [shift, hstep, hstep, hadd]
    rfl
  · have hback : e.back ≤ n + c.utf8Size :=
      Nat.le_trans hfits.back_le (Nat.add_le_add_right h c.utf8Size)
    rw [shift, hstep, hstep, hadd, Ending.scanned_shift hback]

theorem finish_shift {s : Scanner} (h : s.IsAnchored) (d : Nat) :
    (s.shift d).finish = s.finish.map (Token.shift d) := by
  obtain ⟨n, names, mode⟩ := s
  have hcut : ∀ construct width, width ≤ n →
      (some ⟨.fault (.unexpectedEnd construct), n + d - width⟩ : Option Token)
        = (some ⟨.fault (.unexpectedEnd construct), n - width⟩ : Option Token).map
          (Token.shift d) :=
    fun construct width hle ↦ by rw [Nat.sub_add_comm hle]; rfl
  cases mode with
  | between | markup | stopped => rfl
  | text read =>
    have hback : n + d - 1 = n - 1 + d := Nat.sub_add_comm h
    simp only [shift, finish, hback]
    rfl
  | bang => exact hcut .bang 1 h
  | comment read => exact hcut .comment _ h
  | verbatim read => exact hcut .verbatim _ h
  | doctype read depth => exact hcut .doctype _ h
  | endTag read =>
    obtain ⟨e, hfits, he⟩ := completeEnd_eq_at names read
    simp only [shift, finish, he]
    rw [Ending.scanned_shift (Nat.le_trans hfits.back_le h)]
  | instruction read =>
    obtain ⟨e, hfits, he⟩ := completeInstruction_eq_at names read
    simp only [shift, finish, he]
    rw [Ending.scanned_shift (Nat.le_trans hfits.back_le h)]
  | tag read quote => exact hcut .element _ h

/-- What a scanner finds later in the document is what it finds here, later by as much. -/
theorem scan_shift {s : Scanner} (h : s.IsAnchored) (d : Nat) (cs : List Char) :
    (s.shift d).scan cs = (s.scan cs).map (Token.shift d) := by
  induction cs generalizing s with
  | nil =>
    rw [scan, scan, finish_shift h]
    cases s.finish <;> rfl
  | cons c cs ih =>
    have hrest := ih (h.step c)
    rw [scan, scan, step_shift h]
    cases hstep : s.step c with
    | mk next token =>
      rw [hstep] at hrest
      cases token with
      | none => exact hrest
      | some token => exact congrArg (token.shift d :: ·) hrest

end Scanner

end MessageCatalog.Markup
