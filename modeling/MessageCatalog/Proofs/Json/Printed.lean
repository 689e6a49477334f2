import Mathlib.Data.List.Basic
import Mathlib.Data.List.DropRight
import Mathlib.Tactic.SplitIfs
import MessageCatalog.Json.Document
import MessageCatalog.Json.Printer

/-!
# Reading printed values

A printed value is scanned into the document that says the same (`Value.document`), whatever stands
after it. Numbers are left out: where a number ends depends on what follows, and a number may be too
large to be read.

## White space

The printer breaks the line before every item and member, while the scanner drops white space at the
beginning of a value. What it makes of a text is therefore a matter of the text without its leading
white space (`scanValue_congr`), and items can be taken together with the line break before each
(`printAllItems`).

## Fuel

Each item costs the scanner one unit and is at least one character long, so that as many units as
there are characters are enough. The statements bound the length of the printed text by the fuel
and leave the text after it out of account.
-/

namespace MessageCatalog.Json

open Text

/-! ## What a printed value says -/

mutual

/-- What the text says that a value is printed as. -/
def Value.document : Value → Document
  | .null => .scalar (.ok .null) none
  | .bool b => .scalar (.ok (.bool b)) none
  | .count _ => .scalar (.ok .number) none
  | .text s => .text (.ok s) none
  | .array items => .array (documents items) none
  | .object members => .object (memberDocuments members) none

def documents : List Value → List Document
  | [] => []
  | v :: rest => v.document :: documents rest

def memberDocuments : List (String × Value) → List (Document × Document)
  | [] => []
  | (k, v) :: rest => (.text (.ok k) none, v.document) :: memberDocuments rest

end

@[simp] theorem documents_eq_map (items : List Value) :
    documents items = items.map Value.document := by
  induction items with
  | nil => rfl
  | cons v rest ih => rw [documents, ih, List.map_cons]

mutual

/-- Whether there is no number in a value. -/
def Value.isNumberless : Value → Bool
  | .null | .bool _ | .text _ => true
  | .count _ => false
  | .array items => areNumberless items
  | .object members => haveNoNumbers members

def areNumberless : List Value → Bool
  | [] => true
  | v :: rest => v.isNumberless && areNumberless rest

def haveNoNumbers : List (String × Value) → Bool
  | [] => true
  | (_, v) :: rest => v.isNumberless && haveNoNumbers rest

end

/-! ## White space -/

@[simp] theorem length_newLine_pos (level : Nat) : 0 < (newLine level).length :=
  Nat.succ_pos _

@[simp] theorem dropSpace_newLine (level : Nat) (cs : List Char) :
    dropSpace (newLine level ++ cs) = dropSpace cs := by
  have hspace : ∀ c ∈ newLine level, isSpace c = true := by
    intro c hc
    rcases List.mem_cons.mp hc with rfl | hc
    · rfl
    · rw [List.eq_of_mem_replicate hc]
      rfl
  exact List.dropWhile_append_of_pos hspace

theorem dropSpace_cons {c : Char} (h : isSpace c = false) (cs : List Char) :
    dropSpace (c :: cs) = c :: cs :=
  List.dropWhile_cons_of_neg (Bool.eq_false_iff.mp h)

theorem dropSpace_dropSpace (cs : List Char) : dropSpace (dropSpace cs) = dropSpace cs :=
  List.dropWhile_idempotent _ _

section

variable {a b : List Char} (h : dropSpace a = dropSpace b) (fuel : Nat)
include h

theorem scanValue_congr : scanValue fuel a = scanValue fuel b := by
  cases fuel with
  | zero => rfl
  | succ fuel => rw [scanValue, scanValue, h]

theorem scanItems_congr : scanItems fuel a = scanItems fuel b := by
  cases fuel with
  | zero => rfl
  | succ fuel => rw [scanItems, scanItems, scanValue_congr h]

theorem scanMembers_congr : scanMembers fuel a = scanMembers fuel b := by
  cases fuel with
  | zero => rfl
  | succ fuel => rw [scanMembers, scanMembers, scanValue_congr h]

end

/-! ## Strings -/

private theorem scanText_letter (c : Char) {d : Char} (hc : c ≠ 'u') (hd : unescape? c = some d)
    (said rest : List Char) :
    scanText none (.ok said) ('\\' :: c :: rest) = scanText none (.ok (d :: said)) rest := by
  rw [scanText]
  · rw [hd]
    rfl
  · intro _ _ _ _ _ h _
    exact hc h
  · intro h
    exact hc h

/-- Control characters have two hexadecimal digits, which are no surrogate. -/
private theorem scanText_code {n : Nat} (hn : n < 0x20) (said rest : List Char) :
    scanText none (.ok said)
        ('\\' :: 'u' :: '0' :: '0' :: Nat.digitChar (n / 16) :: Nat.digitChar (n % 16) :: rest)
      = scanText none (.ok (Char.ofNat n :: said)) rest := by
  have hdigits : ∀ n < 0x20,
      fourDigits? '0' '0' (Nat.digitChar (n / 16)) (Nat.digitChar (n % 16)) = some n := by decide
  have hhigh : isHighSurrogate n = false := by
    simp only [isHighSurrogate, Bool.and_eq_false_iff, decide_eq_false_iff_not]
    omega
  have hlow : isLowSurrogate n = false := by
    simp only [isLowSurrogate, Bool.and_eq_false_iff, decide_eq_false_iff_not]
    omega
  rw [scanText, hdigits n hn]
  simp only [hhigh, hlow, Bool.false_eq_true, if_false]
  rfl

private theorem scanText_plain {c : Char} (hquote : c ≠ '"') (hslash : c ≠ '\\')
    (hc : ¬c.toNat < 0x20) (said rest : List Char) :
    scanText none (.ok said) (c :: rest) = scanText none (.ok (c :: said)) rest := by
  rw [scanText]
  · rw [if_neg hc]
    rfl
  · exact fun h ↦ hquote h
  · intro _ _ _ _ _ h _
    exact hslash h
  · intro _ h _
    exact hslash h
  · intro _ _ h _
    exact hslash h
  · intro h _
    exact hslash h

theorem scanText_printChar (c : Char) (said rest : List Char) :
    scanText none (.ok said) (printChar c ++ rest) = scanText none (.ok (c :: said)) rest := by
  unfold printChar
  split_ifs with hquote hslash hb hf hn hr ht hcode
  · exact hquote ▸ scanText_letter '"' (by decide) rfl said rest
  · exact hslash ▸ scanText_letter '\\' (by decide) rfl said rest
  · exact hb ▸ scanText_letter 'b' (by decide) rfl said rest
  · exact hf ▸ scanText_letter 'f' (by decide) rfl said rest
  · exact hn ▸ scanText_letter 'n' (by decide) rfl said rest
  · exact hr ▸ scanText_letter 'r' (by decide) rfl said rest
  · exact ht ▸ scanText_letter 't' (by decide) rfl said rest
  · have hscan := scanText_code hcode said rest
    rw [Char.ofNat_toNat] at hscan
    exact hscan
  · exact scanText_plain hquote hslash hcode said rest

/-- A string is read up to its closing quote, every character as it was before it was printed. -/
theorem scanText_flatMap_printChar (s : String) (rest : List Char) :
    scanText none (.ok []) (s.toList.flatMap printChar ++ '"' :: rest)
      = ⟨.ok s, none, some rest⟩ := by
  have hchars : ∀ (cs said : List Char),
      scanText none (.ok said) (cs.flatMap printChar ++ '"' :: rest)
        = ⟨.ok (String.ofList (said.reverse ++ cs)), none, some rest⟩ := by
    intro cs
    induction cs with
    | nil =>
      intro said
      rw [List.flatMap_nil, List.nil_append, List.append_nil, scanText]
      rfl
    | cons c cs ih =>
      intro said
      rw [List.flatMap_cons, List.append_assoc, scanText_printChar, ih, List.reverse_cons,
        ← List.append_cons]
  rw [hchars, List.reverse_nil, List.nil_append, String.ofList_toList]

theorem scanValue_printText (fuel : Nat) (s : String) (rest : List Char) :
    scanValue (fuel + 1) (printText s ++ rest) = (.text (.ok s) none, some rest) := by
  have hshape : printText s ++ rest = '"' :: (s.toList.flatMap printChar ++ '"' :: rest) := by
    rw [printText, List.cons_append, List.cons_append, List.append_assoc, List.singleton_append]
  rw [hshape, scanValue, dropSpace_cons rfl]
  simp only [scanText_flatMap_printChar]
  rfl

/-! ## Steps of the scanner -/

section

variable {fuel : Nat} {cs rest next last after : List Char}

theorem scanValue_array {c : Char} (h : dropSpace rest = c :: next) (hc : c ≠ ']') :
    scanValue (fuel + 1) ('[' :: rest)
      = (.array (scanItems fuel rest).1 (scanItems fuel rest).2.1, (scanItems fuel rest).2.2) := by
  have hsame : scanItems fuel (c :: next) = scanItems fuel rest :=
    scanItems_congr (by rw [← h, dropSpace_dropSpace]) fuel
  rw [scanValue, dropSpace_cons rfl]
  simp only [h]
  split
  · next heq => exact absurd (List.cons.inj heq).1 hc
  · next heq => cases heq
  · rw [hsame]

theorem scanValue_object {c : Char} (h : dropSpace rest = c :: next) (hc : c ≠ '\x7d') :
    scanValue (fuel + 1) ('\x7b' :: rest)
      = (.object (scanMembers fuel rest).1 (scanMembers fuel rest).2.1,
          (scanMembers fuel rest).2.2) := by
  have hsame : scanMembers fuel (c :: next) = scanMembers fuel rest :=
    scanMembers_congr (by rw [← h, dropSpace_dropSpace]) fuel
  rw [scanValue, dropSpace_cons rfl]
  simp only [h]
  split
  · next heq => exact absurd (List.cons.inj heq).1 hc
  · next heq => cases heq
  · rw [hsame]

theorem scanItems_last {item : Document} (h : scanValue fuel cs = (item, some rest))
    (hclose : dropSpace rest = ']' :: after) :
    scanItems (fuel + 1) cs = ([item], none, some after) := by
  rw [scanItems, h]
  simp only [hclose]

theorem scanItems_more {item : Document}
    {others : List Document × Option Fault × Option (List Char)}
    (h : scanValue fuel cs = (item, some rest)) (hcomma : dropSpace rest = ',' :: next)
    (hnext : scanItems fuel next = others) :
    scanItems (fuel + 1) cs = (item :: others.1, others.2) := by
  rw [scanItems, h]
  simp only [hcomma, hnext]

theorem scanMembers_last {key value : Document} (hkey : scanValue fuel cs = (key, some rest))
    (hcolon : dropSpace rest = ':' :: next) (hvalue : scanValue fuel next = (value, some last))
    (hclose : dropSpace last = '\x7d' :: after) :
    scanMembers (fuel + 1) cs = ([(key, value)], none, some after) := by
  rw [scanMembers, hkey]
  simp only [hcolon, hvalue, hclose]

theorem scanMembers_more {key value : Document}
    {others : List (Document × Document) × Option Fault × Option (List Char)}
    (hkey : scanValue fuel cs = (key, some rest)) (hcolon : dropSpace rest = ':' :: next)
    (hvalue : scanValue fuel next = (value, some last)) (hcomma : dropSpace last = ',' :: after)
    (hafter : scanMembers fuel after = others) :
    scanMembers (fuel + 1) cs = ((key, value) :: others.1, others.2) := by
  rw [scanMembers, hkey]
  simp only [hcolon, hvalue, hcomma, hafter]

end

/-! ## Values -/

/-- What a printed value begins with is neither white space nor the end of an array. -/
theorem exists_print_eq_cons {v : Value} (h : v.isNumberless = true) (level : Nat) :
    ∃ c cs, v.print level = c :: cs ∧ isSpace c = false ∧ c ≠ ']' := by
  have hhead : ∃ c cs, v.print level = c :: cs ∧ c ∈ ['n', 't', 'f', '"', '[', '\x7b'] := by
    cases v with
    | null => exact ⟨'n', _, rfl, by decide⟩
    | bool b =>
      cases b with
      | true => exact ⟨'t', _, rfl, by decide⟩
      | false => exact ⟨'f', _, rfl, by decide⟩
    | count n => exact Bool.noConfusion h
    | text s => exact ⟨'"', _, rfl, by decide⟩
    | array items =>
      cases items with
      | nil => exact ⟨'[', _, rfl, by decide⟩
      | cons v rest => exact ⟨'[', _, rfl, by decide⟩
    | object members =>
      cases members with
      | nil => exact ⟨'\x7b', _, rfl, by decide⟩
      | cons m rest => exact ⟨'\x7b', _, rfl, by decide⟩
  obtain ⟨c, cs, hprint, hc⟩ := hhead
  have hall : ['n', 't', 'f', '"', '[', '\x7b'].all (fun c ↦ !isSpace c && c ≠ ']') = true := by
    decide
  have hplain := List.all_eq_true.mp hall c hc
  rw [Bool.and_eq_true, Bool.not_eq_true', decide_eq_true_eq] at hplain
  exact ⟨c, cs, hprint, hplain⟩

/-- The items of an array, with the line break before each. -/
def printAllItems (level : Nat) : List Value → List Char
  | [] => []
  | v :: rest => newLine level ++ v.print level ++ printItems level rest

/-- The members of an object, with the line break before each. -/
def printAllMembers (level : Nat) : List (String × Value) → List Char
  | [] => []
  | (k, v) :: rest =>
    newLine level ++ printText k ++ ": ".toList ++ v.print level ++ printMembers level rest

@[simp] theorem printItems_cons (level : Nat) (v : Value) (rest : List Value) :
    printItems level (v :: rest) = ',' :: printAllItems level (v :: rest) := by
  rw [printItems, printAllItems, List.cons_append, List.cons_append]

@[simp] theorem printMembers_cons (level : Nat) (m : String × Value)
    (rest : List (String × Value)) :
    printMembers level (m :: rest) = ',' :: printAllMembers level (m :: rest) := by
  obtain ⟨k, v⟩ := m
  rw [printMembers, printAllMembers]
  simp only [List.cons_append]

@[simp] theorem print_array_cons (level : Nat) (v : Value) (rest : List Value) :
    (Value.array (v :: rest)).print level
      = '[' :: (printAllItems (level + 1) (v :: rest) ++ (newLine level ++ [']'])) := by
  rw [Value.print, printAllItems]
  simp only [List.cons_append, List.append_assoc]

@[simp] theorem print_object_cons (level : Nat) (m : String × Value)
    (rest : List (String × Value)) :
    (Value.object (m :: rest)).print level
      = '\x7b' :: (printAllMembers (level + 1) (m :: rest) ++ (newLine level ++ ['\x7d'])) := by
  obtain ⟨k, v⟩ := m
  rw [Value.print, printAllMembers]
  simp only [List.cons_append, List.append_assoc]

mutual

theorem scanValue_print : ∀ (v : Value), v.isNumberless = true → ∀ level fuel rest,
    (v.print level).length ≤ fuel →
      scanValue fuel (v.print level ++ rest) = (v.document, some rest)
  | v, h, level, 0, rest, hfuel => by
    obtain ⟨c, cs, hprint, -⟩ := exists_print_eq_cons h level
    rw [hprint] at hfuel
    exact absurd hfuel (Nat.not_succ_le_zero _)
  | .null, _, _, _ + 1, _, _ => rfl
  | .bool true, _, _, _ + 1, _, _ => rfl
  | .bool false, _, _, _ + 1, _, _ => rfl
  | .count _, h, _, _, _, _ => Bool.noConfusion h
  | .text s, _, _, fuel + 1, rest, _ => scanValue_printText fuel s rest
  | .array [], _, _, _ + 1, _, _ => rfl
  | .array (v :: items), h, level, fuel + 1, rest, hfuel => by
    rw [Value.isNumberless] at h
    rw [print_array_cons] at hfuel ⊢
    rw [List.cons_append, List.append_assoc, List.append_assoc]
    -- the first item does not end the array
    have hv : v.isNumberless = true := by
      rw [areNumberless, Bool.and_eq_true] at h
      exact h.1
    obtain ⟨c, cs, hprint, hspace, hbracket⟩ := exists_print_eq_cons hv (level + 1)
    have hfirst : ∀ after, dropSpace (printAllItems (level + 1) (v :: items) ++ after)
        = c :: (cs ++ (printItems (level + 1) items ++ after)) := by
      intro after
      rw [printAllItems, List.append_assoc, List.append_assoc, dropSpace_newLine, hprint,
        List.cons_append, dropSpace_cons hspace]
    have hclose : dropSpace (newLine level ++ ([']'] ++ rest)) = ']' :: rest := by
      rw [dropSpace_newLine]
      exact dropSpace_cons rfl rest
    have hitems := scanItems_printAllItems (v :: items) h (level + 1) fuel _ rest
      (List.cons_ne_nil v items)
      (by simp only [List.length_cons, List.length_append] at hfuel; omega) hclose
    rw [scanValue_array (hfirst _) hbracket, hitems, Value.document]
  | .object [], _, _, _ + 1, _, _ => rfl
  | .object ((k, v) :: members), h, level, fuel + 1, rest, hfuel => by
    rw [Value.isNumberless] at h
    rw [print_object_cons] at hfuel ⊢
    rw [List.cons_append, List.append_assoc, List.append_assoc]
    have hfirst : ∀ after, ∃ cs,
        dropSpace (printAllMembers (level + 1) ((k, v) :: members) ++ after) = '"' :: cs := by
      intro after
      rw [printAllMembers]
      simp only [List.append_assoc]
      rw [dropSpace_newLine]
      exact ⟨_, rfl⟩
    obtain ⟨cs, hcs⟩ := hfirst (newLine level ++ (['\x7d'] ++ rest))
    have hclose : dropSpace (newLine level ++ (['\x7d'] ++ rest)) = '\x7d' :: rest := by
      rw [dropSpace_newLine]
      exact dropSpace_cons rfl rest
    have hmembers := scanMembers_printAllMembers ((k, v) :: members) h (level + 1) fuel _ rest
      (List.cons_ne_nil _ members)
      (by simp only [List.length_cons, List.length_append] at hfuel; omega) hclose
    rw [scanValue_object hcs (by decide), hmembers, Value.document]

theorem scanItems_printAllItems : ∀ (items : List Value), areNumberless items = true →
    ∀ level fuel close after, items ≠ [] → (printAllItems level items).length < fuel →
      dropSpace close = ']' :: after →
      scanItems fuel (printAllItems level items ++ close) = (documents items, none, some after)
  | [], _, _, _, _, _, hne, _, _ => absurd rfl hne
  | _ :: _, _, _, 0, _, _, _, hfuel, _ => absurd hfuel (Nat.not_lt_zero _)
  | v :: items, h, level, fuel + 1, close, after, _, hfuel, hclose => by
    rw [areNumberless, Bool.and_eq_true] at h
    simp only [printAllItems, List.length_append] at hfuel
    have hv : scanValue fuel (printAllItems level (v :: items) ++ close)
        = (v.document, some (printItems level items ++ close)) := by
      have hshape : dropSpace (printAllItems level (v :: items) ++ close)
          = dropSpace (v.print level ++ (printItems level items ++ close)) := by
        rw [printAllItems, List.append_assoc, List.append_assoc, dropSpace_newLine]
      rw [scanValue_congr hshape]
      exact scanValue_print v h.1 level fuel _ (by omega)
    rw [documents]
    cases items with
    | nil => exact scanItems_last hv hclose
    | cons w rest =>
      rw [printItems_cons, List.length_cons] at hfuel
      rw [printItems_cons] at hv
      have hrest := scanItems_printAllItems (w :: rest) h.2 level fuel close after
        (List.cons_ne_nil w rest) (by omega) hclose
      exact scanItems_more hv (dropSpace_cons rfl _) hrest

theorem scanMembers_printAllMembers : ∀ (members : List (String × Value)),
    haveNoNumbers members = true → ∀ level fuel close after, members ≠ [] →
      (printAllMembers level members).length < fuel → dropSpace close = '\x7d' :: after →
      scanMembers fuel (printAllMembers level members ++ close)
        = (memberDocuments members, none, some after)
  | [], _, _, _, _, _, hne, _, _ => absurd rfl hne
  | _ :: _, _, _, 0, _, _, _, hfuel, _ => absurd hfuel (Nat.not_lt_zero _)
  | (k, v) :: members, h, level, fuel + 1, close, after, _, hfuel, hclose => by
    rw [haveNoNumbers, Bool.and_eq_true] at h
    simp only [printAllMembers, List.length_append] at hfuel
    have hkey : scanValue fuel (printAllMembers level ((k, v) :: members) ++ close)
        = (.text (.ok k) none,
          some (':' :: ' ' :: (v.print level ++ (printMembers level members ++ close)))) := by
      have hshape : dropSpace (printAllMembers level ((k, v) :: members) ++ close)
          = dropSpace (printText k
            ++ ':' :: ' ' :: (v.print level ++ (printMembers level members ++ close))) := by
        rw [printAllMembers]
        simp only [List.append_assoc]
        rw [dropSpace_newLine]
        rfl
      have hpos := length_newLine_pos level
      obtain ⟨f, rfl⟩ : ∃ f, fuel = f + 1 := Nat.exists_eq_succ_of_ne_zero (by omega)
      rw [scanValue_congr hshape, scanValue_printText]
    have hcolon : ∀ cs, dropSpace (':' :: cs) = ':' :: cs := dropSpace_cons rfl
    have hv : scanValue fuel (' ' :: (v.print level ++ (printMembers level members ++ close)))
        = (v.document, some (printMembers level members ++ close)) := by
      rw [scanValue_congr (List.dropWhile_cons_of_pos rfl)]
      exact scanValue_print v h.1 level fuel _ (by omega)
    rw [memberDocuments]
    cases members with
    | nil => exact scanMembers_last hkey (hcolon _) hv hclose
    | cons m rest =>
      rw [printMembers_cons, List.length_cons] at hfuel
      rw [printMembers_cons] at hkey hv
      have hrest := scanMembers_printAllMembers (m :: rest) h.2 level fuel close after
        (List.cons_ne_nil m rest) (by omega) hclose
      exact scanMembers_more hkey (hcolon _) hv (dropSpace_cons rfl _) hrest

end

/-- A printed value says what it should, and nothing follows it. -/
theorem ofText_pretty {v : Value} (h : v.isNumberless = true) :
    Document.ofText v.pretty = (v.document, false) := by
  have hscan := scanValue_print v h 0 (2 * (v.print 0).length + 2) [] (by omega)
  rw [List.append_nil] at hscan
  rw [Document.ofText, Value.pretty, String.toList_ofList, hscan]
  rfl

end MessageCatalog.Json
