import Mathlib.Data.List.Basic
import MessageCatalog.Proofs.Catalog.NormalShape
import MessageCatalog.Proofs.Catalog.StoredForm

/-!
# Writing and reading back

A catalog that is written and read back becomes the normal catalog in its place, unless it holds a
text with U+0000; then its document is not well-formed.

A catalog that has been read is normal, so that it comes back as it is. But a document can give it
U+0000, as a `byte` element or as that character itself, and such a catalog is lost when it is
written.
-/

namespace MessageCatalog

open Markup

/-! ## The document -/

def prolog : List Char :=
  "<?xml version=\"1.0\" encoding=\"utf-8\"?>\n<!DOCTYPE TS>\n".toList

theorem read_prolog : ∃ x, Cursor.start.read prolog = .ok x ∧ Stands [] .outside x :=
  ⟨⟨.resting 53 [] ['\n'], .go .outside⟩, rfl,
    53, ['\n'], ['\n'], .outside, rfl, denotes_self (forall_mem_of_all (by decide)), rfl⟩

theorem foldl_addContext (contexts : List Context) : ∀ c : Catalog,
    contexts.foldl (fun c k ↦ c.addContext k.normal) c
      = { c with contexts := c.contexts ++ contexts.map Context.normal } := by
  induction contexts with
  | nil => exact fun c ↦ by rw [List.map_nil, List.append_nil]; rfl
  | cons k contexts ih =>
    intro c
    rw [List.foldl_cons, ih]
    simp only [Catalog.addContext, List.append_assoc, List.singleton_append, List.map_cons]

/-- The attributes of the root element of a catalog, as far as they have values. -/
def Catalog.values (c : Catalog) : List (String × Option String) :=
  [("version", c.version), ("language", c.language), ("sourcelanguage", c.sourceLanguage)]

theorem render_eq (c : Catalog) :
    c.render = prolog ++ elementWritten storing "TS" (optionalAttributes c.values)
      (['\n'] ++ c.contexts.flatMap Context.render) ++ ['\n'] := by
  have hbegin : "<?xml version=\"1.0\" encoding=\"utf-8\"?>\n<!DOCTYPE TS>\n<TS".toList
      = prolog ++ '<' :: "TS".toList := rfl
  have hmid : ">\n".toList = ['>'] ++ ['\n'] := rfl
  have hend : "</TS>\n".toList = "</".toList ++ "TS".toList ++ ['>'] ++ ['\n'] := rfl
  unfold Catalog.render elementWritten Catalog.values
  simp only [hbegin, hmid, hend, tagContent_optionalAttributes, List.flatMap_cons,
    List.flatMap_nil, List.append_nil, List.append_assoc, List.cons_append, List.nil_append]

theorem follows_root_start (c : Catalog) :
    Follows .outside (.opening (.written storing "TS" (optionalAttributes c.values)))
      (stored ((c.values.flatMap (·.2.toList)).all isStorable)
        (.root { c with contexts := [] })) := by
  have hkeys : areKeys (c.values.map (·.1)) = true :=
    (by decide : areKeys ["version", "language", "sourcelanguage"] = true)
  have hroot : (readRoot (optionalAttributes c.values)).1 = { c with contexts := [] } := by
    obtain ⟨version, language, sourceLanguage, contexts⟩ := c
    cases version <;> cases language <;> cases sourceLanguage <;> rfl
  exact hroot ▸ Follows.of_attributes hkeys fun position ↦ read_rootStart position rfl

@[simp] theorem areAttributes_values (c : Catalog) :
    areAttributes (optionalAttributes c.values) = true :=
  areAttributes_optionalAttributes
    (by decide : areKeys ["version", "language", "sourcelanguage"] = true)

/-- What the root element of a catalog holds leads to the normal catalog. -/
theorem leads_contexts (c : Catalog) :
    Leads (.root { c with contexts := [] }) (['\n'] ++ c.contexts.flatMap Context.render)
      (stored (c.contexts.all fun k ↦ k.texts.all isStorable) (.root c.normal)) := by
  have h := (Leads.newline (.root { c with contexts := [] })).append_stored
    (Leads.flatMap_stored .root leads_context c.contexts { c with contexts := [] })
  rw [foldl_addContext, Bool.true_and] at h
  exact h

theorem isStorable_eq (c : Catalog) :
    c.isStorable = ((c.values.flatMap (·.2.toList)).all isStorable
      && c.contexts.all fun k ↦ k.texts.all isStorable) := by
  simp only [Catalog.isStorable, Catalog.texts, Catalog.values, List.all_append, List.all_flatMap,
    List.all_cons, List.all_nil, Bool.and_true, Bool.and_assoc]

/-- Reading a written catalog leads to the normal one, or to a fault of the markup. -/
theorem comes_parse_write (c : Catalog) :
    Comes (· = ·) (Catalog.parse c.write) (stored c.isStorable c.normal) := by
  obtain ⟨x, hprolog, hx⟩ := read_prolog
  have hroot : Comes IsPast
      (x.read (elementWritten storing "TS" (optionalAttributes c.values)
        (['\n'] ++ c.contexts.flatMap Context.render)))
      (do
        let _ ← stored ((c.values.flatMap (·.2.toList)).all isStorable)
          (Place.root { c with contexts := [] })
        stored (c.contexts.all fun k ↦ k.texts.all isStorable) c.normal) :=
    hx.read_root (areAttributes_values c) (follows_root_start c) fun inner hinner ↦ by
      rw [eq_of_stored hinner, stored_map]
      exact leads_contexts c
  rw [stored_bind, ← isStorable_eq] at hroot
  rw [Catalog.write, render_eq]
  -- the last line break stands behind the root element
  refine parse_of_comes rfl ?_
  rw [Cursor.read_append, hprolog]
  exact hroot

/-! ## Round trips -/

theorem isNormal_iff (m : Message) :
    m.isNormal = true ↔ ¬(m.numerus = true ∧ ∃ text, m.translation.wording = .single text)
      ∧ ¬(m.numerus = false ∧ m.translation.wording = .plural []) := by
  rw [Message.isNormal]
  cases m.translation.wording with
  | single text => cases m.numerus <;> simp
  | plural forms => cases m.numerus <;> simp

theorem parse_write_error {c : Catalog} (h : ∃ text ∈ c.texts, '\x00' ∈ text.toList) :
    ∃ position fault, Catalog.parse c.write = .error (.markup position fault) := by
  have hstorable : c.isStorable = false := by
    simpa only [Catalog.isStorable, List.all_eq_false, isStorable, decide_eq_true_eq, not_not]
      using h
  have hcomes := comes_parse_write c
  rw [hstorable] at hcomes
  generalize Catalog.parse c.write = result at hcomes ⊢
  cases hcomes with
  | error hflaw =>
    obtain ⟨position, fault, rfl⟩ := hflaw
    exact ⟨position, fault, rfl⟩

theorem parse_write_of_storable {c : Catalog} (h : ¬∃ text ∈ c.texts, '\x00' ∈ text.toList) :
    Catalog.parse c.write = .ok c.normal := by
  have hstorable : c.isStorable = true := by
    simp only [Catalog.isStorable, List.all_eq_true, isStorable, decide_eq_true_eq]
    exact fun text htext hmem ↦ h ⟨text, htext, hmem⟩
  have hcomes := comes_parse_write c
  rw [hstorable] at hcomes
  generalize Catalog.parse c.write = result at hcomes ⊢
  cases hcomes with
  | ok hsame => rw [hsame]

/-- Writing a catalog and reading it back fails on the markup if a text has U+0000, and otherwise
gives the normal catalog. It gives the same catalog exactly if no text has U+0000 and no message has
one of the two shapes that a document cannot hold. -/
theorem parse_write (c : Catalog) :
    (if ∃ text ∈ c.texts, '\x00' ∈ text.toList then
        ∃ position fault, Catalog.parse c.write = .error (.markup position fault)
      else Catalog.parse c.write = .ok c.normal)
    ∧ (Catalog.parse c.write = .ok c
        ↔ (∀ text ∈ c.texts, '\x00' ∉ text.toList) ∧ ∀ m ∈ c.messages,
          ¬(m.2.numerus = true ∧ ∃ text, m.2.translation.wording = .single text)
            ∧ ¬(m.2.numerus = false ∧ m.2.translation.wording = .plural [])) := by
  have hshapes : (∀ m ∈ c.messages,
      ¬(m.2.numerus = true ∧ ∃ text, m.2.translation.wording = .single text)
        ∧ ¬(m.2.numerus = false ∧ m.2.translation.wording = .plural [])) ↔ c.normal = c := by
    simp only [Catalog.normal_eq_self_iff, isNormal_iff]
  rw [hshapes]
  by_cases hnull : ∃ text ∈ c.texts, '\x00' ∈ text.toList
  · obtain ⟨position, fault, hparse⟩ := parse_write_error hnull
    rw [if_pos hnull, hparse]
    refine ⟨⟨position, fault, rfl⟩, fun h ↦ (by cases h), fun h ↦ ?_⟩
    obtain ⟨text, htext, hmem⟩ := hnull
    exact absurd hmem (h.1 text htext)
  · have hparse := parse_write_of_storable hnull
    rw [if_neg hnull, hparse]
    refine ⟨rfl, fun h ↦ ⟨fun text htext hmem ↦ hnull ⟨text, htext, hmem⟩, Except.ok.inj h⟩,
      fun h ↦ congrArg Except.ok h.2⟩

/-- A catalog that has been read comes back as it is after it is written, exactly if it has no text
with U+0000; otherwise what is written is not well-formed. -/
theorem parse_write_of_parse {document : String} {c : Catalog}
    (h : Catalog.parse document = .ok c) :
    if ∃ text ∈ c.texts, '\x00' ∈ text.toList then
      ∃ position fault, Catalog.parse c.write = .error (.markup position fault)
    else Catalog.parse c.write = .ok c := by
  by_cases hnull : ∃ text ∈ c.texts, '\x00' ∈ text.toList
  · rw [if_pos hnull]
    exact parse_write_error hnull
  · rw [if_neg hnull, parse_write_of_storable hnull, normal_of_parse h]

/-- A document with a section, references and a control character. -/
def richDocument : String :=
  "<TS><context><name><![CDATA[<]]>&amp;&#xe9;<byte value=\"x1b\"/></name></context></TS>"

theorem parse_write_of_parse_richDocument :
    Catalog.parse richDocument = .ok { contexts := [{ name := "<&é\x1b" }] }
      ∧ Catalog.parse (Catalog.write { contexts := [{ name := "<&é\x1b" }] })
        = .ok { contexts := [{ name := "<&é\x1b" }] } := by
  have hparse : Catalog.parse richDocument = .ok { contexts := [{ name := "<&é\x1b" }] } := rfl
  have hback := parse_write_of_parse hparse
  rw [if_neg (by decide)] at hback
  exact ⟨hparse, hback⟩

/-- Not every catalog that has been read can be written and read again. -/
theorem not_parse_write_of_parse :
    ¬∀ document c, Catalog.parse document = .ok c → Catalog.parse c.write = .ok c := by
  intro h
  have hparse : Catalog.parse "<TS><context><name>a<byte value=\"x0\"/></name></context></TS>"
      = .ok { contexts := [{ name := "a\x00" }] } := rfl
  obtain ⟨position, fault, herror⟩ :=
    parse_write_error (c := { contexts := [{ name := "a\x00" }] }) (by decide)
  have hboth := herror.symm.trans (h _ _ hparse)
  cases hboth

end MessageCatalog
