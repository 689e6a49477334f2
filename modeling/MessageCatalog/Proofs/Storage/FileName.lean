import Mathlib.Data.List.Induction
import MessageCatalog.Proofs.Storage.Path

/-!
# The file name that belongs to a locale

What a path ends in is told by three rules: a name by itself, a name behind a slash, and what comes
behind a name and a slash without being a name, nothing or a single dot. There is a file name
exactly where these rules give one, so that a path that ends in two dots has none.

For a program, or for none, each locale has one file name, and a path has a locale exactly if it
ends in that name. Neither dots nor underscores in the program or in the locale make it ambiguous.
-/

namespace MessageCatalog.Storage

/-! ## The name at the end of a path -/

/-- The paths that end in a name. -/
inductive EndsIn (name : String) : (path : String) → Prop
  /-- A name by itself. -/
  | alone (h : IsName name) : EndsIn name name
  /-- A name in a directory. -/
  | inside (dir : String) (h : IsName name) : EndsIn name (dir ++ "/" ++ name)
  /-- An empty part and a single dot are passed over. -/
  | idle {path part : String} (hpart : part = "" ∨ part = ".") (h : EndsIn name path) :
    EndsIn name (path ++ "/" ++ part)

theorem fileName?_append_idle {part : String} (hpart : part = "" ∨ part = ".") (path : String) :
    fileName? (path ++ "/" ++ part) = fileName? path := by
  have hslash : '/' ∉ part.toList := by
    obtain rfl | rfl := hpart <;> decide
  have hidle : (decide (part = "") || decide (part = ".")) = true := by simpa using hpart
  rw [fileName?, parts_append_slash, parts_of_notMem hslash, List.reverse_concat,
    List.dropWhile_cons, if_pos hidle, fileName?]

theorem EndsIn.fileName?_eq {name path : String} (h : EndsIn name path) :
    fileName? path = some name := by
  induction h with
  | alone h => exact fileName?_of_isName [] (parts_of_notMem h.no_slash) h
  | inside dir h =>
    refine fileName?_of_isName (parts dir) ?_ h
    rw [parts_append_slash, parts_of_notMem h.no_slash]
  | idle hpart h ih => rw [fileName?_append_idle hpart, ih]

/-- The last part of a path names nothing, or it is the name that the path ends in. -/
theorem last_cases {name path part : String} (front : List String)
    (hparts : parts path = front ++ [part]) (h : fileName? path = some name) :
    (part = "" ∨ part = ".") ∨ part = name ∧ IsName name := by
  by_cases hidle : part = "" ∨ part = "."
  · exact .inl hidle
  · have hpart : ¬(decide (part = "") || decide (part = ".")) = true := by simpa using hidle
    have hslash : '/' ∉ part.toList := slash_notMem_of_mem_parts (hparts ▸ List.mem_concat_self)
    rw [fileName?, hparts, List.reverse_concat, List.dropWhile_cons, if_neg hpart] at h
    dsimp only at h
    split at h
    · cases h
    · next hup =>
      obtain rfl := Option.some.inj h
      obtain ⟨hempty, hdot⟩ := not_or.mp hidle
      exact .inr ⟨rfl, hempty, hdot, hup, hslash⟩

theorem endsIn_of_fileName? {name path : String} (h : fileName? path = some name) :
    EndsIn name path := by
  -- the path is followed from its end, part by part
  generalize hall : parts path = all
  induction all using List.reverseRecOn generalizing path with
  | nil => exact absurd (List.map_eq_nil_iff.mp hall) (splitOn_ne_nil _ _)
  | append_singleton front part ih =>
    obtain hparts | ⟨above, last, rfl, hparts⟩ := parts_cases path
    · obtain hidle | ⟨rfl, hname⟩ := last_cases [] hparts h
      · obtain rfl | rfl := hidle <;> cases h
      · exact .alone hname
    · obtain hidle | ⟨rfl, hname⟩ := last_cases _ hparts h
      · rw [fileName?_append_idle hidle] at h
        obtain ⟨hfront, -⟩ := List.append_inj' (hparts.symm.trans hall) rfl
        exact .idle hidle (ih h hfront)
      · exact .inside above hname

/-! ## Locales -/

/-- A path has the locale whose file name it ends in. -/
theorem localeOfPath?_eq_some_iff_fileName? {path locale : String} {program : Option String} :
    localeOfPath? path program = some locale
      ↔ locale ≠ "" ∧ fileName? path = some (nameFor program locale) := by
  cases hname : fileName? path with
  | none =>
    rw [localeOfPath?, hname]
    simp
  | some name => rw [localeOfPath?_eq_some_iff hname, Option.some_inj]

/-- The file name of a path is the name that it ends in. A path has a locale, which is never empty,
exactly if its file name is made of the program and an underscore, if a program is given, the locale
and `.ts`. -/
theorem localeOfPath?_iff_endsIn (path locale : String) :
    (∀ name, fileName? path = some name ↔ EndsIn name path)
      ∧ (∀ program, localeOfPath? path (some program) = some locale
        ↔ locale ≠ "" ∧ fileName? path = some (program ++ "_" ++ locale ++ ".ts"))
      ∧ (localeOfPath? path none = some locale
        ↔ locale ≠ "" ∧ fileName? path = some (locale ++ ".ts")) :=
  ⟨fun _ ↦ ⟨endsIn_of_fileName?, EndsIn.fileName?_eq⟩,
    fun _ ↦ localeOfPath?_eq_some_iff_fileName?, localeOfPath?_eq_some_iff_fileName?⟩

/-- Dots and underscores belong to the program as far as it says so, and the rest to the locale. -/
example :
    localeOfPath? "po/q.t_x_zh_CN.ts/./" (some "q.t_x") = some "zh_CN"
      ∧ localeOfPath? "po/q.t_x_zh_CN.ts" (some "q.t") = some "x_zh_CN"
      ∧ localeOfPath? "po/.ts" none = none := by
  decide

end MessageCatalog.Storage
