import MessageCatalog.Progress.Counts

/-!
# Progress summaries

The progress of a catalog as text: one line for the catalog, and on request a table with one line
for each context, whose columns are aligned. Widths count characters.
-/

namespace MessageCatalog.Progress

/-- The text with spaces after it, up to a width. -/
def padRight (width : Nat) (s : String) : String :=
  s ++ "".pushn ' ' (width - s.length)

/-- The text with spaces before it, up to a width. -/
def padLeft (width : Nat) (s : String) : String :=
  "".pushn ' ' (width - s.length) ++ s

namespace Statistics

/-- The line about the whole catalog in a file. -/
def headline (s : Statistics) (file : String) : String :=
  let language := s.language.getD "?"
  let t := s.totals
  s!"{file} [{language}]: {t.percentage}% complete ({t.finished} finished, "
    ++ s!"{t.unfinished} unfinished, {t.obsolete} obsolete; {t.messages} messages in "
    ++ s!"{s.contexts.length} contexts, {t.numerus} plural)\n"

/-- The line about one context, whose name takes up a width. -/
def contextLine (width : Nat) (name : String) (c : Counts) : String :=
  let finished := padLeft 4 (toString c.finished)
  let live := padRight 4 (toString c.live)
  s!"  {padRight width name}  {padLeft 5 c.percentage}%  {finished}/{live}\n"

def nameWidth (s : Statistics) : Nat :=
  (s.contexts.map (·.1.length)).foldl max 0

def summary (s : Statistics) (file : String) (perContext : Bool) : String :=
  let table :=
    if perContext then
      s.contexts.map fun (name, counts) ↦ contextLine s.nameWidth name counts
    else []
  String.join (s.headline file :: table)

end Statistics

end MessageCatalog.Progress
