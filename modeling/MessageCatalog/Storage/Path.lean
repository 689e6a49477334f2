import MessageCatalog.Text.Blank

/-!
# Paths

Paths are texts whose parts are separated by slashes. Empty parts and single dots stand for the
directory before them, two dots for the one above it.

A catalog's file is named after its program and its locale, as in `bitcoin_zh_CN.ts`. The name of
the program may be left out.
-/

namespace MessageCatalog.Storage

open Text

def parts (path : String) : List String :=
  (splitOn '/' path.toList).map String.ofList

/-- A path below a directory. An absolute path is below no other. -/
def join (dir path : String) : String :=
  if path.startsWith "/" ∨ dir = "" then path
  else if dir.endsWith "/" then dir ++ path
  else dir ++ "/" ++ path

/-- The last part of a path, if it names a file or directory. -/
def fileName? (path : String) : Option String :=
  match (parts path).reverse.dropWhile fun part ↦ part = "" || part = "." with
  | [] => none
  | name :: _ => if name = ".." then none else some name

/-- A name cut at its last dot, unless it has none or begins with its only one. -/
def splitExtension (name : String) : String × Option String :=
  let cs := name.toList.reverse
  match cs.dropWhile (· ≠ '.') with
  | [] | [_] => (name, none)
  | _ :: stem =>
    (String.ofList stem.reverse, some (String.ofList (cs.takeWhile (· ≠ '.')).reverse))

/-- The rest of a text after its beginning. -/
def afterPrefix? (start cs : List Char) : Option (List Char) :=
  if start.isPrefixOf cs then some (cs.drop start.length) else none

/-- The locale in the name of a catalog's file, where all files of the catalogs wanted are named
after `program`, if given. -/
def localeOfPath? (path : String) (program : Option String) : Option String :=
  match (fileName? path).map splitExtension with
  | some (stem, some "ts") =>
    let locale := match program with
      | none => some stem.toList
      | some program => afterPrefix? (program.toList ++ ['_']) stem.toList
    (locale.filter (· ≠ [])).map String.ofList
  | _ => none

/-- The name of the file of a program's catalog for a locale. -/
def catalogName (program locale : String) : String :=
  s!"{program}_{locale}.ts"

end MessageCatalog.Storage
