import MessageCatalog.Catalog.Noted
import MessageCatalog.Catalog.Reader
import MessageCatalog.Catalog.Writer
import MessageCatalog.Locale.Preference
import MessageCatalog.Storage.FileTree

/-!
# Catalogs in files

A catalog is loaded from a file and saved to one; the catalogs of a directory are loaded together,
by the locales in their file names. Other files in the directory are left alone. A catalog that
states another language than its file name is suspicious, but is loaded.
-/

namespace MessageCatalog.Storage

/-- How files are read: the text at a path, or why there is none. -/
abbrev TextSource := String → Except Cause String

/-- Loads a catalog from what is at a path. -/
def loadText (path : String) (content : Except Cause String) : Noted Catalog :=
  match content with
  | .error cause => .fail (.io path cause)
  | .ok document => do
    let reading := Catalog.read document
    let catalog ← ⟨reading.result, reading.notices⟩
    let contexts := catalog.contexts.length
    Noted.leave [.debug s!"Loaded {catalog.size} messages in {contexts} contexts from {path}"]
    pure catalog

/-- Loads the catalog in the file at a path. -/
def loadCatalog (read : TextSource) (path : String) : Noted Catalog :=
  loadText path (read path)

/-- The tree after a catalog is saved to the file at a path. -/
def saveCatalog (tree : FileTree) (catalog : Catalog) (path : String) : Except Fault FileTree :=
  (tree.writeText path catalog.write).mapError fun cause ↦ .io path cause

/-- The notice about a catalog in the file for a locale, if it states another language. -/
def languageNotices (path locale : String) (catalog : Catalog) : List Notice :=
  match catalog.language with
  | none => []
  | some language =>
    if Locale.sameLocale language locale then []
    else
      [.warn s!"{path} declares language '{language}' but its file name says '{locale}'"]

/-- Loads the catalogs in the files of a directory with the given names, in this order, and adds
them to those loaded before. Only the files named after `program`, if given, are wanted. -/
def loadNamed (read : TextSource) (dir : String) (program : Option String) :
    (loaded : Index Catalog) → (names : List String) → Noted (Index Catalog)
  | loaded, [] => pure loaded
  | loaded, name :: rest =>
    let path := join dir name
    match localeOfPath? path program with
    | none => do
      Noted.leave [.debug s!"Skipping {path}"]
      loadNamed read dir program loaded rest
    | some locale => do
      let catalog ← loadCatalog read path
      Noted.leave (languageNotices path locale catalog)
      loadNamed read dir program (loaded.insert locale catalog) rest

/-- Loads the catalogs in a directory, by locale in ascending order. -/
def loadDirectory (tree : FileTree) (dir : String) (program : Option String) :
    Noted (Index Catalog) :=
  if !tree.has dir then .fail (.directoryNotFound dir)
  else match tree.names? dir with
    | none => .fail (.notADirectory dir)
    | some names => do
      let loaded ← loadNamed tree.readText dir program [] names
      if loaded = [] then
        Noted.leave [.warn s!"No TS files found in directory {dir}"]
      pure loaded

end MessageCatalog.Storage
