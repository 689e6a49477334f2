import MessageCatalog.Lookup.Table
import MessageCatalog.Storage.Catalogs

/-!
# Layers of translations

A locale with a territory uses two catalogs: that of its language, and above it that of the locale
itself. A lookup asks the uppermost table first, so the territory's translations replace the
language's, and what neither has is shown as its source text.
-/

namespace MessageCatalog.Lookup

open Storage

/-- Tables of translations, lowest first. -/
structure Layers where
  tables : List Table := []
  deriving Repr, Inhabited

namespace Layers

/-- The layers with a table on top. -/
def install (l : Layers) (t : Table) : Layers :=
  ⟨l.tables ++ [t]⟩

def size (l : Layers) : Nat :=
  l.tables.length

def isEmpty (l : Layers) : Bool :=
  l.tables.isEmpty

/-- The translation that a query asks for: that of the uppermost table that has one. -/
def translate? (l : Layers) (q : Query) : Option String :=
  l.tables.reverse.findSome? (·.translate? q)

/-- The text to show for a query. -/
def translate (l : Layers) (q : Query) : String :=
  (l.translate? q).getD q.source

/-- Installs the catalog in a file, if there is such a file. -/
def installFile (read : TextSource) (includeUnfinished : Bool) (l : Layers) (path : String) :
    Noted Layers :=
  let loaded := loadCatalog read path
  match loaded.outcome with
  | .error (.io _ .notFound) => ⟨.ok l, loaded.notices ++ [.debug s!"No catalog at {path}"]⟩
  | _ => do
    let catalog ← loaded
    Noted.leave [.info s!"Installing translations from {path}"]
    Noted.leave (Table.notices catalog includeUnfinished)
    pure (l.install (.ofCatalog catalog includeUnfinished))

/-- Installs the catalogs in files, one after another. -/
def installFiles (read : TextSource) (includeUnfinished : Bool) :
    Layers → (paths : List String) → Noted Layers
  | l, [] => pure l
  | l, path :: rest => do
    let l ← l.installFile read includeUnfinished path
    installFiles read includeUnfinished l rest

/-- The files that may hold the catalogs that a locale uses. -/
def paths (dir program locale : String) : List String :=
  (Locale.layerOrder locale).map fun l ↦ join dir (catalogName program l)

/-- Loads the layers that a locale uses from a directory. -/
def load (read : TextSource) (dir program locale : String) (includeUnfinished : Bool) :
    Noted Layers := do
  let layers ← installFiles read includeUnfinished {} (paths dir program locale)
  if layers.isEmpty then
    Noted.leave [.warn s!"No translations for '{locale}' in {dir}, showing source text"]
  pure layers

end Layers

end MessageCatalog.Lookup
