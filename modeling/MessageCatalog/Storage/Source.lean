import MessageCatalog.Storage.Catalogs
import MessageCatalog.Text.Lossy

/-!
# Sources

A path is one thing and what is shown of it another. A `Source` has both what is at a path and how
the path is shown. Faults, notices and reports name a file as it is shown, and so they may name two
files alike.

Where all paths are texts, each is shown as it is. To the system a path is any sequence of bytes,
which is shown as far as it is a text.
-/

namespace MessageCatalog.Storage

/-- How paths of a kind are read and shown. -/
structure Source (Path : Type) where
  read : Path → Except Cause String
  display : Path → String
  /-- The path that a text stands for. -/
  ofText : String → Path

/-- A path as the system has it. -/
abbrev RawPath := List UInt8

namespace Source

variable {Path : Type}

/-- Paths that are texts. -/
def texts (read : TextSource) : Source String where
  read
  display := id
  ofText := id

/-- Paths of the system. -/
def raw (read : RawPath → Except Cause String) : Source RawPath where
  read
  display := Text.lossy
  ofText := Text.utf8Bytes

/-- What is at the paths that texts stand for. -/
def textSource (s : Source Path) : TextSource :=
  fun path ↦ s.read (s.ofText path)

def load (s : Source Path) (file : Path) : Noted Catalog :=
  loadText (s.display file) (s.read file)

end Source

end MessageCatalog.Storage
