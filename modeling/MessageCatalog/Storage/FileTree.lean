import MessageCatalog.Index
import MessageCatalog.Storage.Cause
import MessageCatalog.Storage.Path

/-!
# File trees

A file tree is a directory with everything below it. The entries of a directory are in the order in
which the file system lists them, which means nothing. Paths are taken relative to the root of the
tree.

A path is followed part by part: whatever is before a slash has to be a directory. Writing replaces
a file or creates it, in a directory that exists.

It is assumed that a write happens wholly or not at all. A tree never runs out of space and nothing
else writes to it, so that a write fails only for what its path leads to, and then changes nothing.

## Outside

A path may leave the tree, upwards or by being absolute. The directories outside are there, but
nothing is known to be in them except what has been written. That is held in the tree under two
names that no file can have: `..` for the directory above and `/` for the one that absolute paths
begin at. Neither is a part of what the tree contains.
-/

namespace MessageCatalog.Storage

/-- A file or a directory. -/
inductive Entry
  | file (content : ByteArray)
  | directory (entries : List (String × Entry))
  deriving Inhabited

/-- A tree of files, as its root directory. -/
abbrev FileTree := Entry

/-- Whether a name stands for a directory outside. -/
def isOutside (name : String) : Bool :=
  name = ".." || name = "/"

namespace Entry

def entries? : Entry → Option (List (String × Entry))
  | file _ => none
  | directory entries => some entries

/-- What has a name in a directory. A directory outside is there, whether or not something is known
to be in it. -/
def named? (entries : List (String × Entry)) (name : String) : Option Entry :=
  match Index.get? entries name with
  | some e => some e
  | none => if isOutside name then some (directory []) else none

/-- What the names from an entry downwards lead to. -/
def at? : Entry → List String → Option Entry
  | e, [] => some e
  | e, name :: rest =>
    match e.entries?.bind (named? · name) with
    | some child => child.at? rest
    | none => none

/-- The tree with an entry put where names lead to, provided that there is a directory above it. -/
def put (new : Entry) : Entry → List String → Entry
  | _, [] => new
  | file content, _ :: _ => file content
  | directory entries, name :: rest =>
    match named? entries name, rest with
    | _, [] => directory (Index.set name new entries)
    | some child, rest => directory (Index.set name (put new child rest) entries)
    | none, _ => directory entries

/-- The tree with an empty directory where names lead to, and all above it. -/
def makeDirectory : Entry → List String → Entry
  | e, [] => e
  | file content, _ :: _ => file content
  | directory entries, name :: rest =>
    let child := (Index.get? entries name).getD (directory [])
    directory (Index.set name (makeDirectory child rest) entries)

end Entry

/-! ## Following paths -/

/-- A step along a path. -/
inductive Step
  | here
  | up
  | into (name : String)
  deriving DecidableEq, Repr

/-- The step that a part of a path stands for. -/
def Step.ofPart (part : String) : Step :=
  if part = "" ∨ part = "." then .here else if part = ".." then .up else .into part

/-- The largest number of bytes of a name. -/
def maxNameWidth : Nat := 255

/-- The largest number of bytes of a path. -/
def maxPathWidth : Nat := 4095

/-- The names that lead to the directory above another, innermost first. Above the first of all
directories there is no other. -/
def trailAbove : List String → List String
  | [] => [".."]
  | name :: trail =>
    if name = "/" then name :: trail
    else if name = ".." then ".." :: name :: trail
    else trail

/-- Follows steps from where names lead to, `trail` being these names, innermost first. -/
def follow (tree : FileTree) : (trail : List String) → List Step → Except Cause (List String)
  | trail, [] => .ok trail
  | trail, step :: rest =>
    match tree.at? trail.reverse with
    | none => .error .notFound
    | some (.file _) => .error .notADirectory
    | some (.directory _) =>
      match step with
      | .here => follow tree trail rest
      | .up => follow tree (trailAbove trail) rest
      | .into name =>
        if maxNameWidth < name.utf8ByteSize then .error .nameTooLong
        else follow tree (name :: trail) rest

/-- What is wrong with a path, whatever there is. -/
def pathFault? (path : String) : Option Cause :=
  if '\x00' ∈ path.toList then some .nulInPath
  else if path = "" then some .notFound
  else if maxPathWidth < path.utf8ByteSize then some .nameTooLong
  else none

/-- Follows the first steps of a path. -/
def followPath (tree : FileTree) (path : String) (steps : List Step) :
    Except Cause (List String) :=
  match pathFault? path with
  | some cause => .error cause
  | none => follow tree (if path.startsWith "/" then ["/"] else []) steps

namespace Entry

/-- What a path leads to. -/
def locate (tree : FileTree) (path : String) : Except Cause Entry := do
  let trail ← followPath tree path ((parts path).map Step.ofPart)
  match tree.at? trail.reverse with
  | some e => pure e
  | none => throw .notFound

def has (tree : FileTree) (path : String) : Bool :=
  (tree.locate path).isOk

/-- The names in the directory that a path leads to. -/
def names? (tree : FileTree) (path : String) : Option (List String) :=
  ((tree.locate path).toOption.bind entries?).map fun entries ↦
    (entries.map (·.1)).filter fun name ↦ !isOutside name

/-- The text in the file that a path leads to. -/
def readText (tree : FileTree) (path : String) : Except Cause String := do
  match ← tree.locate path with
  | directory _ => throw .isADirectory
  | file content =>
    match String.fromUTF8? content with
    | some s => pure s
    | none => throw .notText

/-- The names that lead to the file that a path is to be written to. -/
def target (tree : FileTree) (path : String) : Except Cause (List String) :=
  match ((parts path).reverse.dropWhile (· = "")).map Step.ofPart with
  | .into name :: steps => do
    let trail ← followPath tree path steps.reverse
    match tree.at? trail.reverse with
    | none => throw .notFound
    | some (file _) => throw .notADirectory
    | some (directory entries) =>
      if path.endsWith "/" then throw .isADirectory
      else if maxNameWidth < name.utf8ByteSize then throw .nameTooLong
      else match named? entries name with
        | some (directory _) => throw .isADirectory
        | _ => pure (name :: trail).reverse
  | _ => do
    match ← tree.locate path with
    | file _ => throw .notADirectory
    | directory _ => throw .isADirectory

/-- The tree after a text is written to a path, wholly or not at all. -/
def writeText (tree : FileTree) (path content : String) : Except Cause FileTree :=
  (tree.target path).map fun names ↦ put (file content.toUTF8) tree names

/-! ## Whole trees -/

/-- The tree with a file at a path, or an empty directory if there is no content, and all
directories above it. -/
def provide (tree : FileTree) (path : String) (content : Option ByteArray) : FileTree :=
  let names := (parts path).filter fun part ↦ part ≠ "" && part ≠ "."
  match content with
  | none => tree.makeDirectory names
  | some content => put (file content) (tree.makeDirectory names.dropLast) names

mutual

/-- All files that a tree contains below a path, with their paths. -/
def files (above : String) : Entry → List (String × ByteArray)
  | file content => [(above, content)]
  | directory entries => filesOf above entries

def filesOf (above : String) : List (String × Entry) → List (String × ByteArray)
  | [] => []
  | (name, e) :: rest =>
    if isOutside name then filesOf above rest
    else e.files (join above name) ++ filesOf above rest

end

/-- The files of a tree that are not the same in another one before it. -/
def changes (before after : FileTree) : List (String × ByteArray) :=
  let old := before.files ""
  (after.files "").filter fun (path, content) ↦
    (Index.get? old path).map ByteArray.data ≠ some content.data

end Entry

end MessageCatalog.Storage
