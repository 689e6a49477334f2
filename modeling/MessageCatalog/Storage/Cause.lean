/-!
# Why a file cannot be used
-/

namespace MessageCatalog.Storage

/-- Why a file cannot be read or written. -/
inductive Cause
  | notFound
  /-- A path goes through a file as if it were a directory. -/
  | notADirectory
  | isADirectory
  /-- A path, or a name in it, is longer than the system allows. -/
  | nameTooLong
  /-- A path holds the character that ends a path for the system. -/
  | nulInPath
  /-- The content is not a text in UTF-8. -/
  | notText
  /-- Any other reason, in the system's words. -/
  | other (text : String)
  deriving DecidableEq, Repr

def Cause.message : Cause → String
  | .notFound => "No such file or directory (os error 2)"
  | .notADirectory => "Not a directory (os error 20)"
  | .isADirectory => "Is a directory (os error 21)"
  | .nameTooLong => "File name too long (os error 36)"
  | .nulInPath => "file name contained an unexpected NUL byte"
  | .notText => "stream did not contain valid UTF-8"
  | .other text => text

end MessageCatalog.Storage
