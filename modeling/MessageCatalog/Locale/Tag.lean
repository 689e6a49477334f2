import MessageCatalog.Text.Blank
import MessageCatalog.Text.Width

/-!
# Locale tags

A locale is named by subtags joined by hyphens: a language, optionally a script, a region and
variants, then extensions, each introduced by a single letter or digit. Only language, script and
region say anything about plural rules, but a tag with a malformed variant or extension is not a
locale at all.

Tags are ASCII and compare without regard to case. Catalogs write `zh_CN` where tags have `zh-CN`;
`Tag.ofLocale` accepts both, with white space around.

## Extensions

Every subtag of one character begins an extension, except inside private use, which is introduced by
`x` and takes all that follows. The extension of a letter owns the subtags up to the next extension
and has to account for all of them. An extension about which nothing is known accounts for every
subtag of a size that a word may have, but one word there has to be.
-/

namespace MessageCatalog.Locale

open Text

/-- The reasons why a text names no locale. -/
inductive Reason
  | invalidLanguage
  | invalidSubtag
  | invalidExtension
  | duplicatedExtension
  /-- The tag is well formed, but no plural category of its language is reached by a count. -/
  | noCategories
  deriving DecidableEq, Repr

def Reason.message : Reason → String
  | .invalidLanguage => "InvalidLanguage"
  | .invalidSubtag => "InvalidSubtag"
  | .invalidExtension => "InvalidExtension"
  | .duplicatedExtension => "DuplicatedExtension"
  | .noCategories => "no plural categories"

/-- One part of a tag between hyphens. -/
abbrev Subtag := List Char

/-- A locale tag in lower case, extensions left out. -/
structure Tag where
  language : String
  script : Option String := none
  region : Option String := none
  variants : List String := []
  deriving DecidableEq, Repr

/-! ## Kinds of subtags -/

def isLetter (c : Char) : Bool :=
  ('a' ≤ c && c ≤ 'z') || ('A' ≤ c && c ≤ 'Z')

def isDigit (c : Char) : Bool :=
  '0' ≤ c && c ≤ '9'

def isAlphanumeric (c : Char) : Bool :=
  isLetter c || isDigit c

/-- From `least` to `most` ASCII letters and digits. -/
def isWord (least most : Nat) (s : Subtag) : Bool :=
  least ≤ s.length && s.length ≤ most && s.all isAlphanumeric

/-- From two to eight bytes, of which an extension about which nothing is known asks no more. -/
def isWordSized (s : Subtag) : Bool :=
  2 ≤ byteWidth s && byteWidth s ≤ 8

/-- A language: two or three letters. -/
def isLanguage (s : Subtag) : Bool :=
  (s.length = 2 || s.length = 3) && s.all isLetter

/-- A script: four letters. -/
def isScript (s : Subtag) : Bool :=
  s.length = 4 && s.all isLetter

/-- A region: two letters or three digits. -/
def isRegion (s : Subtag) : Bool :=
  (s.length = 2 && s.all isLetter) || (s.length = 3 && s.all isDigit)

/-- A variant: five to eight letters and digits, or four of them with a digit in front. -/
def isVariant (s : Subtag) : Bool :=
  isWord 5 8 s || (isWord 4 4 s && s.head?.any isDigit)

/-- A subtag of one ASCII character, which ends the language part of a tag. -/
def isSingleton (s : Subtag) : Bool :=
  match s with
  | [c] => c.toNat < 0x80
  | _ => false

def lower (s : Subtag) : String :=
  String.ofList (s.map Char.toLower)

/-! ## The language part -/

/-- What may come next in the language part. -/
inductive Expecting
  | script
  | region
  | variant
  deriving DecidableEq, Repr

/-- The tag with one more subtag, and what may come after it. -/
def Tag.extend? (tag : Tag) (expecting : Expecting) (s : Subtag) : Option (Tag × Expecting) :=
  if expecting = .script ∧ isScript s then some ({ tag with script := some (lower s) }, .region)
  else if expecting ≠ .variant ∧ isRegion s then
    some ({ tag with region := some (lower s) }, .variant)
  else if isVariant s ∧ lower s ∉ tag.variants then
    some ({ tag with variants := tag.variants ++ [lower s] }, .variant)
  else none

/-- Reads the subtags after a language, up to the first singleton; gives the subtags from there. -/
def readLanguagePart (tag : Tag) (expecting : Expecting) :
    List Subtag → Except Reason (Tag × List Subtag)
  | [] => .ok (tag, [])
  | s :: rest =>
    if isSingleton s then .ok (tag, s :: rest)
    else match tag.extend? expecting s with
      | some (tag, expecting) => readLanguagePart tag expecting rest
      | none => .error .invalidSubtag

/-! ## Extensions -/

/-- Drops the longest language tag that the subtags after a language begin with. A repeated variant
is a fault even here. -/
def skipLanguagePart (tag : Tag) (expecting : Expecting) :
    List Subtag → Except Reason (List Subtag)
  | [] => .ok []
  | s :: rest =>
    match tag.extend? expecting s with
    | some (tag, expecting) => skipLanguagePart tag expecting rest
    | none => if isVariant s then .error .invalidSubtag else .ok (s :: rest)

/-- The key of a locale keyword: a letter or digit, then a letter. -/
def isKeywordKey : Subtag → Bool
  | [a, b] => isAlphanumeric a && isLetter b
  | _ => false

/-- The key of a transform field: a letter, then a digit. -/
def isFieldKey : Subtag → Bool
  | [a, b] => isLetter a && isDigit b
  | _ => false

/-- Whether subtags are keyword keys, each followed by any number of values. -/
def areKeywords : (inKeyword : Bool) → List Subtag → Bool
  | _, [] => true
  | inKeyword, s :: rest => (isKeywordKey s || (inKeyword && isWord 3 8 s)) && areKeywords true rest

/-- Whether subtags are field keys, each followed by at least one value. -/
def areFields : (complete inField : Bool) → List Subtag → Bool
  | complete, _, [] => complete
  | complete, inField, s :: rest =>
    if inField && isWord 3 8 s then areFields true true rest
    else complete && isFieldKey s && areFields false true rest

/-- Checks the subtags that the extension of a letter owns. -/
def checkExtension (letter : Char) (body : List Subtag) : Except Reason Unit := do
  let valid ←
    if letter = 'u' then
      pure (body ≠ [] && areKeywords false (body.dropWhile (isWord 3 8)))
    else if letter = 't' then
      match body with
      | [] => pure false
      | s :: rest =>
        if isLanguage s then
          let rest ← skipLanguagePart ⟨lower s, none, none, []⟩ .script rest
          pure (areFields true false rest)
        else pure (areFields true false body)
    else pure (body.all isWordSized && body.any (isWord 2 8))
  if valid then pure () else throw .invalidExtension

/-- The extensions that subtags consist of: each singleton with the subtags after it. Subtags before
the first singleton are left out. -/
def extensions (subtags : List Subtag) : List (Subtag × List Subtag) :=
  let group (s : Subtag) (after : List Subtag × List (Subtag × List Subtag)) :=
    if isSingleton s then ([], (s, after.1) :: after.2) else (s :: after.1, after.2)
  (subtags.foldr group ([], [])).2

/-- Checks extensions other than private use, `seen` being the letters of those before. -/
def checkExtensions (seen : List Char) : List (Subtag × List Subtag) → Except Reason Unit
  | [] => .ok ()
  | (s, body) :: rest =>
    match s.map Char.toLower with
    | [c] =>
      if !isAlphanumeric c then .error .invalidExtension
      else if c ∈ seen then .error .duplicatedExtension
      else (checkExtension c body).bind fun _ ↦ checkExtensions (c :: seen) rest
    | _ => .error .invalidExtension

/-- Whether a subtag introduces private use. -/
def isPrivateUse (s : Subtag) : Bool :=
  s = ['x'] || s = ['X']

/-- Checks the subtags from the first singleton on. -/
def checkExtensionPart (subtags : List Subtag) : Except Reason Unit := do
  checkExtensions [] (extensions (subtags.takeWhile fun s ↦ !isPrivateUse s))
  match subtags.dropWhile fun s ↦ !isPrivateUse s with
  | [] => pure ()
  | _ :: body =>
    if body ≠ [] ∧ body.all (isWord 1 8) then pure () else throw .invalidExtension

/-! ## Tags -/

/-- The tag that consists of the given subtags. -/
def Tag.ofSubtags : List Subtag → Except Reason Tag
  | [] => .error .invalidLanguage
  | s :: rest =>
    if isLanguage s then do
      let (tag, extensions) ← readLanguagePart ⟨lower s, none, none, []⟩ .script rest
      checkExtensionPart extensions
      pure tag
    else .error .invalidLanguage

/-- The tag of a locale in either notation, with white space around it. -/
def Tag.ofLocale (locale : String) : Except Reason Tag :=
  Tag.ofSubtags (splitOn '-' ((trimChars locale.toList).map fun c ↦ if c = '_' then '-' else c))

end MessageCatalog.Locale
