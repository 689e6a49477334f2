import MessageCatalog.Markup.Fault

/-!
# Scanning a document into tokens

A document is scanned one character at a time by a machine with a total step function, so that the
tokens of a text are those of its beginning followed by those of the rest, scanned from where the
beginning left the machine.

## What is checked

Only as much as is needed to find the tokens: a tag ends at the first `>` outside quotes, a comment
at `-->`, an end tag has to close the innermost open element. Attributes and references are read by
whoever wants to know what a tag or a text says (`Tag.attributes`, `decode`), and go unchecked in
the others. An end tag and a processing instruction may be ended by the end of the document instead
of `>`.

## Positions

A token carries the byte position at which a fault found in it is reported. For a tag it is the byte
after the tag, for text the byte of the `<` that follows. When the document ends with a text, the
position is its last byte. A construct without an end is reported where it began, just after its
`<`, and an end tag that fits nothing just after its slash.
-/

namespace MessageCatalog.Markup

open Text

/-! ## Tokens -/

/-- What a token is. -/
inductive Piece
  /-- Text with its references unresolved. -/
  | text (raw : List Char)
  /-- The content of a `CDATA` section, which stands for itself. -/
  | verbatim (content : List Char)
  /-- A start tag. -/
  | opening (tag : Tag)
  /-- An empty-element tag. -/
  | empty (tag : Tag)
  /-- The end tag of the innermost open element. -/
  | closing
  /-- A comment, declaration, processing instruction or document type. -/
  | aside
  /-- A fault; nothing after it is scanned. -/
  | fault (fault : Fault)
  deriving DecidableEq, Repr

/-- A token of a document. -/
structure Token where
  piece : Piece
  /-- Where a fault found in this token is reported. -/
  position : Nat
  deriving DecidableEq, Repr

/-! ## The machine -/

/-- What the scanner is reading. The texts hold everything since the `<`, last character first. -/
inductive Mode
  /-- Outside markup, with no text read yet. -/
  | between
  | text (read : List Char)
  /-- Just after a `<`. -/
  | markup
  /-- Just after `<!`. -/
  | bang
  | comment (read : List Char)
  | verbatim (read : List Char)
  /-- A document type, with the number of inner `<` still open. -/
  | doctype (read : List Char) (depth : Nat)
  | endTag (read : List Char)
  | instruction (read : List Char)
  /-- A start or empty-element tag, with the quote that an attribute value is inside of. -/
  | tag (read : List Char) (quote : Option Char)
  /-- A fault was met. -/
  | stopped
  deriving DecidableEq, Repr

/-- The scanner between two characters. -/
structure Scanner where
  /-- The number of bytes read. -/
  consumed : Nat
  /-- The names of the open elements, innermost first. -/
  names : List String
  mode : Mode
  deriving DecidableEq, Repr

/-- The scanner before the first character. -/
def Scanner.start : Scanner := ⟨0, [], .between⟩

/-- What a construct turns out to be at its end: a token, and the open elements after it. -/
structure Completion where
  piece : Piece
  position : Nat
  names : List String

/-- The tag with a given content, the `/` of an empty-element tag not included. -/
def Tag.ofContent (content : List Char) : Tag where
  name := String.ofList (content.takeWhile fun c ↦ !isBlank c)
  body := content.dropWhile fun c ↦ !isBlank c

/-- The name in an end tag: white space after it is dropped, unless there is nothing else. -/
def endName (raw : List Char) : List Char :=
  if raw.all isBlank then raw else (raw.reverse.dropWhile isBlank).reverse

/-- Whether a text begins with an ASCII word, in upper or lower case; `word` is in lower case. -/
def beginsWith (word : String) (content : List Char) : Bool :=
  (content.take word.length).map Char.toLower = word.toList

section Completions

variable (names : List String) (stop : Nat)

/-- Completes a comment that ends before byte `stop`. -/
def completeComment (read : List Char) : Completion :=
  if "!--".toList.isPrefixOf read.reverse then ⟨.aside, stop, names⟩
  else ⟨.fault (.unexpectedEnd .comment), stop, names⟩

/-- Completes a section that ends before byte `stop`; `read` is without its closing brackets. -/
def completeVerbatim (read : List Char) : Completion :=
  if beginsWith "![cdata[" read.reverse then ⟨.verbatim (read.reverse.drop 8), stop, names⟩
  else ⟨.fault (.unexpectedEnd .verbatim), stop, names⟩

/-- Completes a document type that ends before byte `stop`. -/
def completeDoctype (read : List Char) : Completion :=
  if beginsWith "!doctype" read.reverse then
    if (read.reverse.drop 8).all isBlank then ⟨.fault .emptyDoctype, stop, names⟩
    else ⟨.aside, stop, names⟩
  else ⟨.fault (.unexpectedEnd .doctype), stop, names⟩

/-- Completes a declaration or processing instruction that ends before byte `stop`. -/
def completeInstruction (read : List Char) : Completion :=
  if 2 < read.length ∧ read.head? = some '?' then ⟨.aside, stop, names⟩
  else ⟨.fault (.unexpectedEnd .instruction), stop - byteWidth read, names⟩

/-- Completes an end tag that ends before byte `stop`; `read` begins with its slash. -/
def completeEnd (read : List Char) : Completion :=
  let raw := read.reverse.drop 1
  match names with
  | [] => ⟨.fault (.mismatchedEnd "" (String.ofList raw)), stop - byteWidth read, []⟩
  | expected :: outer =>
    let found := String.ofList (endName raw)
    if found = expected then ⟨.closing, stop, outer⟩
    else ⟨.fault (.mismatchedEnd expected found), stop - byteWidth read, outer⟩

/-- Completes a start or empty-element tag that ends before byte `stop`. -/
def completeTag (read : List Char) : Completion :=
  match read with
  | '/' :: read => ⟨.empty (.ofContent read.reverse), stop, names⟩
  | _ =>
    let tag := Tag.ofContent read.reverse
    ⟨.opening tag, stop, tag.name :: names⟩

end Completions

/-- The scanner after a construct that ends before byte `stop`, with the construct's token. -/
def Completion.scanned (c : Completion) (stop : Nat) : Scanner × Option Token :=
  let mode := match c.piece with
    | .fault _ => .stopped
    | _ => .between
  (⟨stop, c.names, mode⟩, some ⟨c.piece, c.position⟩)

/-- The scanner after one more character, with the token that it ends, if any. -/
def Scanner.step (s : Scanner) (c : Char) : Scanner × Option Token :=
  let stop := s.consumed + c.utf8Size
  let go (mode : Mode) : Scanner × Option Token := (⟨stop, s.names, mode⟩, none)
  let inTag (read : List Char) (quote : Option Char) : Scanner × Option Token :=
    match quote with
    | some q => go (.tag (c :: read) (if c = q then none else some q))
    | none =>
      if c = '>' then (completeTag s.names stop read).scanned stop
      else go (.tag (c :: read) (if c = '"' ∨ c = '\'' then some c else none))
  match s.mode with
  | .between => go (if c = '<' then .markup else .text [c])
  | .text read =>
    if c = '<' then (⟨stop, s.names, .markup⟩, some ⟨.text read.reverse, s.consumed⟩)
    else go (.text (c :: read))
  | .markup =>
    if c = '!' then go .bang
    else if c = '/' then go (.endTag [c])
    else if c = '?' then go (.instruction [c])
    else inTag [] none
  | .bang =>
    if c = '[' then go (.verbatim [c, '!'])
    else if c = '-' then go (.comment [c, '!'])
    else if c = 'D' ∨ c = 'd' then go (.doctype [c, '!'] 0)
    else Completion.scanned ⟨.fault (.strayBang (leadByte c)), s.consumed - 1, s.names⟩ stop
  | .comment read =>
    if c = '>' ∧ 4 < read.length ∧ "--".toList.isPrefixOf read then
      (completeComment s.names stop read).scanned stop
    else go (.comment (c :: read))
  | .verbatim read =>
    if c = '>' ∧ "]]".toList.isPrefixOf read then
      (completeVerbatim s.names stop (read.drop 2)).scanned stop
    else go (.verbatim (c :: read))
  | .doctype read depth =>
    if c = '>' then
      match depth with
      | 0 => (completeDoctype s.names stop read).scanned stop
      | depth + 1 => go (.doctype (c :: read) depth)
    else go (.doctype (c :: read) (if c = '<' then depth + 1 else depth))
  | .endTag read =>
    if c = '>' then (completeEnd s.names stop read).scanned stop
    else go (.endTag (c :: read))
  | .instruction read =>
    if c = '>' then (completeInstruction s.names stop read).scanned stop
    else go (.instruction (c :: read))
  | .tag read quote => inTag read quote
  | .stopped => go .stopped

/-- The token that the end of the document completes, if any. -/
def Scanner.finish (s : Scanner) : Option Token :=
  let cut (construct : Construct) (width : Nat) : Option Token :=
    some ⟨.fault (.unexpectedEnd construct), s.consumed - width⟩
  match s.mode with
  | .between | .markup | .stopped => none
  | .text read => some ⟨.text read.reverse, s.consumed - 1⟩
  | .bang => cut .bang 1
  | .comment read => cut .comment (byteWidth read)
  | .verbatim read => cut .verbatim (byteWidth read)
  | .doctype read _ => cut .doctype (byteWidth read)
  | .endTag read => ((completeEnd s.names s.consumed read).scanned s.consumed).2
  | .instruction read =>
    ((completeInstruction s.names s.consumed read).scanned s.consumed).2
  | .tag read _ => cut .element (byteWidth read)

/-- The tokens of the rest of a document. -/
def Scanner.scan (s : Scanner) : List Char → List Token
  | [] => s.finish.toList
  | c :: cs =>
    match s.step c with
    | (next, none) => next.scan cs
    | (next, some token) => token :: next.scan cs

/-- The document without the byte order mark that it may begin with. -/
def dropByteOrderMark : List Char → List Char
  | '\uFEFF' :: cs => cs
  | cs => cs

/-- The tokens of a document. A byte order mark at its start is not counted in positions. -/
def tokens (document : String) : List Token :=
  Scanner.start.scan (dropByteOrderMark document.toList)

end MessageCatalog.Markup
