/-
# UriRouting.Yaml.Cursor — a place in a document

Indentation means something in a document, so the reader knows its line and column.  A cursor holds
the text that is left and the place where it starts.  `skip` takes a character of the current line,
`takeBreak` a line break of any of its spellings, which it gives back as it stands in a scalar.

A text that is no document is refused with the place of what is wrong with it.
-/
import UriRouting.Text.Basic

namespace UriRouting

/-- **`YamlError`** — the ways in which a document is refused. -/
inductive YamlError
  | controlCharacter
  | unexpectedCharacter
  | tabIndentation
  | unclosedScalar
  | badEscape
  | badBlockHeader
  | missingColon
  | misplacedEntry
  | misplacedKey
  | misplacedValue
  | badDirective
  | badProperty
  | unexpectedLexeme
  | unknownAnchor
  | noDocument
  | severalDocuments
  | wrongShape
  deriving DecidableEq, Repr, Inhabited

/-- The error in words. -/
def YamlError.message (e : YamlError) : Text :=
  Text.ofString <| match e with
  | controlCharacter => "control characters are not allowed"
  | unexpectedCharacter => "found character that cannot start any token"
  | tabIndentation => "found a tab character that violates indentation"
  | unclosedScalar => "found unexpected end of a quoted scalar"
  | badEscape => "found unknown escape character"
  | badBlockHeader => "did not find expected comment or line break"
  | missingColon => "could not find expected ':'"
  | misplacedEntry => "block sequence entries are not allowed in this context"
  | misplacedKey => "mapping keys are not allowed in this context"
  | misplacedValue => "mapping values are not allowed in this context"
  | badDirective => "found an invalid directive"
  | badProperty => "did not find expected alphabetic or numeric character"
  | unexpectedLexeme => "did not find expected node content"
  | unknownAnchor => "unknown anchor"
  | noDocument => "the text holds no document"
  | severalDocuments => "the text holds more than one document"
  | wrongShape => "the document does not have the expected shape"

end UriRouting

namespace UriRouting.Yaml

/-- **`Cursor`** — the text that is left, and where it starts. -/
structure Cursor where
  rest : Text
  index : Nat := 0
  line : Nat := 0
  column : Nat := 0
  deriving DecidableEq, Repr

/-- The characters that end a line. -/
def isBreak (c : Char) : Bool :=
  c == '\n' || c == '\r' || c.toNat == 0x85 || c.toNat == 0x2028 || c.toNat == 0x2029

/-- The blanks within a line. -/
def isBlank (c : Char) : Bool := c == ' ' || c == '\t'

/-- The next character is a blank, a line break or the end of the text. -/
def atBlankOrEnd : Text → Bool
  | [] => true
  | c :: _ => isBlank c || isBreak c

/-- The next character is a line break or the end of the text. -/
def atBreakOrEnd : Text → Bool
  | [] => true
  | c :: _ => isBreak c

/-- The text starts with three equal marks that stand alone. -/
def atMark (mark : Char) : Text → Bool
  | a :: b :: c :: r => a == mark && b == mark && c == mark && atBlankOrEnd r
  | _ => false

namespace Cursor

/-- Takes one character of the line. -/
def skip (c : Cursor) : Cursor :=
  match c.rest with
  | [] => c
  | _ :: r => { c with rest := r, index := c.index + 1, column := c.column + 1 }

/-- Takes several characters of the line. -/
def skipMany (c : Cursor) : Nat → Cursor
  | 0 => c
  | n + 1 => skipMany c.skip n

/-- Takes characters of the line while they are of a class. -/
def skipWhile (p : Char → Bool) (c : Cursor) : Cursor :=
  let taken := (c.rest.takeWhile p).length
  { c with rest := c.rest.drop taken, index := c.index + taken, column := c.column + taken }

/-- Takes a line break; the result is the break as part of a scalar, nothing if there is none. -/
def takeBreak (c : Cursor) : Text × Cursor :=
  let next (taken : Nat) (r : Text) : Cursor := ⟨r, c.index + taken, c.line + 1, 0⟩
  match c.rest with
  | '\r' :: '\n' :: r => (['\n'], next 2 r)
  | d :: r =>
    if d = '\n' ∨ d = '\r' ∨ d.toNat = 0x85 then (['\n'], next 1 r)
    else if isBreak d then ([d], next 1 r)
    else ([], c)
  | [] => ([], c)

/-- The document marks `---` and `...` count only at the beginning of a line. -/
def atDocumentMark (c : Cursor) : Bool :=
  c.column == 0 && (atMark '-' c.rest || atMark '.' c.rest)

end Cursor

end UriRouting.Yaml
