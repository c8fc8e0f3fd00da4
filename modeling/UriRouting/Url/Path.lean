/-
# UriRouting.Url.Path — what a URL escapes, and its path

Controls, the delete character and everything outside ASCII are escaped everywhere.  A path escapes
in addition blanks, quotation marks, backquotes and the brackets `<>` and braces, a query blanks,
quotation marks and `<>`, and in schemes with a fixed set of rules the apostrophe too.  Escapes that
are there already stay as they are.

A path is read segment by segment: `.` stays where it is and `..` goes up one segment, both also in
their escaped spellings; at the end of a path they leave an empty segment.  Going up stops at the root
and at the name of a drive, a letter with a colon or a bar.

In a file path the drive may come first; it is then written with a colon, and the path starts with
exactly one slash.
-/
import UriRouting.Percent
import UriRouting.Text.Basic

namespace UriRouting

/-- **`UrlError`** — the ways in which an absolute URL is refused. -/
inductive UrlError
  /-- there is no scheme, and nothing that the text could be relative to -/
  | relativeWithoutBase
  | emptyHost
  | invalidPort
  /-- a character that no name of a host on the Internet may hold -/
  | invalidInternetName
  | invalidIpv4
  | invalidIpv6
  /-- a character that no host of any other scheme may hold -/
  | invalidNameCharacter
  deriving DecidableEq, Repr, Inhabited

/-- The error in words. -/
def UrlError.message (e : UrlError) : Text :=
  Text.ofString <| match e with
  | relativeWithoutBase => "relative URL without a base"
  | emptyHost => "empty host"
  | invalidPort => "invalid port number"
  | invalidInternetName => "invalid international domain name"
  | invalidIpv4 => "invalid IPv4 address"
  | invalidIpv6 => "invalid IPv6 address"
  | invalidNameCharacter => "invalid domain character"

end UriRouting

namespace UriRouting.Url

/-- Controls, the delete character, and everything outside ASCII. -/
def isControl (c : Char) : Bool := c.toNat < 0x20 || 0x7F ≤ c.toNat

/-- A path without structure, or the name of a host. -/
def encodeOpaque (t : Text) : Text := Percent.encodeUnless (fun c => !isControl c) t

/-- The characters that a path escapes. -/
def isEscapedInPath (c : Char) : Bool :=
  isControl c || c ∈ [' ', '"', '#', '<', '>', '?', '`', '{', '}']

/-- A path. -/
def encodePath (t : Text) : Text := Percent.encodeUnless (fun c => !isEscapedInPath c) t

/-- The characters that a query escapes. -/
def isEscapedInQuery (special : Bool) (c : Char) : Bool :=
  isControl c || c ∈ [' ', '"', '#', '<', '>'] || (special && c == '\'')

/-- A query. -/
def encodeQuery (special : Bool) (t : Text) : Text :=
  Percent.encodeUnless (fun c => !isEscapedInQuery special c) t

end UriRouting.Url

namespace UriRouting.Url.Path

/-- The spellings of the segment that stays. -/
def isCurrent (segment : Text) : Bool :=
  [['.'], ['%', '2', 'e']].contains (Text.lower segment)

/-- The spellings of the segment that goes up. -/
def isParent (segment : Text) : Bool :=
  [['.', '.'], ['.', '%', '2', 'e'], ['%', '2', 'e', '.'],
    ['%', '2', 'e', '%', '2', 'e']].contains (Text.lower segment)

/-- The name of a drive. -/
def isDrive : Text → Bool
  | [letter, mark] => letter.isAlpha && (mark == ':' || mark == '|')
  | _ => false

/-- **`Stack`** — the segments read so far, the last one first. -/
abbrev Stack := List Text

/-- Goes up one segment, but not above the root or a drive. -/
def up : Stack → Stack
  | [] => []
  | segment :: below => if isDrive segment then segment :: below else below

/-- The segment as it is kept: a drive that starts a file path gets its colon. -/
def kept (file : Bool) (stack : Stack) (segment : Text) : Text :=
  match segment with
  | [letter, _] => if file ∧ stack = [] ∧ isDrive segment then [letter, ':'] else segment
  | _ => segment

/-- Reads one segment; `last` says that no slash follows. -/
def step (file last : Bool) (stack : Stack) (segment : Text) : Stack :=
  if isParent segment then if last then [] :: up stack else up stack
  else if isCurrent segment then if last then [] :: stack else stack
  else kept file stack segment :: stack

/-- Reads segments. -/
def walk (file : Bool) : Stack → List Text → Stack
  | stack, [] => stack
  | stack, [segment] => step file true stack segment
  | stack, segment :: next :: rest => walk file (step file false stack segment) (next :: rest)

/-- **`segments file special s`** — the segments of the path that follows the root slash; a backslash
is a slash in schemes with a fixed set of rules. -/
def segments (file special : Bool) (s : Text) : Stack :=
  let s := if special then s.map fun c => if c = '\\' then '/' else c else s
  walk file [] (Text.pieces '/' (encodePath s))

/-- **`render`** — the path with the given segments. -/
def render (stack : Stack) : Text := '/' :: Text.joinWith ['/'] stack.reverse

/-- A file path with the given segments. -/
def renderFile (stack : Stack) : Text := '/' :: (render stack).dropWhile (· == '/')

/-- The path starts with the name of a drive. -/
def hasDrive (stack : Stack) : Bool := stack.getLast?.any isDrive

end UriRouting.Url.Path
