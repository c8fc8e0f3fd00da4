/-
# UriRouting.Url.Basic — absolute URLs

`Url.read` reads an absolute URL as browsers do.  Controls and blanks around it, and tabs and line
ends inside it, do not count.  What follows the scheme depends on it: the schemes of the web have a
host whatever the number of slashes, files have a host only after two slashes, and in every other
scheme two slashes announce a host and no slash at all a path without structure.

A user name and password are dropped, as is a fragment; a port that is the known one of its scheme is
not kept.
-/
import UriRouting.Text.Basic
import UriRouting.Url.Host
import UriRouting.Url.Path

namespace UriRouting

/-- **`Url`** — an absolute URL without user and fragment. -/
structure Url where
  scheme : Text
  host : Option Url.Host := none
  port : Option Nat := none
  path : Text
  query : Option Text := none
  deriving DecidableEq, Repr, Inhabited

namespace Url

/-- **`Kind`** — the rules that a scheme follows. -/
inductive Kind
  | web
  | file
  | other
  deriving DecidableEq, Repr, Inhabited

/-- The kind has a fixed set of rules. -/
def Kind.isSpecial (k : Kind) : Bool := k != other

/-- The known ports of schemes. -/
def knownPorts : List (Text × Nat) :=
  [(Text.ofString "http", 80), (Text.ofString "ws", 80), (Text.ofString "https", 443),
   (Text.ofString "wss", 443), (Text.ofString "ftp", 21)]

/-- The known port of a scheme. -/
def knownPort (scheme : Text) : Option Nat := knownPorts.lookup scheme

/-- The rules that a scheme, in lower case, follows. -/
def Kind.ofScheme (scheme : Text) : Kind :=
  if scheme = Text.ofString "file" then file
  else if (knownPort scheme).isSome then web
  else other

/-- Without what does not count. -/
def clean (s : Text) : Text :=
  (Text.trimWith (fun c => c.toNat ≤ 0x20) s).filter fun c => c != '\t' && c != '\n' && c != '\r'

/-- The characters of a scheme. -/
def isSchemeChar (c : Char) : Bool := c.isAlphanum || c == '+' || c == '-' || c == '.'

/-- The scheme at the front of a text, in lower case, and what follows its colon. -/
def scheme? (s : Text) : Option (Text × Text) :=
  match s with
  | [] => none
  | c :: _ =>
    if c.isAlpha then
      match s.span isSchemeChar with
      | (name, ':' :: rest) => some (Text.lower name, rest)
      | _ => none
    else none

/-- The text before the query and the fragment, and the text from there on. -/
def beforeQuery (s : Text) : Text × Text := s.span fun c => c != '?' && c != '#'

/-- The query at the front of a text. -/
def query? (special : Bool) : Text → Option Text
  | '?' :: rest => some (encodeQuery special (rest.takeWhile (· != '#')))
  | _ => none

/-- The host at the front of an authority, up to the colon outside brackets. -/
def hostText : Bool → Text → Text × Text
  | _, [] => ([], [])
  | inside, c :: r =>
    if c = ':' ∧ inside = false then ([], c :: r)
    else
      let (host, rest) := hostText (c = '[' || (inside && c != ']')) r
      (c :: host, rest)

/-- The largest port. -/
def portLimit : Nat := 65535

/-- The port, if there is a number, and what follows it; only a backslash may. -/
def portAt (s : Text) : Except UrlError (Option Nat × Text) :=
  let (digits, rest) := s.span Char.isDigit
  let n := Text.Decimal.value 0 digits
  if portLimit < n then .error .invalidPort
  else
    match rest with
    | [] | '\\' :: _ => .ok (if digits = [] then none else some n, rest)
    | _ => .error .invalidPort

/-- **`Authority`** — host and port, and the rest of the text that they were read from. -/
structure Authority where
  host : Option Host
  port : Option Nat
  rest : Text

/-- The authority without its user; `followed` says that text follows the authority. -/
def withoutUser (followed : Bool) (s : Text) : Except UrlError (Bool × Text) :=
  match Text.cutAtLast '@' s with
  | none => .ok (false, s)
  | some ([], rest) => if rest = [] ∧ followed then .error .emptyHost else .ok (false, rest)
  | some (user, rest) => .ok (user ≠ [':'], rest)

variable [Idna]

/-- The host of an authority. -/
def hostAt (kind : Kind) (s : Text) : Except UrlError (Option Host) :=
  match s with
  | [] => if kind.isSpecial then .error .emptyHost else .ok none
  | s => some <$> if kind.isSpecial then Host.special s else Host.plain s

/-- **`authority kind followed s`** — reads an authority. -/
def authority (kind : Kind) (followed : Bool) (s : Text) : Except UrlError Authority := do
  let (user, s) ← withoutUser followed s
  let (name, rest) := hostText false s
  let h ← hostAt kind name
  match h, rest with
  | none, ':' :: _ => throw .emptyHost
  | _, ':' :: s =>
    let (p, rest) ← portAt s
    return ⟨h, p, rest⟩
  | none, rest => if user then throw .emptyHost else return ⟨none, none, rest⟩
  | h, rest => return ⟨h, none, rest⟩

/-- The port, unless it is the known one. -/
def unknownPort (scheme : Text) (p : Option Nat) : Option Nat :=
  if p = knownPort scheme then none else p

/-- The path after an authority. -/
def pathAfter (kind : Kind) (s : Text) : Text :=
  match s with
  | [] => if kind.isSpecial then ['/'] else []
  | c :: rest =>
    if c = '/' ∨ (kind.isSpecial ∧ c = '\\') then
      Path.render (Path.segments false kind.isSpecial rest)
    else Path.render (Path.segments false kind.isSpecial (c :: rest))

/-- The character is a slash under the rules of a kind. -/
def isSlash (kind : Kind) (c : Char) : Bool := c == '/' || (kind.isSpecial && c == '\\')

/-- Reads a URL from its authority on. -/
def fromAuthority (kind : Kind) (scheme s : Text) : Except UrlError Url := do
  let (body, tail) := beforeQuery s
  let (front, path) := body.span fun c => !isSlash kind c
  let a ← authority kind (!path.isEmpty || !tail.isEmpty) front
  return {
    scheme
    host := a.host
    port := unknownPort scheme a.port
    path := pathAfter kind (a.rest ++ path)
    query := query? kind.isSpecial tail }

/-- The host of a file; the local one is none. -/
def fileHost (s : Text) : Except UrlError (Option Host) :=
  match s with
  | [] => .ok none
  | s => do
    let h ← Host.special s
    return if h = .name (Text.ofString "localhost") then none else some h

/-- The host of a file and the path after its root, from what follows two slashes. -/
def hostedFile (s : Text) : Except UrlError (Option Host × Text) :=
  let (front, path) := s.span fun c => !isSlash .file c
  if Path.isDrive front then .ok (none, s)
  else do return (← fileHost front, path.drop 1)

/-- The host of a file and the path after its root. -/
def filePlace (s : Text) : Except UrlError (Option Host × Text) :=
  match s with
  | a :: b :: rest =>
    if isSlash .file a then
      if isSlash .file b then hostedFile rest else .ok (none, b :: rest)
    else .ok (none, a :: b :: rest)
  | [a] => .ok (none, if isSlash .file a then [] else [a])
  | [] => .ok (none, [])

/-- Reads the URL of a file after its scheme; a path that starts with a drive has no host. -/
def ofFile (scheme s : Text) : Except UrlError Url := do
  let (body, tail) := beforeQuery s
  let (h, path) ← filePlace body
  let segments := Path.segments true true path
  return {
    scheme
    host := if Path.hasDrive segments then none else h
    path := Path.renderFile segments
    query := query? true tail }

/-- Reads a URL of any other scheme after it. -/
def ofOther (scheme s : Text) : Except UrlError Url :=
  match s with
  | '/' :: '/' :: rest => fromAuthority .other scheme rest
  | '/' :: rest =>
    let (body, tail) := beforeQuery rest
    .ok { scheme, path := Path.render (Path.segments false false body), query := query? false tail }
  | s =>
    let (body, tail) := beforeQuery s
    .ok { scheme, path := encodeOpaque body, query := query? false tail }

/-- **`read s`** — the absolute URL that a text writes. -/
def read (s : Text) : Except UrlError Url :=
  match scheme? (clean s) with
  | none => .error .relativeWithoutBase
  | some (scheme, rest) =>
    match Kind.ofScheme scheme with
    | .web => fromAuthority .web scheme (rest.dropWhile (isSlash .web))
    | .file => ofFile scheme rest
    | .other => ofOther scheme rest

end Url

end UriRouting
