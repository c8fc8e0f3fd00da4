/-
# UriRouting.Http.Target — the target of a request and its query

A request names its target in one of four forms: a path that starts with `/`, perhaps with a query;
an absolute URI, of which path and query count; an authority alone, whose path is empty; or a star.
A fragment is dropped, and what stands in it does not matter.

Paths and queries may hold more than the grammar of URIs allows, every character outside ASCII among
it, but no blanks, controls or angle brackets.

A query lists pairs of name and value.  Pairs are separated by `&`, a name ends at the first `=`, a
blank is written `+`, and all other characters outside letters, digits and `* - . _` are percent-coded
bytes.  `Form.render` writes pairs, `Form.read` takes any text: empty parts are skipped, a part
without `=` has an empty value, and bytes that are not UTF-8 become U+FFFD.
-/
import UriRouting.Percent
import UriRouting.Text.Basic

namespace UriRouting.Http

/-- **`Target`** — the path of a request, and its query if it has one. -/
structure Target where
  path : Text
  query : Option Text := none
  deriving DecidableEq, Repr, Inhabited

namespace Target

/-- The characters of a path. -/
def isPathChar (c : Char) : Bool :=
  '!' ≤ c && c != '#' && c != '<' && c != '>' && c != '?' && c != '`'

/-- The characters of a query. -/
def isQueryChar (c : Char) : Bool :=
  '!' ≤ c && c != '"' && c != '#' && c != '<' && c != '>'

/-- The query at the front of a text that a fragment may follow. -/
def queryAt (s : Text) : Option Text :=
  match s.span isQueryChar with
  | (query, []) => some query
  | (query, '#' :: _) => some query
  | _ => none

/-- The path and query at the front of a text that a fragment may follow. -/
def pathAt (s : Text) : Option Target :=
  match s.span isPathChar with
  | (path, []) => some ⟨path, none⟩
  | (path, '#' :: _) => some ⟨path, none⟩
  | (path, '?' :: rest) => (queryAt rest).map fun query => ⟨path, some query⟩
  | _ => none

/-- The characters of a scheme. -/
def isSchemeChar (c : Char) : Bool := c.isAlphanum || c == '+' || c == '-' || c == '.'

/-- The longest name that a scheme may have. -/
def schemeLimit : Nat := 64

/-- What a text says about its scheme. -/
inductive SchemePart
  /-- it has none -/
  | absent
  /-- its name is too long -/
  | tooLong
  /-- the text after the scheme and its `://` -/
  | before (rest : Text)

/-- The scheme at the front of a text. -/
def schemePart (s : Text) : SchemePart :=
  match s.span isSchemeChar with
  | (name, ':' :: '/' :: '/' :: rest) =>
    if name.length + rest.length = 0 then .absent
    else if schemeLimit < name.length then .tooLong
    else .before rest
  | _ => .absent

/-- The characters at which an authority ends. -/
def endsAuthority (c : Char) : Bool := c == '/' || c == '?' || c == '#'

/-- The characters of an authority, besides the percent sign. -/
def isAuthorityChar (c : Char) : Bool :=
  c.isAlphanum ||
    c ∈ ['!', '$', '&', '\'', '(', ')', '*', '+', ',', '-', '.', ':', ';', '=', '@', '[', ']', '_',
      '~']

/-- What has been seen of an authority: the colons and percent signs that are not yet known to stand
before an `@` or inside brackets, and the brackets. -/
structure AuthorityState where
  colons : Nat := 0
  percent : Bool := false
  opened : Bool := false
  closed : Bool := false

/-- The most colons that may follow each other before an `@` or a closing bracket. -/
def colonLimit : Nat := 8

/-- One more character of an authority. -/
def AuthorityState.step (st : AuthorityState) (c : Char) : Option AuthorityState :=
  if c = ':' then
    if colonLimit ≤ st.colons then none else some { st with colons := st.colons + 1 }
  else if c = '[' then
    if st.percent || st.opened then none else some { st with opened := true }
  else if c = ']' then
    if !st.opened || st.closed then none
    else some { st with closed := true, colons := 0, percent := false }
  else if c = '@' then some { st with colons := 0, percent := false }
  else if c = '%' then some { st with percent := true }
  else if isAuthorityChar c then some st
  else none

/-- **`isAuthority s`** — the text is the authority of a URI, perhaps the empty one. -/
def isAuthority (s : Text) : Bool :=
  match s.foldlM AuthorityState.step {} with
  | none => false
  | some st => st.opened == st.closed && st.colons ≤ 1 && !st.percent && s.getLast? != some '@'

/-- The path of an absolute URI is not empty. -/
def rooted (t : Target) : Target := if t.path = [] then { t with path := ['/'] } else t

/-- The target that an absolute URI names, from its authority on. -/
def ofAuthority (s : Text) : Option Target :=
  let authority := s.takeWhile fun c => !endsAuthority c
  if authority ≠ [] ∧ isAuthority authority then (pathAt (s.drop authority.length)).map rooted
  else none

/-- The longest target, in bytes. -/
def lengthLimit : Nat := 65534

/-- **`read s`** — the target that a request names. -/
def read (s : Text) : Option Target :=
  if lengthLimit < Text.width s then none
  else match s with
    | [] => none
    | ['*'] => some ⟨['*'], none⟩
    | '/' :: _ => pathAt s
    | _ =>
      match schemePart s with
      | .tooLong => none
      | .before rest => ofAuthority rest
      | .absent => if isAuthority s then some ⟨[], none⟩ else none

end Target

end UriRouting.Http

namespace UriRouting.Http.Form

/-- The characters that stand for themselves. -/
def isPlain (c : Char) : Bool :=
  c.isAlphanum || c == '*' || c == '-' || c == '.' || c == '_'

/-- A name or value in form encoding. -/
def encode (t : Text) : Text :=
  t.flatMap fun c =>
    if c = ' ' then ['+']
    else if isPlain c then [c] else (Text.Utf8.encodeChar c).flatMap Percent.escape

/-- **`render pairs`** — the pairs as a query string. -/
def render (pairs : List (Text × Text)) : Text :=
  Text.joinWith ['&'] (pairs.map fun (name, value) => encode name ++ ['='] ++ encode value)

/-- The text that a name or value in form encoding stands for. -/
def decode (t : Text) : Text :=
  let spaced := t.map fun c => if c = '+' then ' ' else c
  Text.Utf8.decodeLossy (Percent.decodeBytes (Text.Utf8.encode spaced))

/-- The pair that one part of a query string writes. -/
def pair (part : Text) : Text × Text :=
  match Text.cutAt '=' part with
  | some (name, value) => (decode name, decode value)
  | none => (decode part, [])

/-- **`read query`** — the pairs of a query string, in order. -/
def read (query : Text) : List (Text × Text) :=
  ((Text.pieces '&' query).filter (· ≠ [])).map pair

end UriRouting.Http.Form
