/-
# UriRouting.Template.Token — the parts of a URI template

A template is a list of tokens: literal text, placeholders that stand for a piece of one path
segment, and wildcards that stand for everything up to the next token.  A placeholder or wildcard
carries a variable; two occurrences belong to the same variable when they agree in name and declared
type (`Variable.key`), whatever their default values.

`Token.render` writes a token back in template syntax, `Token.expand` writes the text that a token
contributes to an expanded template, and `Token.fragment` is the regular expression, with exactly
one capture group, for the texts that a token matches.

An expansion asks for a text for each variable name.  `Params` is any source of such texts; the
constructors build one from pairs of texts, in which either the first or the last pair of a name
counts, or from the members of a JSON object.  A JSON value becomes text as it would stand in a path:
a string as it is, an array as its items joined by slashes with nulls left out, null as no value, and
anything else as its JSON text.
-/
import UriRouting.Json.Basic

namespace UriRouting

/-- **`Params`** — where the values of an expansion come from: a text for each name that has one. -/
abbrev Params := Text → Option Text

namespace Json

mutual

/-- **`pathText? v`** — the text of a value inside a path. -/
def pathText? : Json → Option Text
  | .null => none
  | .string t => some t
  | .array items => some (Text.joinWith ['/'] (pathTexts items))
  | v => some (render v)

/-- The texts of the items that have one. -/
def pathTexts : List Json → List Text
  | [] => []
  | v :: rest =>
    match pathText? v with
    | none => pathTexts rest
    | some t => t :: pathTexts rest

end

end Json

namespace Params

/-- Pairs of name and value of which the first for a name counts. -/
def ofPairs (pairs : List (Text × Text)) : Params := fun name => pairs.lookup name

/-- Assignments of values to names of which the last to a name counts. -/
def ofAssignments (pairs : List (Text × Text)) : Params := ofPairs pairs.reverse

/-- The members of a JSON object. -/
def ofMembers (members : List (Text × Json)) : Params := fun name =>
  (members.lookup name).bind Json.pathText?

end Params

/-- **`Variable`** — a name, the type declared for it, and the text used when no value is given. -/
structure Variable where
  name : Text
  type : Option Text
  default : Option Text
  deriving DecidableEq, Repr, Inhabited

/-- What identifies a variable: its name and its declared type. -/
def Variable.key (v : Variable) : Text × Option Text := (v.name, v.type)

/-- **`Modifier`** — how the value of a placeholder is written. -/
inductive Modifier
  /-- verbatim -/
  | plain
  /-- percent-encoded -/
  | encoded
  deriving DecidableEq, Repr, Inhabited

/-- **`Form`** — what a wildcard binds. -/
inductive Form
  /-- all of its text -/
  | remainder
  /-- the list of the path segments in its text -/
  | segments
  deriving DecidableEq, Repr, Inhabited

/-- **`Token`** — one part of a template. -/
inductive Token
  | literal (text : Text)
  | placeholder (v : Variable) (modifier : Modifier)
  | wildcard (v : Variable) (form : Form)
  deriving DecidableEq, Repr, Inhabited

/-- The name of the variable that a trailing `*` binds. -/
def Variable.wildcardName : Text := ['w', 'i', 'l', 'd', 'c', 'a', 'r', 'd']

/-- The variable that a trailing `*` binds. -/
def Variable.trailing : Variable := ⟨Variable.wildcardName, none, none⟩

/-- The text used for a variable: the value given, else its default, else nothing. -/
def Variable.effective (v : Variable) (params : Params) : Text :=
  ((params v.name).or v.default).getD []

namespace Token

def isLiteral : Token → Bool
  | literal _ => true
  | _ => false

/-- The variable that a token carries. -/
def var? : Token → Option Variable
  | literal _ => none
  | placeholder v _ => some v
  | wildcard v _ => some v

/-- Two tokens agree if they differ at most in the default value of their variable. -/
def agrees : Token → Token → Bool
  | literal a, literal b => a = b
  | placeholder v m, placeholder w n => v.key = w.key ∧ m = n
  | wildcard v f, wildcard w g => v.key = w.key ∧ f = g
  | _, _ => false

/-- Two lists of tokens agree if their tokens do, one by one. -/
def agreeAll : List Token → List Token → Bool
  | [], [] => true
  | a :: as, b :: bs => a.agrees b && agreeAll as bs
  | _, _ => false

/-- The declared type as it stands before the name. -/
def renderType (v : Variable) : Text :=
  match v.type with
  | none => []
  | some t => t ++ [':']

/-- The default value as it stands after the name. -/
def renderDefault (v : Variable) : Text :=
  match v.default with
  | none => []
  | some d => '=' :: d

/-- **`render`** — the token in template syntax.  An untyped remainder wildcard with the name of the
trailing wildcard is written `*`, without its default. -/
def render : Token → Text
  | literal text => text
  | placeholder v modifier =>
    ['{'] ++ renderType v ++ v.name ++ renderDefault v ++
      (match modifier with
        | .plain => []
        | .encoded => ['|', 'e', 'n', 'c', 'o', 'd', 'e']) ++ ['}']
  | wildcard v .remainder =>
    if v.name = Variable.wildcardName ∧ v.type = none then ['*']
    else ['{'] ++ renderType v ++ v.name ++ ['*'] ++ renderDefault v ++ ['}']
  | wildcard v .segments =>
    ['{', '/'] ++ renderType v ++ v.name ++ ['*'] ++ renderDefault v ++ ['}']

/-- **`expand`** — the text of the token for given values.  A segments wildcard is empty or starts
with exactly one `/`. -/
def expand (params : Params) : Token → Text
  | literal text => text
  | placeholder v .plain => v.effective params
  | placeholder v .encoded => Percent.encode (v.effective params)
  | wildcard v .remainder => v.effective params
  | wildcard v .segments =>
    match v.effective params with
    | [] => []
    | value => '/' :: value.dropWhile (· == '/')

/-- The characters that mean something in a regular expression. -/
def isRegexMeta (c : Char) : Bool :=
  c ∈ ['\\', '.', '+', '*', '?', '(', ')', '|', '[', ']', '{', '}', '^', '$', '#', '&', '-', '~']

/-- The regular expression that matches exactly `text`. -/
def quoteRegex (text : Text) : Text :=
  text.flatMap fun c => if isRegexMeta c then ['\\', c] else [c]

/-- **`fragment`** — the regular expression for the texts that the token matches: one group. -/
def fragment : Token → Text
  | literal text => ['('] ++ quoteRegex text ++ [')']
  | placeholder _ _ => ['(', '[', '^', '/', ']', '+', '?', ')']
  | wildcard _ .remainder => ['(', '(', '?', 's', ':', '.', '*', ')', ')']
  | wildcard _ .segments =>
    ['(', '(', '?', ':', '/', '(', '?', 's', ':', '.', '*', ')', ')', '?', ')']

end Token

end UriRouting
