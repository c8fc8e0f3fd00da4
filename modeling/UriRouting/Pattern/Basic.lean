/-
# UriRouting.Pattern.Basic — templates made ready for matching

A pattern is a template together with a regular expression: the fragments of its tokens in order,
anchored at both ends.  `ofTemplate` compiles the expression and checks that it has exactly one
capture group for each token.  A path matches if the expression matches it, and each token then has
the text of its group.

`score` says how specific a pattern is: literal characters raise it, captures lower it, a wildcard
more than a placeholder.
-/
import UriRouting.Regex.Captures
import UriRouting.Regex.Tables
import UriRouting.Template.Basic

namespace UriRouting

/-- The text of the regular expression of a list of tokens. -/
def Pattern.sourceOf (tokens : List Token) : Text :=
  ['^'] ++ tokens.flatMap Token.fragment ++ ['$']

/-- **`Pattern`** — a template, and what its text as a regular expression is compiled to. -/
structure Pattern where
  template : Template
  expression : Regex
  compiled : Regex.compile (Pattern.sourceOf template.tokens) = .ok expression

namespace Pattern

/-- Makes a template ready for matching. -/
def ofTemplate (template : Template) : Except TemplateError Pattern :=
  match h : Regex.compile (sourceOf template.tokens) with
  | .error e => .error (.invalidRegex e.message)
  | .ok r =>
    if r.groupCount = template.tokens.length then .ok ⟨template, r, h⟩
    else .error (.groupMismatch template.tokens.length r.groupCount)

/-- **`compileWith factory t`** — the pattern of the template written `t`. -/
def compileWith (factory : TokenFactory) (t : Text) : Except TemplateError Pattern := do
  ofTemplate (← Template.parseWith factory t)

/-- The pattern of a template in the standard expression syntax. -/
def compile (t : Text) : Except TemplateError Pattern := compileWith Expression.read t

/-- Two patterns are equal when their templates are written alike. -/
instance : BEq Pattern := ⟨fun a b => a.template == b.template⟩

def source (p : Pattern) : Text := p.template.source

def tokens (p : Pattern) : List Token := p.template.tokens

/-- The text of the regular expression of the pattern. -/
def regex (p : Pattern) : Text := sourceOf p.tokens

/-- How many capture groups the regular expression has. -/
def groups (p : Pattern) : Nat := p.expression.groupCount

/-- What a token adds to the score. -/
def tokenScore : Token → Int
  | .literal text => 16 * text.length
  | .placeholder _ _ => -1
  | .wildcard _ _ => -4

/-- **`score p`** — how specific the pattern is. -/
def score (p : Pattern) : Int := p.tokens.foldr (fun token rest => tokenScore token + rest) 0

/-- **`matchesPath p path`** — the path matches the pattern. -/
def matchesPath (p : Pattern) (path : Text) : Bool := p.expression.isMatch path

/-- **`captures p path`** — the text captured for each token, if the path matches and there is a group
for each token.  A group that took no part in the match captured nothing. -/
def captures (p : Pattern) (path : Text) : Option (List Text) :=
  match p.expression.captures path with
  | some groups => if groups.length = p.tokens.length then some (groups.map (·.getD [])) else none
  | none => none

end Pattern

end UriRouting
