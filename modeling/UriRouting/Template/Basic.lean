/-
# UriRouting.Template.Basic — from a text to the tokens of a template

`digest` cuts a text into gaps and expressions, checks every gap, and asks a token factory for the
token of every expression; a star that ends the text is handed to the factory as the expression `*`.
Checks and factory calls happen in the order of the text, so the leftmost fault is the one reported.

A gap may hold no brace, and a star only as the very last character of the template.  A template
keeps its source text: two templates are equal when they are written alike.
-/
import UriRouting.Template.Expression
import UriRouting.Template.Span

namespace UriRouting

namespace Template

/-- **`checkGap last position gap`** — the first character of a gap that may not stand there, with
its byte position; `last` says that no expression follows. -/
def checkGap (last : Bool) : Nat → Text → Except TemplateError Unit
  | _, [] => .ok ()
  | position, c :: r =>
    if c = '{' then .error (.unterminatedExpression position)
    else if c = '}' then .error (.unexpectedClosingBrace position)
    else if c = '*' ∧ ¬(last = true ∧ r = []) then .error (.misplacedWildcard position)
    else checkGap last (position + c.utf8Size) r

/-- The literal token for a text, if there is any text. -/
def literal? : Text → List Token
  | [] => []
  | c :: r => [.literal (c :: r)]

/-- The tokens of the gap that ends a template: its text, and the factory's token for a last
star. -/
def lastGap (factory : TokenFactory) (gap : Text) : Except TemplateError (List Token) :=
  match Text.stripLast '*' gap with
  | none => .ok [.literal gap]
  | some head => do
    let star ← factory ['*']
    return literal? head ++ [star]

/-- **`digestSpans`** — the tokens of spans that start at a byte position. -/
def digestSpans (factory : TokenFactory) : Nat → List Span → Except TemplateError (List Token)
  | _, [] => .ok []
  | position, [.gap g] => do
    checkGap true position g
    lastGap factory g
  | position, .gap g :: spans => do
    checkGap false position g
    let tokens ← digestSpans factory (position + Text.width g) spans
    return .literal g :: tokens
  | position, .expression e :: spans => do
    let token ← factory e
    let tokens ← digestSpans factory (position + Text.width e) spans
    return token :: tokens

/-- **`digest factory t`** — the tokens of the template written `t`. -/
def digest (factory : TokenFactory) (t : Text) : Except TemplateError (List Token) :=
  match t with
  | [] => .error .emptyTemplate
  | t => digestSpans factory 0 (Span.ofText t)

end Template

/-- **`Template`** — a template as written and the tokens it was read as. -/
structure Template where
  source : Text
  tokens : List Token
  deriving Repr, Inhabited

namespace Template

/-- Reads a template with a given token factory. -/
def parseWith (factory : TokenFactory) (t : Text) : Except TemplateError Template := do
  return ⟨t, ← digest factory t⟩

/-- Reads a template in the standard expression syntax. -/
def parse (t : Text) : Except TemplateError Template := parseWith Expression.read t

/-- Two templates are equal when they are written alike. -/
instance : BEq Template := ⟨fun a b => a.source == b.source⟩

/-- **`expand`** — the text of the template for given values. -/
def expand (template : Template) (params : Params) : Text :=
  template.tokens.flatMap (Token.expand params)

/-- The tokens written in template syntax, one after another. -/
def render (template : Template) : Text := template.tokens.flatMap Token.render

/-- The variables of the template, in the order of their tokens. -/
def vars (template : Template) : List Variable := template.tokens.filterMap Token.var?

end Template

end UriRouting
