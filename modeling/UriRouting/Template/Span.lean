/-
# UriRouting.Template.Span — where the expressions of a template stand

Scanning from left to right, every opening brace outside an earlier expression that has a closing
brace behind it starts an expression, which ends at the first such closing brace.  The text between
expressions is kept in gaps.  Nothing is lost: the spans of a text, written one after another, give
the text again (`flatten_ofText`).

A text that is no template is refused with the place or the expression at fault; positions are byte
offsets in the UTF-8 form of the template.  `TemplateError.message` is the wording shown to whoever
wrote the template.
-/
import UriRouting.Text.Basic

namespace UriRouting

/-- **`TemplateError`** — the ways in which reading or compiling a template fails. -/
inductive TemplateError
  | emptyTemplate
  | unterminatedExpression (position : Nat)
  | unexpectedClosingBrace (position : Nat)
  | emptyVariableName (expression : Text)
  | invalidVariableName (expression : Text) (found : Char)
  | unknownModifier (expression modifier : Text)
  | unsupportedExpression (expression : Text)
  | misplacedWildcard (position : Nat)
  | invalidRegex (text : Text)
  | groupMismatch (tokens groups : Nat)
  deriving DecidableEq, Repr, Inhabited

/-- The text in single quotes. -/
def Text.inQuotes (t : Text) : Text := ['\''] ++ t ++ ['\'']

namespace TemplateError

open Text (ofString inQuotes)

/-- **`message`** — the error in words. -/
def message : TemplateError → Text
  | emptyTemplate => ofString "URI template cannot be empty"
  | unterminatedExpression p =>
    ofString "unterminated expression starting at position " ++ Text.Decimal.ofNat p
  | unexpectedClosingBrace p =>
    ofString "unexpected closing brace at position " ++ Text.Decimal.ofNat p
  | emptyVariableName e => ofString "empty variable name in expression " ++ inQuotes e
  | invalidVariableName e c =>
    ofString "invalid character " ++ inQuotes [c] ++ ofString " in variable name of expression "
      ++ inQuotes e
  | unknownModifier e m =>
    ofString "unknown modifier " ++ inQuotes m ++ ofString " in expression " ++ inQuotes e
  | unsupportedExpression e => ofString "unsupported expression " ++ inQuotes e
  | misplacedWildcard p =>
    ofString "wildcard '*' is only allowed at the end of the template (found at position "
      ++ Text.Decimal.ofNat p ++ [')']
  | invalidRegex t => ofString "invalid pattern regex: " ++ t
  | groupMismatch tokens groups =>
    ofString "pattern has " ++ Text.Decimal.ofNat groups ++ ofString " capture groups for "
      ++ Text.Decimal.ofNat tokens ++ ofString " tokens"

end TemplateError

end UriRouting

namespace UriRouting.Template

/-- **`Span`** — a part of a template text: a gap, never empty, or an expression with its braces. -/
inductive Span
  | gap (text : Text)
  | expression (text : Text)
  deriving DecidableEq, Repr

namespace Span

def text : Span → Text
  | gap t => t
  | expression t => t

/-- The spans with a gap in front, if there is text for one. -/
def consGap : Text → List Span → List Span
  | [], spans => spans
  | c :: r, spans => gap (c :: r) :: spans

/-- **`scan inside t`** — cuts `t` into the text up to the next brace that matters and the spans
after it.  Inside an expression that is its closing brace, which stays with the expression; outside
it is the next opening brace that has a closing one behind it. -/
def scan : Bool → Text → Text × List Span
  | _, [] => ([], [])
  | true, c :: r =>
    if c = '}' then
      let (g, spans) := scan false r
      (['}'], consGap g spans)
    else
      let (body, spans) := scan true r
      (c :: body, spans)
  | false, c :: r =>
    if c = '{' ∧ '}' ∈ r then
      let (body, spans) := scan true r
      ([], expression (c :: body) :: spans)
    else
      let (g, spans) := scan false r
      (c :: g, spans)

/-- **`ofText t`** — the spans of a template text. -/
def ofText (t : Text) : List Span :=
  let (g, spans) := scan false t
  consGap g spans

/-- The text that the spans were cut from. -/
def flatten (spans : List Span) : Text := spans.flatMap text

@[simp] theorem flatten_consGap (g : Text) (spans : List Span) :
    flatten (consGap g spans) = g ++ flatten spans := by
  cases g <;> simp [consGap, flatten, text]

theorem scan_append_flatten (inside : Bool) (t : Text) :
    (scan inside t).1 ++ flatten (scan inside t).2 = t := by
  induction t generalizing inside with
  | nil => cases inside <;> simp [scan, flatten]
  | cons c r ih =>
    cases inside with
    | true =>
      by_cases h : c = '}'
      · simp [scan, h, ih]
      · simp [scan, h, ih]
    | false =>
      by_cases h : c = '{' ∧ '}' ∈ r
      · have := ih true
        simp only [scan, h, and_self, if_true]
        simpa [flatten, text] using this
      · simp [scan, h, ih]

/-- Cutting into spans keeps every character in its place. -/
theorem flatten_ofText (t : Text) : flatten (ofText t) = t := by
  simp [ofText, scan_append_flatten]

end Span

end UriRouting.Template
