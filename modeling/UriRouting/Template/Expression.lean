/-
# UriRouting.Template.Expression — from an expression to a token

An expression is what a template writes between braces, braces included, or the bare `*` that ends
a template.  Between the braces stands, with blanks allowed where `_` is written,

    _ [/] [type _ : _] name _ [*] _ [= default] [| _ modifier] _

where type, name and modifier are runs of the characters `A-Z a-z 0-9 _ . -`, the default is any
text without `|` and is trimmed, and the only modifier is `encode`.  A slash needs the star, and
neither of them goes with a modifier.

The reader goes through the parts from left to right; each step returns what it found and the text
that is left, and the first part that does not fit decides the error.
-/
import UriRouting.Template.Token
import UriRouting.Template.Span
import UriRouting.Text.Basic

namespace UriRouting

/-- **`TokenFactory`** — turns an expression into a token, or says why it is none. -/
abbrev TokenFactory := Text → Except TemplateError Token

namespace Expression

open Text (dropBlank trim isBlank)

/-- The characters of names, types and modifiers. -/
def isNameChar (c : Char) : Bool := c.isAlphanum || c == '_' || c == '-' || c == '.'

/-- The text between the braces of an expression. -/
def body? : Text → Option Text
  | '{' :: rest => Text.stripLast '}' rest
  | _ => none

/-- Takes `c` off the front, and says whether it was there. -/
def accept (c : Char) : Text → Bool × Text
  | [] => (false, [])
  | d :: r => if d = c then (true, r) else (false, d :: r)

/-- Takes the longest run of name characters off the front. -/
def identifier (s : Text) : Text × Text := (s.takeWhile isNameChar, s.dropWhile isNameChar)

/-- The error for a place where a name must start and `s` stands instead. -/
def missingName (expression : Text) : Text → TemplateError
  | [] => .emptyVariableName expression
  | c :: _ =>
    if c = ':' ∨ c = '*' ∨ c = '=' ∨ c = '|' ∨ isBlank c then .emptyVariableName expression
    else .invalidVariableName expression c

/-- Takes a non-empty name off the front. -/
def name (expression s : Text) : Except TemplateError (Text × Text) :=
  match identifier s with
  | ([], _) => .error (missingName expression s)
  | (n, rest) => .ok (n, rest)

/-- The name of the only modifier. -/
def encodeWord : Text := ['e', 'n', 'c', 'o', 'd', 'e']

/-- Takes a modifier off the front of what follows its bar. -/
def modifier (expression s : Text) : Except TemplateError (Modifier × Text) :=
  let (word, rest) := identifier (dropBlank s)
  if word = encodeWord then .ok (.encoded, rest)
  else .error (.unknownModifier expression word)

/-- Takes the type, if one is declared, and the name off the front. -/
def typedName (expression s : Text) : Except TemplateError (Option Text × Text × Text) := do
  let (first, s) ← name expression s
  match accept ':' (dropBlank s) with
  | (true, s) =>
    let (second, s) ← name expression (dropBlank s)
    return (some first, second, s)
  | (false, s) => return (none, first, s)

/-- Takes the default value, if one is given, off the front. -/
def defaultValue (s : Text) : Option Text × Text :=
  match accept '=' s with
  | (true, s) => (some (trim (s.takeWhile (· ≠ '|'))), s.dropWhile (· ≠ '|'))
  | (false, s) => (none, s)

/-- Takes the modifier, if a bar announces one, off the front. -/
def optionalModifier (expression s : Text) : Except TemplateError (Modifier × Text) :=
  match accept '|' s with
  | (true, s) => modifier expression s
  | (false, s) => .ok (.plain, s)

/-- The token for a combination of slash, star and modifier. -/
def assemble (expression : Text) (v : Variable) (slash star : Bool) (m : Modifier) :
    Except TemplateError Token :=
  match slash, star, m with
  | false, false, m => .ok (.placeholder v m)
  | false, true, .plain => .ok (.wildcard v .remainder)
  | true, true, .plain => .ok (.wildcard v .segments)
  | _, _, _ => .error (.unsupportedExpression expression)

/-- **`readBody`** — the token that the text between the braces of `expression` stands for. -/
def readBody (expression body : Text) : Except TemplateError Token := do
  let (slash, s) := accept '/' (dropBlank body)
  let (type, name, s) ← typedName expression s
  let (star, s) := accept '*' (dropBlank s)
  let (default, s) := defaultValue (dropBlank s)
  let (m, s) ← optionalModifier expression s
  match dropBlank s with
  | [] => assemble expression ⟨name, type, default⟩ slash star m
  | found :: _ => .error (.invalidVariableName expression found)

/-- **`read`** — the token factory of the standard expression syntax. -/
def read : TokenFactory := fun expression =>
  if expression = ['*'] then .ok (.wildcard Variable.trailing .remainder)
  else match body? expression with
    | none => .error (.unsupportedExpression expression)
    | some body => readBody expression body

end Expression

end UriRouting
