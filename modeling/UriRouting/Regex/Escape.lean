/-
# UriRouting.Regex.Escape — flags, blanks and escapes

The reader of regular expressions keeps the flags in force.  In verbose mode blanks and comments
between the parts of an expression are skipped (`Flags.skip`).  `escape` reads what follows a
backslash: a character given by name or number, a class, or a question about the place.
-/
import UriRouting.Regex.Basic
import UriRouting.Percent

namespace UriRouting.Regex

/-- **`Flags`** — the modes that an expression can switch. -/
structure Flags where
  ignoreCase : Bool := false
  multiLine : Bool := false
  dotAll : Bool := false
  swapGreed : Bool := false
  unicode : Bool := true
  crlf : Bool := false
  verbose : Bool := false
  deriving DecidableEq, Repr, Inhabited

/-- The text after blanks and comments; the first argument says that a comment is open. -/
def skipIgnored : Bool → Text → Text
  | _, [] => []
  | true, c :: r => skipIgnored (c != '\n') r
  | false, c :: r =>
    if Text.isBlank c then skipIgnored false r
    else if c = '#' then skipIgnored true r
    else c :: r

/-- The text after what verbose mode skips. -/
def Flags.skip (f : Flags) (s : Text) : Text := if f.verbose then skipIgnored false s else s

/-- A set under the case mode. -/
def Flags.inCase (f : Flags) (s : Charset) : Charset :=
  if f.ignoreCase then
    if f.unicode then .anyCase s else .asciiCase s
  else s

/-- **`Atom`** — what a single character or an escape stands for. -/
inductive Atom
  | char (c : Char)
  | set (s : Charset)
  | look (l : Look)
  deriving DecidableEq, Repr, Inhabited

/-- The number written by a run of hexadecimal digits, if it is a character. -/
def charOfHex (digits : Text) : Except RegexError Char :=
  let n := Percent.hexNumber digits
  if digits = [] ∨ 6 < (digits.dropWhile (· == '0')).length then .error .badEscape
  else if n < 0xD800 ∨ (0xDFFF < n ∧ n ≤ 0x10FFFF) then .ok (Char.ofNat n)
  else .error .badEscape

/-- Takes `count` hexadecimal digits off the front. -/
def hexDigits (f : Flags) : Nat → Text → Except RegexError (Text × Text)
  | 0, s => .ok ([], s)
  | count + 1, s =>
    match f.skip s with
    | [] => .error .badEscape
    | c :: r =>
      if (Percent.hexValue c).isSome then do
        let (ds, r) ← hexDigits f count r
        return (c :: ds, r)
      else .error .badEscape

/-- Takes characters that may stand in braces off the front, up to the closing brace. -/
def toBrace (f : Flags) (allowed : Char → Bool) : Nat → Text → Except RegexError (Text × Text)
  | 0, _ => .error .badEscape
  | fuel + 1, s =>
    match f.skip s with
    | [] => .error .badEscape
    | '}' :: r => .ok ([], r)
    | c :: r =>
      if allowed c then do
        let (cs, r) ← toBrace f allowed fuel r
        return (c :: cs, r)
      else .error .badEscape

/-- A character given by its number, after the letter that says how many digits follow. -/
def hexEscape (f : Flags) (count : Nat) (s : Text) : Except RegexError (Atom × Text) :=
  match f.skip s with
  | '{' :: r => do
    let (ds, r) ← toBrace f (fun c => (Percent.hexValue c).isSome) (r.length + 1) r
    return (.char (← charOfHex ds), r)
  | s => do
    let (ds, r) ← hexDigits f count s
    let c ← charOfHex ds
    if !f.unicode && count == 2 && 0x7F < c.toNat then .error .bytesNotText
    else return (.char c, r)

/-- A class that a letter names, or its complement. -/
def perlClass (f : Flags) (negated : Bool) (unicode ascii : Charset) (r : Text) :
    Except RegexError (Atom × Text) :=
  if f.unicode then .ok (.set (if negated then .complement unicode else unicode), r)
  else if negated then .error .bytesNotText
  else .ok (.set ascii, r)

/-- The name of a class: one character, or several in braces. -/
def propertyName (f : Flags) (s : Text) : Except RegexError (Text × Text) :=
  match f.skip s with
  | [] => .error .badEscape
  | '{' :: r => toBrace f (fun _ => true) (r.length + 1) r
  | c :: r => if c = '\\' then .error .unknownClass else .ok ([c], r)

/-- A class that a name names, or its complement; without Unicode there are no such classes. -/
def propertyClass [Unicode] (f : Flags) (negated : Bool) (s : Text) :
    Except RegexError (Atom × Text) := do
  let (name, r) ← propertyName f s
  if !f.unicode || (Unicode.property? name).isNone then .error .unknownClass
  else
    let s := f.inCase (.property name)
    return (.set (if negated then .complement s else s), r)

/-- The letters of the special word boundaries. -/
def isBoundaryNameChar (c : Char) : Bool := c.isAlpha || c == '-'

/-- Takes the name of a special word boundary off the front. -/
def boundaryName (f : Flags) : Nat → Text → Text × Text
  | 0, s => ([], s)
  | fuel + 1, s =>
    match s with
    | c :: r =>
      if isBoundaryNameChar c then
        let (n, r) := boundaryName f fuel (f.skip r)
        (c :: n, r)
      else ([], c :: r)
    | [] => ([], [])

/-- A word boundary, which a name in braces may make special. -/
def boundary (f : Flags) (s : Text) : Except RegexError (Atom × Text) :=
  match s with
  | '{' :: r =>
    match f.skip r with
    | [] => .error .badEscape
    | c :: r' =>
      if isBoundaryNameChar c then
        match boundaryName f (r'.length + 2) (c :: r') with
        | (n, '}' :: rest) =>
          match String.ofList n with
          | "start" => .ok (.look (.wordStart !f.unicode), rest)
          | "end" => .ok (.look (.wordEnd !f.unicode), rest)
          | "start-half" => .ok (.look (.wordStartHalf !f.unicode), rest)
          | "end-half" => .ok (.look (.wordEndHalf !f.unicode), rest)
          | _ => .error .badEscape
        | _ => .error .badEscape
      else .ok (.look (.wordBoundary !f.unicode), s)
  | s => .ok (.look (.wordBoundary !f.unicode), s)

/-- Characters that a backslash turns into themselves: ASCII without letters, digits and the angle
brackets. -/
def isEscapable (c : Char) : Bool := c.toNat < 0x80 && !c.isAlphanum && c != '<' && c != '>'

/-- **`escape f s`** — what the text after a backslash stands for. -/
def escape [Unicode] (f : Flags) : Text → Except RegexError (Atom × Text)
  | [] => .error .badEscape
  | c :: r =>
    match c with
    | 'x' => hexEscape f 2 r
    | 'u' => hexEscape f 4 r
    | 'U' => hexEscape f 8 r
    | 'd' => perlClass f false .digit (.ranges asciiDigits) r
    | 'D' => perlClass f true .digit (.ranges asciiDigits) r
    | 's' => perlClass f false .space .asciiSpace r
    | 'S' => perlClass f true .space .asciiSpace r
    | 'w' => perlClass f false .word (.ranges asciiWords) r
    | 'W' => perlClass f true .word (.ranges asciiWords) r
    | 'p' => propertyClass f false r
    | 'P' => propertyClass f true r
    | 'a' => .ok (.char (Char.ofNat 0x07), r)
    | 'f' => .ok (.char (Char.ofNat 0x0C), r)
    | 't' => .ok (.char '\t', r)
    | 'n' => .ok (.char '\n', r)
    | 'r' => .ok (.char '\r', r)
    | 'v' => .ok (.char (Char.ofNat 0x0B), r)
    | 'A' => .ok (.look .textStart, r)
    | 'z' => .ok (.look .textEnd, r)
    | 'b' => boundary f r
    | 'B' => .ok (.look (.notWordBoundary !f.unicode), r)
    | '<' => .ok (.look (.wordStart !f.unicode), r)
    | '>' => .ok (.look (.wordEnd !f.unicode), r)
    | c =>
      if c.isDigit then .error .backReference
      else if isEscapable c then .ok (.char c, r)
      else .error .badEscape

end UriRouting.Regex
