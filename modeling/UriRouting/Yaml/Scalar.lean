/-
# UriRouting.Yaml.Scalar — scalars

A scalar is written plain, in single or double quotes, or as a block of lines.  Within a scalar that
goes over several lines a single line break counts as a blank and further ones as themselves
(`Folding`); only literal blocks keep every break.
-/
import UriRouting.Yaml.Cursor
import UriRouting.Percent

namespace UriRouting.Yaml

/-- **`Folding`** — blanks and line breaks that were read but not yet added to a scalar. -/
structure Folding where
  blanks : Text := []
  firstBreak : Text := []
  moreBreaks : Text := []
  broken : Bool := false
  deriving DecidableEq, Repr

namespace Folding

/-- What the blanks and breaks add to the scalar. -/
def text (f : Folding) : Text :=
  if f.broken then
    match f.firstBreak with
    | '\n' :: _ => if f.moreBreaks = [] then [' '] else f.moreBreaks
    | first => first ++ f.moreBreaks
  else f.blanks

/-- Adds a line break. -/
def addBreak (f : Folding) (b : Text) : Folding :=
  if f.broken then { f with moreBreaks := f.moreBreaks ++ b }
  else { f with blanks := [], firstBreak := b, broken := true }

end Folding

/-! ## Quoted scalars -/

/-- Reads blanks and line breaks inside quotes. -/
def quotedBlanks : Nat → Folding → Cursor → Folding × Cursor
  | 0, f, c => (f, c)
  | fuel + 1, f, c =>
    match c.rest with
    | [] => (f, c)
    | d :: _ =>
      if isBlank d then
        quotedBlanks fuel (if f.broken then f else { f with blanks := f.blanks ++ [d] }) c.skip
      else if isBreak d then
        let (b, c) := c.takeBreak
        quotedBlanks fuel (f.addBreak b) c
      else (f, c)

/-- The character that an escape of one letter stands for. -/
def simpleEscape (c : Char) : Option Char :=
  match c with
  | '0' => some (Char.ofNat 0)
  | 'a' => some (Char.ofNat 0x07)
  | 'b' => some (Char.ofNat 0x08)
  | 't' => some '\t'
  | '\t' => some '\t'
  | 'n' => some '\n'
  | 'v' => some (Char.ofNat 0x0B)
  | 'f' => some (Char.ofNat 0x0C)
  | 'r' => some '\r'
  | 'e' => some (Char.ofNat 0x1B)
  | ' ' => some ' '
  | '"' => some '"'
  | '/' => some '/'
  | '\\' => some '\\'
  | 'N' => some (Char.ofNat 0x85)
  | '_' => some (Char.ofNat 0xA0)
  | 'L' => some (Char.ofNat 0x2028)
  | 'P' => some (Char.ofNat 0x2029)
  | _ => none

/-- How many hexadecimal digits follow the letter of an escape. -/
def escapeDigits (c : Char) : Option Nat :=
  match c with
  | 'x' => some 2
  | 'u' => some 4
  | 'U' => some 8
  | _ => none

/-- The character of an escape and how many characters it takes after the backslash. -/
def escaped : Text → Except YamlError (Char × Nat)
  | [] => .error .badEscape
  | c :: r =>
    match simpleEscape c with
    | some d => .ok (d, 1)
    | none =>
      match escapeDigits c with
      | none => .error .badEscape
      | some n =>
        let digits := r.take n
        if digits.length = n ∧ digits.all fun d => (Percent.hexValue d).isSome then
          let v := Percent.hexNumber digits
          if v < 0xD800 ∨ (0xDFFF < v ∧ v ≤ 0x10FFFF) then .ok (Char.ofNat v, n + 1)
          else .error .badEscape
        else .error .badEscape

/-- The rest of a quoted scalar after its opening quote, and the place after its closing one.  The
flag says whether double quotes are used, which alone know escapes. -/
def quotedTail (double : Bool) : Nat → Cursor → Except YamlError (Text × Cursor)
  | 0, _ => .error .unclosedScalar
  | fuel + 1, c =>
    if c.atDocumentMark then .error .unclosedScalar
    else match c.rest with
      | [] => .error .unclosedScalar
      | d :: r =>
        if !double && d == '\'' then
          match r with
          | '\'' :: _ => do
            let (t, c) ← quotedTail double fuel (c.skipMany 2)
            return ('\'' :: t, c)
          | _ => .ok ([], c.skip)
        else if double && d == '"' then .ok ([], c.skip)
        else if double && d == '\\' then
          if r.head?.any isBreak then
            -- An escaped line break is left out together with the blanks of the next line.
            let (_, c) := c.skip.takeBreak
            let (f, c) := quotedBlanks (r.length + 1) { broken := true } c
            do
              let (t, c) ← quotedTail double fuel c
              return (f.text ++ t, c)
          else do
            let (e, n) ← escaped r
            let (t, c) ← quotedTail double fuel (c.skipMany (n + 1))
            return (e :: t, c)
        else if isBlank d || isBreak d then
          let (f, c) := quotedBlanks (r.length + 1) {} c
          do
            let (t, c) ← quotedTail double fuel c
            return (f.text ++ t, c)
        else do
          let (t, c) ← quotedTail double fuel c.skip
          return (d :: t, c)

/-! ## Plain scalars -/

/-- The characters that separate and enclose the parts of flow collections. -/
def isFlowMark (c : Char) : Bool := c == ',' || c == '[' || c == ']' || c == '{' || c == '}'

/-- Reads blanks and line breaks after a part of a plain scalar.  A tab may not stand where the next
line is to be indented. -/
def plainBlanks (indent : Int) : Nat → Folding → Cursor → Except YamlError (Folding × Cursor)
  | 0, f, c => .ok (f, c)
  | fuel + 1, f, c =>
    match c.rest with
    | [] => .ok (f, c)
    | d :: _ =>
      if isBlank d then
        if f.broken && decide ((c.column : Int) < indent) && d == '\t' then .error .tabIndentation
        else
          plainBlanks indent fuel (if f.broken then f else { f with blanks := f.blanks ++ [d] })
            c.skip
      else if isBreak d then
        let (b, c) := c.takeBreak
        plainBlanks indent fuel (f.addBreak b) c
      else .ok (f, c)

/-- A plain scalar from a place on; `pending` is what stands between the last part and this place.
The result says whether the scalar was ended by a line break. -/
def plainTail (flow : Bool) (indent : Int) :
    Nat → Folding → Cursor → Except YamlError (Text × Bool × Cursor)
  | 0, pending, c => .ok ([], pending.broken, c)
  | fuel + 1, pending, c =>
    match c.rest with
    | [] => .ok ([], pending.broken, c)
    | d :: r =>
      if isBlank d || isBreak d then do
        let (f, c) ← plainBlanks indent (r.length + 1) pending c
        if !flow && decide ((c.column : Int) < indent) then return ([], f.broken, c)
        else if c.atDocumentMark then return ([], f.broken, c)
        else if c.rest.head? == some '#' then return ([], f.broken, c)
        else plainTail flow indent fuel f c
      else if flow && d == ':' && r.head?.any (fun e => isFlowMark e || e == '?') then
        .error .unexpectedCharacter
      else if (d == ':' && atBlankOrEnd r) || (flow && isFlowMark d) then
        .ok ([], pending.broken, c)
      else do
        let (t, broken, c) ← plainTail flow indent fuel {} c.skip
        return (pending.text ++ d :: t, broken, c)

/-! ## Block scalars -/

/-- What happens to the line breaks that end a block. -/
inductive Chomping
  | strip
  | clip
  | keep
  deriving DecidableEq, Repr

/-- The marks after the sign of a block: what to do with the last breaks, and how far the block is
indented, if that is said. -/
def blockHeader (c : Cursor) : Except YamlError (Chomping × Option Nat × Cursor) :=
  let chomp? : Char → Option Chomping := fun d =>
    if d = '+' then some .keep else if d = '-' then some .strip else none
  match c.rest with
  | d :: r =>
    match chomp? d with
    | some ch =>
      match r with
      | e :: _ =>
        if e = '0' then .error .badBlockHeader
        else if e.isDigit then .ok (ch, some (e.toNat - 48), c.skipMany 2)
        else .ok (ch, none, c.skip)
      | [] => .ok (ch, none, c.skip)
    | none =>
      if d = '0' then .error .badBlockHeader
      else if d.isDigit then
        match r.head?.bind chomp? with
        | some ch => .ok (ch, some (d.toNat - 48), c.skipMany 2)
        | none => .ok (.clip, some (d.toNat - 48), c.skip)
      else .ok (.clip, none, c)
  | [] => .ok (.clip, none, c)

/-- Skips indentation and empty lines.  An indentation of zero is not known yet; the deepest one
seen is given back. -/
def blockBreaks (indent : Nat) :
    Nat → Nat → Text → Cursor → Except YamlError (Nat × Text × Cursor)
  | 0, deepest, breaks, c => .ok (deepest, breaks, c)
  | fuel + 1, deepest, breaks, c =>
    let spaces := (c.rest.takeWhile (· == ' ')).length
    let taken := if indent = 0 then spaces else min spaces (indent - c.column)
    let c := c.skipMany taken
    let deepest := max deepest c.column
    match c.rest with
    | d :: _ =>
      if d = '\t' ∧ (indent = 0 ∨ c.column < indent) then .error .tabIndentation
      else if isBreak d then
        let (b, c) := c.takeBreak
        blockBreaks indent fuel deepest (breaks ++ b) c
      else .ok (deepest, breaks, c)
    | [] => .ok (deepest, breaks, c)

/-- The lines of a block.  `firstBreak` and `moreBreaks` stand before the current line, and `blank`
says that the line before started with a blank. -/
def blockLines (folded : Bool) (indent : Nat) :
    Nat → Text → Text → Bool → Cursor → Except YamlError (Text × Text × Text × Cursor)
  | 0, firstBreak, moreBreaks, _, c => .ok ([], firstBreak, moreBreaks, c)
  | fuel + 1, firstBreak, moreBreaks, blank, c =>
    if c.column = indent ∧ c.rest ≠ [] then
      let startsBlank := c.rest.head?.any isBlank
      let join : Text :=
        if folded && firstBreak.head? == some '\n' && !blank && !startsBlank then
          if moreBreaks = [] then [' '] else []
        else firstBreak
      let line := c.rest.takeWhile fun d => !isBreak d
      let c := c.skipMany line.length
      let (b, c) := c.takeBreak
      do
        let (_, more, c) ← blockBreaks indent (c.rest.length + 1) 0 [] c
        let (t, first', more', c) ← blockLines folded indent fuel b more startsBlank c
        return (join ++ moreBreaks ++ line ++ t, first', more', c)
    else .ok ([], firstBreak, moreBreaks, c)

/-- **`blockScalar folded parent c`** — a block scalar after its sign, in a collection that is
indented by `parent`. -/
def blockScalar (folded : Bool) (parent : Int) (c : Cursor) : Except YamlError (Text × Cursor) := do
  let (chomping, given, c) ← blockHeader c
  let c := c.skipWhile isBlank
  let c := if c.rest.head? = some '#' then c.skipWhile fun d => !isBreak d else c
  if !atBreakOrEnd c.rest then .error .badBlockHeader
  else
    let (_, c) := c.takeBreak
    let fixed : Nat := match given with
      | some n => if 0 ≤ parent then (parent + n).toNat else n
      | none => 0
    let (deepest, breaks, c) ← blockBreaks fixed (c.rest.length + 1) 0 [] c
    let indent := if fixed = 0 then max (max deepest (parent + 1).toNat) 1 else fixed
    let (t, first, more, c) ← blockLines folded indent (c.rest.length + 1) [] breaks false c
    let tail : Text := match chomping with
      | .strip => []
      | .clip => first
      | .keep => first ++ more
    return (t ++ tail, c)

end UriRouting.Yaml
