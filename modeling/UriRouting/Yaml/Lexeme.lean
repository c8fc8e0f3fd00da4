/-
# UriRouting.Yaml.Lexeme — the parts of a document

The lexemes of a document are its marks and scalars, together with the beginnings and ends of block
collections, which only indentation tells.  `Lexeme.ofText?` finds them.

A key is recognised by the colon after it.  The reader therefore remembers, on every level of flow
collections, where a key could have started (`Candidate`), and puts the mark of the key in front of it
when the colon comes; the candidate is gone at the end of its line.
-/
import UriRouting.Yaml.Scalar

namespace UriRouting.Yaml

/-- **`Lexeme`** — a part of a document. -/
inductive Lexeme
  | streamEnd
  | directive
  | documentStart
  | documentEnd
  | sequenceStart
  | mappingStart
  | blockEnd
  | flowSequenceStart
  | flowSequenceEnd
  | flowMappingStart
  | flowMappingEnd
  | blockEntry
  | flowEntry
  | key
  | value
  | anchor (name : Text)
  | reference (name : Text)
  | tag (name : Text)
  | scalar (text : Text) (plain : Bool)
  deriving DecidableEq, Repr, Inhabited

/-- **`Candidate`** — where a key could have started. -/
structure Candidate where
  possible : Bool := false
  required : Bool := false
  number : Nat := 0
  index : Nat := 0
  line : Nat := 0
  column : Nat := 0
  deriving DecidableEq, Repr

/-- **`LexerState`** — the place in the text and the lexemes before it, last one first.  `candidates`
holds one entry for each flow level, the innermost first, after that of the block level. -/
structure LexerState where
  cursor : Cursor
  lexemes : List Lexeme := []
  count : Nat := 0
  indent : Int := -1
  indents : List Int := []
  top : Candidate := {}
  outer : List Candidate := []
  keyAllowed : Bool := true

namespace LexerState

def inFlow (st : LexerState) : Bool := !st.outer.isEmpty

def emit (st : LexerState) (l : Lexeme) : LexerState :=
  { st with lexemes := l :: st.lexemes, count := st.count + 1 }

/-- Puts a lexeme in front of the one with a given number. -/
def insert (st : LexerState) (number : Nat) (l : Lexeme) : LexerState :=
  let after := st.count - number
  { st with
    lexemes := st.lexemes.take after ++ l :: st.lexemes.drop after
    count := st.count + 1 }

/-- Emits a lexeme of one character. -/
def emitMark (st : LexerState) (l : Lexeme) : LexerState :=
  { st.emit l with cursor := st.cursor.skip }

/-! ## Candidates and indentation -/

/-- Gives the candidate of the current level up. -/
def dropCandidate (st : LexerState) : Except YamlError LexerState :=
  if st.top.possible && st.top.required then .error .missingColon
  else .ok { st with top := { st.top with possible := false } }

/-- The current place may be the start of a key. -/
def offerCandidate (st : LexerState) : Except YamlError LexerState :=
  if st.keyAllowed then do
    let required := !st.inFlow && st.indent == (st.cursor.column : Int)
    let st ← st.dropCandidate
    return { st with
      top := ⟨true, required, st.count, st.cursor.index, st.cursor.line, st.cursor.column⟩ }
  else .ok st

/-- A candidate is gone when its line ends, and after 1024 characters. -/
def Candidate.age (c : Cursor) (k : Candidate) : Except YamlError Candidate :=
  if k.possible && (k.line < c.line || k.index + 1024 < c.index) then
    if k.required then .error .missingColon else .ok { k with possible := false }
  else .ok k

/-- Ages the candidates of all levels. -/
def ageCandidates (st : LexerState) : Except YamlError LexerState := do
  let top ← Candidate.age st.cursor st.top
  let outer ← st.outer.mapM (Candidate.age st.cursor)
  return { st with top := top, outer := outer }

/-- Opens a block collection if the column is deeper than the current one; its start goes in front of
the lexeme `number`, or to the end. -/
def openBlock (st : LexerState) (column : Nat) (number : Option Nat) (l : Lexeme) : LexerState :=
  if st.inFlow then st
  else if st.indent < column then
    let st := { st with indents := st.indent :: st.indents, indent := column }
    match number with
    | some n => st.insert n l
    | none => st.emit l
  else st

/-- Closes the block collections that are deeper than a column. -/
def closeBlocks (st : LexerState) (column : Int) : LexerState :=
  if st.inFlow then st
  else go st column st.indents
where
  /-- One collection after the other, along the indentations around them. -/
  go (st : LexerState) (column : Int) : List Int → LexerState
    | [] => st
    | i :: is =>
      if column < st.indent then go { st.emit .blockEnd with indent := i, indents := is } column is
      else st

/-! ## Marks -/

/-- The end of the text. -/
def streamEnd (st : LexerState) : Except YamlError LexerState := do
  let st := st.closeBlocks (-1)
  let st ← st.dropCandidate
  return { st.emit .streamEnd with keyAllowed := false }

/-- A document mark. -/
def documentMark (st : LexerState) (l : Lexeme) : Except YamlError LexerState := do
  let st := st.closeBlocks (-1)
  let st ← st.dropCandidate
  return { st.emit l with keyAllowed := false, cursor := st.cursor.skipMany 3 }

/-- A directive: the version of the format, or the meaning of a tag handle. -/
def directive (st : LexerState) : Except YamlError LexerState := do
  let st := st.closeBlocks (-1)
  let st ← st.dropCandidate
  let line := st.cursor.rest.takeWhile fun d => !isBreak d
  let word := (line.drop 1).takeWhile fun d => !isBlank d
  let c := st.cursor.skipMany line.length
  if word = Text.ofString "YAML" ∨ word = Text.ofString "TAG" then
    return { st.emit .directive with keyAllowed := false, cursor := c }
  else .error .badDirective

def flowStart (st : LexerState) (l : Lexeme) : Except YamlError LexerState := do
  let st ← st.offerCandidate
  return { st.emitMark l with top := {}, outer := st.top :: st.outer, keyAllowed := true }

def flowEnd (st : LexerState) (l : Lexeme) : Except YamlError LexerState := do
  let st ← st.dropCandidate
  let st := match st.outer with
    | [] => st
    | k :: ks => { st with top := k, outer := ks }
  return { st.emitMark l with keyAllowed := false }

def flowEntry (st : LexerState) : Except YamlError LexerState := do
  let st ← st.dropCandidate
  return { st.emitMark .flowEntry with keyAllowed := true }

def blockEntry (st : LexerState) : Except YamlError LexerState := do
  if !st.inFlow && !st.keyAllowed then .error .misplacedEntry
  else
    let st := st.openBlock st.cursor.column none .sequenceStart
    let st ← st.dropCandidate
    return { st.emitMark .blockEntry with keyAllowed := true }

/-- The mark of a key that is announced. -/
def explicitKey (st : LexerState) : Except YamlError LexerState := do
  if !st.inFlow && !st.keyAllowed then .error .misplacedKey
  else
    let st := st.openBlock st.cursor.column none .mappingStart
    let st ← st.dropCandidate
    return { st.emitMark .key with keyAllowed := !st.inFlow }

/-- The mark of a value; the candidate before it becomes a key. -/
def valueMark (st : LexerState) : Except YamlError LexerState :=
  if st.top.possible then
    let k := st.top
    let st := (st.insert k.number .key).openBlock k.column (some k.number) .mappingStart
    .ok { st.emitMark .value with top := { k with possible := false }, keyAllowed := false }
  else if !st.inFlow && !st.keyAllowed then .error .misplacedValue
  else
    let st := st.openBlock st.cursor.column none .mappingStart
    .ok { st.emitMark .value with keyAllowed := !st.inFlow }

/-! ## Names and scalars -/

/-- The characters of anchors. -/
def isAnchorChar (c : Char) : Bool := c.isAlphanum || c == '_' || c == '-'

/-- What may follow an anchor. -/
def endsAnchor (s : Text) : Bool :=
  atBlankOrEnd s || s.head?.any fun c =>
    c == '?' || c == ':' || c == ',' || c == ']' || c == '}' || c == '%' || c == '@' || c == '`'

/-- An anchor or a reference to one. -/
def anchorName (st : LexerState) (make : Text → Lexeme) : Except YamlError LexerState := do
  let st ← st.offerCandidate
  let c := st.cursor.skip
  let name := c.rest.takeWhile isAnchorChar
  let c := c.skipMany name.length
  if name = [] ∨ !endsAnchor c.rest then .error .badProperty
  else return { st.emit (make name) with cursor := c, keyAllowed := false }

/-- The characters of tags. -/
def isTagChar (c : Char) : Bool :=
  c.isAlphanum || (Text.ofString "_-;/?:@&=+$.%!~*'()").elem c

/-- A tag: a handle and a name, or a whole name between angle brackets. -/
def tagName (st : LexerState) : Except YamlError LexerState := do
  let st ← st.offerCandidate
  let after := st.cursor.skip
  let (name, c) : Option Text × Cursor := match after.rest with
    | '<' :: r =>
      let inner := r.takeWhile fun d => isTagChar d || d == ',' || d == '[' || d == ']'
      match r.drop inner.length with
      | '>' :: _ => (if inner = [] then none else some inner, after.skipMany (inner.length + 2))
      | _ => (none, after)
    | '!' :: r =>
      let inner := r.takeWhile isTagChar
      (if inner = [] then none else some (Text.ofString "tag:yaml.org,2002:" ++ inner),
        after.skipMany (inner.length + 1))
    | r =>
      let inner := r.takeWhile isTagChar
      -- A second exclamation mark would make the beginning a handle, of which none is declared.
      (if inner.elem '!' then none else some ('!' :: inner), after.skipMany inner.length)
  match name with
  | none => .error .badProperty
  | some n =>
    if atBlankOrEnd c.rest || (st.inFlow && c.rest.head? == some ',') then
      return { st.emit (.tag n) with cursor := c, keyAllowed := false }
    else .error .badProperty

def block (st : LexerState) (folded : Bool) : Except YamlError LexerState := do
  let st ← st.dropCandidate
  let (t, c) ← blockScalar folded st.indent st.cursor.skip
  return { st.emit (.scalar t false) with cursor := c, keyAllowed := true }

def quoted (st : LexerState) (double : Bool) : Except YamlError LexerState := do
  let st ← st.offerCandidate
  let (t, c) ← quotedTail double (st.cursor.rest.length + 1) st.cursor.skip
  return { st.emit (.scalar t false) with cursor := c, keyAllowed := false }

def plain (st : LexerState) : Except YamlError LexerState := do
  let st ← st.offerCandidate
  let (t, broken, c) ←
    plainTail st.inFlow (st.indent + 1) (st.cursor.rest.length + 1) {} st.cursor
  return { st.emit (.scalar t true) with cursor := c, keyAllowed := broken }

/-! ## The reader -/

/-- The byte order mark. -/
def byteOrderMark : Char := '\uFEFF'

/-- Goes to the next lexeme: over blanks, comments, line breaks and byte order marks that start a
line.  A tab is skipped only where no key may start. -/
def toNext : Nat → LexerState → LexerState
  | 0, st => st
  | fuel + 1, st =>
    match st.cursor.rest with
    | [] => st
    | d :: _ =>
      if d = ' ' ∨ (d = '\t' ∧ (st.inFlow ∨ ¬st.keyAllowed))
          ∨ (d = byteOrderMark ∧ st.cursor.column = 0) then
        toNext fuel { st with cursor := st.cursor.skip }
      else if d = '#' then
        toNext fuel { st with cursor := st.cursor.skipWhile fun e => !isBreak e }
      else if isBreak d then
        toNext fuel { st with
          cursor := st.cursor.takeBreak.2, keyAllowed := st.keyAllowed || !st.inFlow }
      else st

/-- The characters that cannot start a plain scalar. -/
def isIndicator (c : Char) : Bool := (Text.ofString "-?:,[]\x7b\x7d#&*!|>'\"%@`").elem c

/-- A plain scalar starts with `c` and goes on with `r`. -/
def startsPlain (flow : Bool) (c : Char) (r : Text) : Bool :=
  (!isIndicator c && !isBlank c && !isBreak c)
    || (c == '-' && !r.head?.any isBlank)
    || (!flow && (c == '?' || c == ':') && !atBlankOrEnd r)

/-- **`next st`** — reads one lexeme. -/
def next (st : LexerState) : Except YamlError LexerState := do
  let st := toNext (st.cursor.rest.length + 1) st
  let st ← st.ageCandidates
  let st := st.closeBlocks st.cursor.column
  match st.cursor.rest with
  | [] => st.streamEnd
  | d :: r =>
    let flow := st.inFlow
    if st.cursor.column == 0 && d == '%' then st.directive
    else if st.cursor.column == 0 && atMark '-' (d :: r) then st.documentMark .documentStart
    else if st.cursor.column == 0 && atMark '.' (d :: r) then st.documentMark .documentEnd
    else if d == '[' then st.flowStart .flowSequenceStart
    else if d == '{' then st.flowStart .flowMappingStart
    else if d == ']' then st.flowEnd .flowSequenceEnd
    else if d == '}' then st.flowEnd .flowMappingEnd
    else if d == ',' then st.flowEntry
    else if d == '-' && atBlankOrEnd r then st.blockEntry
    else if d == '?' && (flow || atBlankOrEnd r) then st.explicitKey
    else if d == ':' && (flow || atBlankOrEnd r) then st.valueMark
    else if d == '*' then st.anchorName .reference
    else if d == '&' then st.anchorName .anchor
    else if d == '!' then st.tagName
    else if d == '|' && !flow then st.block false
    else if d == '>' && !flow then st.block true
    else if d == '\'' then st.quoted false
    else if d == '"' then st.quoted true
    else if startsPlain flow d r then st.plain
    else .error .unexpectedCharacter

/-- Reads lexemes to the end of the text.  Every lexeme but the last takes a character. -/
def run : Nat → LexerState → Except YamlError LexerState
  | 0, st => .ok st
  | fuel + 1, st => do
    let st ← st.next
    match st.lexemes with
    | .streamEnd :: _ => return st
    | _ => run fuel st

end LexerState

/-- The characters that a document may hold. -/
def isDocumentChar (c : Char) : Bool :=
  let n := c.toNat
  n == 0x09 || n == 0x0A || n == 0x0D || (0x20 ≤ n && n ≤ 0x7E) || n == 0x85
    || (0xA0 ≤ n && n ≤ 0xD7FF) || (0xE000 ≤ n && n ≤ 0xFFFD) || 0x10000 ≤ n

/-- **`Lexeme.ofText? t`** — the lexemes of a document, the last of which is the end of the text. -/
def Lexeme.ofText? (t : Text) : Except YamlError (List Lexeme) := do
  if t.all isDocumentChar then
    let st ← LexerState.run (t.length + 2) { cursor := { rest := t } }
    return st.lexemes.reverse
  else .error .controlCharacter

end UriRouting.Yaml
