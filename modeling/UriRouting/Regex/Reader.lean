/-
# UriRouting.Regex.Reader — regular expressions from text

The reader goes through the text once.  Its state holds the expressions of the branch that is being
read, the branches before it, the flags in force, and one frame for every group that is open; a
closing parenthesis folds the state into the group and goes back to the frame around it.  Flags that
a group or the rest of a group sets end with that group.

`read` accepts exactly the texts in which every part is closed, and refuses expressions that are
nested deeper than `nestingLimit`.
-/
import UriRouting.Regex.Class
import UriRouting.Text.Basic

namespace UriRouting.Regex

/-- An open group: what stood before it, and the flags that come back after it. -/
structure Frame where
  items : List Regex
  branches : List Regex
  flags : Flags
  capturing : Bool
  deriving DecidableEq, Repr

/-- **`ReaderState`** — what has been read.  Items and branches are listed from last to first. -/
structure ReaderState where
  items : List Regex
  branches : List Regex
  flags : Flags
  frames : List Frame
  names : List Text
  deriving DecidableEq, Repr

namespace ReaderState

/-- Nothing has been read. -/
def start : ReaderState := ⟨[], [], {}, [], []⟩

/-- The expression that the branches and items stand for. -/
def folded (items branches : List Regex) : Regex :=
  altAll (catAll items.reverse :: branches).reverse

def push (st : ReaderState) (r : Regex) : ReaderState := { st with items := r :: st.items }

/-- Opens a group with given flags. -/
def openGroup (st : ReaderState) (capturing : Bool) (flags : Flags) : ReaderState :=
  { st with
    items := [], branches := [], flags := flags
    frames := ⟨st.items, st.branches, st.flags, capturing⟩ :: st.frames }

/-- Closes the innermost group. -/
def closeGroup (st : ReaderState) : Except RegexError ReaderState :=
  match st.frames with
  | [] => .error .unopenedGroup
  | frame :: frames =>
    .ok { st with
      items := .group frame.capturing (folded st.items st.branches) :: frame.items
      branches := frame.branches, flags := frame.flags, frames := frames }

/-- Starts a new branch. -/
def nextBranch (st : ReaderState) : ReaderState :=
  { st with items := [], branches := catAll st.items.reverse :: st.branches }

/-- Repeats the last item.  A change of flags leaves the empty expression, which cannot be
repeated. -/
def repeated (st : ReaderState) (greedy : Bool) (least : Nat) (most : Option Nat) :
    Except RegexError ReaderState :=
  match st.items with
  | [] => .error .nothingToRepeat
  | .empty :: _ => .error .nothingToRepeat
  | r :: items => .ok { st with items := .times greedy r least most :: items }

end ReaderState

/-! ## Groups -/

variable [Unicode]

/-- Characters that may start the name of a group. -/
def isNameStart (c : Char) : Bool := c == '_' || Unicode.isAlphabetic c

/-- Characters that may continue the name of a group. -/
def isNameRest (c : Char) : Bool :=
  c ∈ ['_', '.', '[', ']'] || Unicode.isAlphabetic c || Unicode.isNumeric c

/-- The name of a group and the text after its closing angle bracket. -/
def groupName (s : Text) : Except RegexError (Text × Text) :=
  match Text.cutAt '>' s with
  | none => .error .badGroupName
  | some (n, rest) =>
    match n with
    | [] => .error .badGroupName
    | c :: r =>
      if isNameStart c && r.all isNameRest then .ok (c :: r, rest) else .error .badGroupName

/-- Sets or clears the mode that a letter stands for. -/
def Flags.switch (f : Flags) (on : Bool) : Char → Option Flags
  | 'i' => some { f with ignoreCase := on }
  | 'm' => some { f with multiLine := on }
  | 's' => some { f with dotAll := on }
  | 'U' => some { f with swapGreed := on }
  | 'u' => some { f with unicode := on }
  | 'R' => some { f with crlf := on }
  | 'x' => some { f with verbose := on }
  | _ => none

/-- Flag letters up to `:` or `)`, which is given back; no letter and no minus sign occurs twice, and
a minus sign is not the last. -/
def flagLetters :
    Flags → Bool → List Char → Text → Except RegexError ((Flags × List Char × Char) × Text)
  | _, _, _, [] => .error .badFlags
  | f, on, seen, c :: r =>
    if c = ':' ∨ c = ')' then
      if seen.head? = some '-' then .error .badFlags else .ok ((f, seen, c), r)
    else if c ∈ seen then .error .badFlags
    else if c = '-' then flagLetters f false (c :: seen) r
    else match f.switch on c with
      | some f => flagLetters f on (c :: seen) r
      | none => .error .badFlags

/-- What follows an opening parenthesis: a change of flags, or the beginning of a group. -/
def parenthesis (st : ReaderState) (s : Text) : Except RegexError (ReaderState × Text) :=
  match st.flags.skip s with
  | '?' :: '=' :: _ => .error .lookAround
  | '?' :: '!' :: _ => .error .lookAround
  | '?' :: '<' :: '=' :: _ => .error .lookAround
  | '?' :: '<' :: '!' :: _ => .error .lookAround
  | '?' :: 'P' :: '<' :: r => named r
  | '?' :: '<' :: r => named r
  | '?' :: r => do
    let ((f, seen, last), r) ← flagLetters st.flags true [] r
    if last = ')' then
      if seen = [] then .error .nothingToRepeat
      else return ({ st.push .empty with flags := f }, r)
    else return (st.openGroup false f, r)
  | s => .ok (st.openGroup true st.flags, s)
where
  /-- A group with a name. -/
  named (r : Text) : Except RegexError (ReaderState × Text) := do
    let (n, r) ← groupName r
    if n ∈ st.names then .error .repeatedGroupName
    else return ({ st.openGroup true st.flags with names := n :: st.names }, r)

/-! ## Repetition -/

/-- A repetition count: digits between blanks, at most the largest unsigned 32-bit number. -/
def count (f : Flags) (s : Text) : Option (Nat × Text) :=
  let s := Text.dropBlank s
  let (digits, s) := run (s.length + 1) s
  if digits = [] then none
  else
    let n := Text.Decimal.value 0 digits
    if n < 0x100000000 then some (n, f.skip (Text.dropBlank s)) else none
where
  /-- Takes digits off the front, with what verbose mode skips after each. -/
  run : Nat → Text → Text × Text
    | 0, s => ([], s)
    | fuel + 1, s =>
      match s with
      | c :: r =>
        if c.isDigit then
          let (ds, r) := run fuel (f.skip r)
          (c :: ds, r)
        else ([], c :: r)
      | [] => ([], [])

/-- Whether a repetition is greedy, and the text behind the question mark that makes it the opposite
of what it is without. -/
def greed (f : Flags) : Text → Bool × Text
  | '?' :: r => (f.swapGreed, r)
  | s => (!f.swapGreed, s)

/-- **`Bounds`** — what a repetition says: how often at least and at most, and whether it is greedy. -/
structure Bounds where
  least : Nat
  most : Option Nat
  greedy : Bool
  deriving DecidableEq, Repr

/-- A repetition whose bounds are known. -/
def bounded (f : Flags) (least : Nat) (most : Option Nat) (s : Text) : Bounds × Text :=
  let (greedy, s) := greed f s
  (⟨least, most, greedy⟩, s)

/-- The bounds after an opening brace, and the text after the closing one. -/
def bounds (f : Flags) (s : Text) : Except RegexError (Bounds × Text) :=
  match count f (f.skip s) with
  | none => .error .badRepetition
  | some (least, s) =>
    match s with
    | '}' :: r => .ok (bounded f least (some least) (f.skip r))
    | ',' :: r =>
      match f.skip r with
      | '}' :: r => .ok (bounded f least none (f.skip r))
      | r =>
        match count f r with
        | some (most, '}' :: r) =>
          if least ≤ most then .ok (bounded f least (some most) (f.skip r))
          else .error .badRepetition
        | _ => .error .badRepetition
    | _ => .error .badRepetition

/-- Repeats the last item within bounds. -/
def ReaderState.repeatedBy (st : ReaderState) (b : Bounds × Text) :
    Except RegexError (ReaderState × Text) := do
  return (← st.repeated b.1.greedy b.1.least b.1.most, b.2)

/-! ## The reader -/

/-- The expression for a single character or escape. -/
def ofAtom (f : Flags) : Atom → Regex
  | .char c => .set (f.inCase (.single c))
  | .set s => .set s
  | .look l => .look l

/-- The expression for a dot. -/
def dot (f : Flags) : Except RegexError Regex :=
  if !f.unicode then .error .bytesNotText
  else if f.dotAll then .ok (.set .all)
  else if f.crlf then .ok (.set (.complement (.ranges [(0x0A, 0x0A), (0x0D, 0x0D)])))
  else .ok (.set (.complement (.single '\n')))

/-- **`readerStep st c r`** — reads the part of an expression that begins with `c` and continues
in `r`. -/
def readerStep (st : ReaderState) (c : Char) (r : Text) :
    Except RegexError (ReaderState × Text) :=
  match c with
  | '(' => parenthesis st r
  | ')' => do return (← st.closeGroup, r)
  | '|' => .ok (st.nextBranch, r)
  | '[' => do
    let (s, r) ← ClassReader.read st.flags r
    return (st.push (.set s), r)
  | '?' => st.repeatedBy (bounded st.flags 0 (some 1) r)
  | '*' => st.repeatedBy (bounded st.flags 0 none r)
  | '+' => st.repeatedBy (bounded st.flags 1 none r)
  | '{' => do st.repeatedBy (← bounds st.flags r)
  | '\\' => do
    let (a, r) ← escape st.flags r
    return (st.push (ofAtom st.flags a), r)
  | '.' => do return (st.push (← dot st.flags), r)
  | '^' =>
    .ok (st.push (.look (if st.flags.multiLine then .lineStart st.flags.crlf else .textStart)), r)
  | '$' =>
    .ok (st.push (.look (if st.flags.multiLine then .lineEnd st.flags.crlf else .textEnd)), r)
  | c => .ok (st.push (ofAtom st.flags (.char c)), r)

/-- Reads to the end of the text.  Every step takes a character, so the length of the text is
enough fuel. -/
def readerRun : Nat → ReaderState → Text → Except RegexError ReaderState
  | fuel, st, s =>
    match st.flags.skip s with
    | [] => .ok st
    | c :: r =>
      match fuel with
      | 0 => .ok st
      | fuel + 1 => do
        let (st, r) ← readerStep st c r
        readerRun fuel st r

/-- The whole expression, if no group is left open. -/
def ReaderState.close (st : ReaderState) : Except RegexError Regex :=
  match st.frames with
  | [] => .ok (folded st.items st.branches)
  | _ :: _ => .error .unclosedGroup

/-- The expression is a sequence. -/
def isCat : Regex → Bool
  | cat _ _ => true
  | _ => false

/-- The expression is a choice. -/
def isAlt : Regex → Bool
  | alt _ _ => true
  | _ => false

/-- **`depth r`** — how deep groups, repetitions, sequences, choices and classes are nested.  A
sequence of many expressions is one level, and so is a choice between many. -/
def depth : Regex → Nat
  | empty | look _ => 0
  | set s => s.levels
  | cat a b => max (depth a + 1) (if isCat b then depth b else depth b + 1)
  | alt a b => max (depth a + 1) (if isAlt b then depth b else depth b + 1)
  | times _ r _ _ => depth r + 1
  | group _ r => depth r + 1

/-- The deepest nesting that is accepted. -/
def nestingLimit : Nat := 250

/-- **`read t`** — the expression that the whole text writes. -/
def read (t : Text) : Except RegexError Regex := do
  let st ← readerRun t.length .start t
  let r ← st.close
  if depth r ≤ nestingLimit then return r else throw .nestedTooDeep

end Regex

end UriRouting
