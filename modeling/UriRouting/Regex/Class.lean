/-
# UriRouting.Regex.Class — bracketed classes

A class in brackets is a union of characters, ranges, escapes, named ASCII classes and nested
classes.  Within one pair of brackets `&&`, `--` and `~~` combine what stands before with what
follows, from left to right.  A closing bracket right after the opening, and hyphens there, are
members; a hyphen makes a range only between two characters.
-/
import UriRouting.Regex.Escape

namespace UriRouting.Regex.ClassReader

/-- The operators between the parts of a class. -/
inductive Operator
  | inter
  | minus
  | differing
  deriving DecidableEq, Repr

/-- What is read of a class: the parts before the last operator, and the members since, the last one
first. -/
structure Parts where
  earlier : Option (Operator × Charset)
  members : List Charset

/-- The members together.  More than one are a level of their own. -/
def unionOf : List Charset → Charset
  | [] => .none
  | [s] => s
  | s :: t :: rest =>
    let all := s :: t :: rest
    .nested ((all.map Charset.levels).foldl max 0 + 1) (all.foldl .union .none)

/-- The set that the parts stand for.  An operator is a level of its own. -/
def Parts.close (f : Flags) (p : Parts) : Charset :=
  let union := unionOf p.members
  match p.earlier with
  | none => union
  | some (op, earlier) =>
    let a := f.inCase earlier
    let b := f.inCase union
    .nested (max earlier.levels union.levels + 1) <| match op with
      | .inter => .inter a b
      | .minus => .minus a b
      | .differing => .differing a b

def Parts.add (p : Parts) (s : Charset) : Parts := { p with members := s :: p.members }

/-- A finished class: closed under case if case is ignored, and only then complemented.  Without
Unicode a complement would hold bytes that are no text. -/
def finish (f : Flags) (negated : Bool) (s : Charset) : Except RegexError Charset :=
  let s := f.inCase s
  if !negated then .ok s
  else if f.unicode then .ok (.complement s)
  else .error .bytesNotText

/-- A finished class in brackets, which are a level of their own. -/
def bracketed (f : Flags) (negated : Bool) (s : Charset) : Except RegexError Charset := do
  return .nested (s.levels + 1) (← finish f negated s)

/-- A named ASCII class and whether it is complemented, given the text after its opening bracket. -/
def ascii? (s : Text) : Option ((Bool × Charset) × Text) :=
  match s with
  | ':' :: r =>
    let (negated, r) : Bool × Text := match r with
      | '^' :: r => (true, r)
      | r => (false, r)
    let name := r.takeWhile (· ≠ ':')
    match r.dropWhile (· ≠ ':') with
    | ':' :: ']' :: rest =>
      (Charset.ofAsciiName? (String.ofList name)).map fun s => ((negated, s), rest)
    | _ => none
  | _ => none

variable [Unicode]

/-- One member: a character or an escape. -/
def atom (f : Flags) : Text → Except RegexError (Atom × Text)
  | [] => .error .unclosedClass
  | '\\' :: r => escape f r
  | c :: r => .ok (.char c, r)

/-- A character as a class member; without Unicode only ASCII is allowed. -/
def charMember (f : Flags) (c : Char) : Except RegexError Charset :=
  if !f.unicode && 0x7F < c.toNat then .error .badClassMember else .ok (.single c)

/-- A member that is no range. -/
def single (f : Flags) : Atom → Except RegexError Charset
  | .char c => charMember f c
  | .set s => .ok s
  | .look _ => .error .badClassMember

/-- The first character that stands neither for a blank nor for the opening of a comment.  What is in
the comment counts. -/
def peekIgnoring : Bool → Text → Option Char
  | _, [] => none
  | comment, c :: r =>
    if Text.isBlank c then peekIgnoring comment r
    else if !comment && c == '#' then peekIgnoring true r
    else some c

/-- The character that decides whether a hyphen before it makes a range. -/
def peek (f : Flags) (s : Text) : Option Char :=
  if f.verbose then peekIgnoring false s else s.head?

/-- A member or a range at the front of the text. -/
def range (f : Flags) (s : Text) : Except RegexError (Charset × Text) := do
  let (first, s) ← atom f s
  match f.skip s with
  | [] => .error .unclosedClass
  | '-' :: r =>
    if peek f r = some ']' ∨ peek f r = some '-' then return (← single f first, '-' :: r)
    else match f.skip r with
    | [] => .error .unclosedClass
    | r => do
      let (last, s) ← atom f r
      match first, last with
      | .char a, .char b => do
        let _ ← charMember f a
        let _ ← charMember f b
        if a.toNat ≤ b.toNat then return (.ranges [(a.toNat, b.toNat)], s)
        else .error .badClassRange
      | _, _ => .error .badClassRange
  | s => return (← single f first, s)

/-- Hyphens at the front are members. -/
def leadingHyphens (f : Flags) :
    Nat → List Charset → Text → Except RegexError (List Charset × Text)
  | 0, acc, s => .ok (acc, s)
  | fuel + 1, acc, s =>
    match s with
    | '-' :: r =>
      match f.skip r with
      | [] => .error .unclosedClass
      | s => leadingHyphens f fuel (.single '-' :: acc) s
    | s => .ok (acc, s)

/-- The beginning of a class after its opening bracket: whether it is complemented, and the members
that only may stand there. -/
def opening (f : Flags) (s : Text) : Except RegexError ((Bool × List Charset) × Text) := do
  let (negated, s) : Bool × Text := match f.skip s with
    | '^' :: r => (true, f.skip r)
    | s => (false, s)
  match s with
  | [] => .error .unclosedClass
  | '-' :: _ =>
    let (acc, s) ← leadingHyphens f (s.length + 1) [] s
    return ((negated, acc), s)
  | ']' :: r =>
    match f.skip r with
    | [] => .error .unclosedClass
    | s => return ((negated, [.single ']']), s)
  | s => return ((negated, []), s)

/-- The members up to the closing bracket that belongs to the opening one. -/
def members (f : Flags) : Nat → Bool → Parts → Text → Except RegexError (Charset × Text)
  | 0, _, _, _ => .error .unclosedClass
  | fuel + 1, negated, p, s =>
    match f.skip s with
    | [] => .error .unclosedClass
    | '[' :: r =>
      match ascii? r with
      | some ((complemented, s), r) => do
        members f fuel negated (p.add (← finish f complemented s)) r
      | none => do
        let ((negated', acc), r) ← opening f r
        let (s, r) ← members f fuel negated' ⟨none, acc⟩ r
        members f fuel negated (p.add s) r
    | ']' :: r => do return (← bracketed f negated (p.close f), r)
    | '&' :: '&' :: r => members f fuel negated ⟨some (.inter, p.close f), []⟩ r
    | '-' :: '-' :: r => members f fuel negated ⟨some (.minus, p.close f), []⟩ r
    | '~' :: '~' :: r => members f fuel negated ⟨some (.differing, p.close f), []⟩ r
    | s => do
      let (m, r) ← range f s
      members f fuel negated (p.add m) r

/-- **`read f s`** — the class whose opening bracket stands before `s`. -/
def read (f : Flags) (s : Text) : Except RegexError (Charset × Text) := do
  let ((negated, acc), r) ← opening f s
  members f (r.length + 1) negated ⟨none, acc⟩ r

end UriRouting.Regex.ClassReader
