/-
# UriRouting.Regex.Search — does an expression match a text

A set of places is a number: place `i` belongs to it if bit `i` is set.  Run over a text, an
expression turns the places where reading may start into the places where it may end (`advance`), and
so every part of the expression is run once for all places together.  Repetition adds places until
no new one turns up; since reading never goes back, one round for each character is enough.

No expression takes more than polynomial time: how often a part could be read does not matter, only
where it can end.

Counted repetition is a copy for every count, so a short text can write a very large expression.
`compile` refuses those that stand for too many copies of one of their parts; nothing else about an
expression is limited.

The expressions that settings bring along are compiled and matched by a library.  The library is a
parameter: what a compiled expression is, which texts are refused and in which words are its own
business, and what is said about settings holds of any library.  `IsFaithful` says that a library keeps
to the syntax that `read` reads and to the meaning that `Matches` gives it; it may refuse expressions
that it finds too large.  The library that is used unless another is given reads and searches as here.
-/
import UriRouting.Regex.Reader

namespace UriRouting.Regex

/-- **`Places`** — a set of places in a text, as the bits of a number. -/
abbrev Places := Nat

namespace Places

/-- The places before the characters of a class. -/
def before (p : Char → Bool) : Text → Places
  | [] => 0
  | c :: r => (if p c then 1 else 0) + 2 * before p r

/-- The places at which a question about the neighbours is answered with yes; the first argument is
the character before the text. -/
def looking (q : Option Char → Option Char → Bool) : Option Char → Text → Places
  | b, [] => if q b none then 1 else 0
  | b, c :: r => (if q b (some c) then 1 else 0) + 2 * looking q (some c) r

/-- All places of a text of the given length. -/
def upToLength (n : Nat) : Places := Nat.pow 2 (n + 1) - 1

end Places

/-- **`Run`** — an expression made ready for a text: from the places where it may start to those
where it may end. -/
structure Run where
  apply : Places → Places

/-- `f` applied `count` times. -/
def exactly (f : Places → Places) : Nat → Places → Places
  | 0, p => p
  | count + 1, p =>
    let q := f p
    if q = p then p else exactly f count q

/-- The places reached by applying `f` at most `count` times. -/
def atMost (f : Places → Places) : Nat → Places → Places
  | 0, p => p
  | count + 1, p =>
    let q := p ||| f p
    if q = p then p else atMost f count q

section

variable [Unicode]

/-- **`advance t r`** — the expression made ready for the text `t`. -/
def advance (t : Text) : Regex → Run
  | empty => ⟨fun p => p⟩
  | set s =>
    let here := Places.before s.contains t
    ⟨fun p => (p &&& here) <<< 1⟩
  | look l =>
    let here := Places.looking l.holds none t
    ⟨fun p => p &&& here⟩
  | cat a b =>
    let f := advance t a
    let g := advance t b
    ⟨fun p => g.apply (f.apply p)⟩
  | alt a b =>
    let f := advance t a
    let g := advance t b
    ⟨fun p => f.apply p ||| g.apply p⟩
  | times _ r least most =>
    let f := advance t r
    match most with
    | none => ⟨fun p => atMost f.apply (t.length + 1) (exactly f.apply least p)⟩
    | some most => ⟨fun p => atMost f.apply (most - least) (exactly f.apply least p)⟩
  | group _ r => advance t r

/-- **`isMatch r t`** — the expression reads some part of the text. -/
def isMatch (r : Regex) (t : Text) : Bool :=
  (advance t r).apply (Places.upToLength t.length) != 0

end

/-! ## Size -/

/-- The expression can read nothing but the empty text. -/
def readsNothing : Regex → Bool
  | empty | look _ => true
  | set _ => false
  | cat a b | alt a b => readsNothing a && readsNothing b
  | times _ r _ most => readsNothing r || most == some 0
  | group _ r => readsNothing r

/-- **`copies r`** — how many copies of one of its parts the expression stands for.  Repeating what can
only read the empty text makes none. -/
def copies : Regex → Nat
  | empty | set _ | look _ => 1
  | cat a b | alt a b => max (copies a) (copies b)
  | times _ r least most =>
    if readsNothing r then copies r else max 1 (most.getD least) * copies r
  | group _ r => copies r

/-- The most copies that are accepted: as many states of 32 bytes as ten mebibytes hold. -/
def copyLimit : Nat := 10 * 1024 * 1024 / 32

/-- **`compile t`** — the expression that `t` writes, unless it stands for too many copies. -/
def compile [Unicode] (t : Text) : Except RegexError Regex := do
  let r ← read t
  if copies r ≤ copyLimit then return r else throw .tooLarge

/-! ## Libraries -/

/-- **`Library`** — a library of regular expressions. -/
class Library where
  Compiled : Type
  /-- a text is compiled, or refused in words -/
  compile : Text → Except Text Compiled
  /-- whether a compiled expression matches some part of a text -/
  isMatch : Compiled → Text → Bool

/-- **`Library.IsFaithful`** — what the library compiles is an expression, and it matches what the
expression matches. -/
structure Library.IsFaithful [Unicode] (library : Library) : Prop where
  exists_read : ∀ {t : Text} {compiled}, library.compile t = .ok compiled → ∃ r, read t = .ok r
  isMatch_iff : ∀ {t value : Text} {compiled} {r : Regex}, library.compile t = .ok compiled →
    read t = .ok r → (library.isMatch compiled value = true ↔ r.Matches value)

/-- The library of the reader and the search. -/
instance Library.ofReader [Unicode] : Library where
  Compiled := Regex
  compile t := (Regex.compile t).mapError RegexError.message
  isMatch := Regex.isMatch

end UriRouting.Regex
