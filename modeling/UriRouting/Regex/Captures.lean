/-
# UriRouting.Regex.Captures — which match is found, and what its groups hold

An expression may match a text in many ways.  The search tries the places of the text from left to
right, and at each place the ways of the expression in a fixed order: the left branch of a choice
before the right one, one more round of a repetition before none if it is greedy, and none before one
more if it is not.  The first way that reaches the end of the expression is the match.

The search is written with continuations: `run r p k` reads with `r` from the place `p` on and asks
`k` whether the rest of the expression can be read from where that ends; if it cannot, the next way of
`r` is tried.

Every group holds the text that it read last, if it took part in the match.  A repetition without upper
bound ends with a round that reads nothing, since from there on nothing new could be read.  What groups
hold after such a round is where libraries differ; no pattern repeats what can read nothing.

Going through all ways to find that there is no match can take very long, so whether there is one is
asked first.
-/
import UriRouting.Regex.Search

namespace UriRouting.Regex

/-- **`Place`** — a place in a text: how many characters stand before it, the last of them, and the
text behind it. -/
structure Place where
  index : Nat
  before : Option Char
  rest : Text
  deriving DecidableEq, Repr

/-- **`Groups`** — for every capture group of an expression, in order, the text that it holds. -/
abbrev Groups := List (Option Text)

/-- The start of a text. -/
def Place.start (t : Text) : Place := ⟨0, none, t⟩

/-- The text between two places. -/
def Place.upTo (p q : Place) : Text := p.rest.take (q.index - p.index)

/-- Groups after one more round of a repetition: what the round captured replaces what was there. -/
def renewed : Groups → Groups → Groups
  | old :: olds, new :: news => new.or old :: renewed olds news
  | _, news => news

variable {α : Type}

/-- **`Way α`** — tries the ways of reading from a place until the continuation accepts one. -/
abbrev Way (α : Type) := Place → (Place → Groups → Option α) → Option α

/-- A number of rounds that have to be made. -/
def due (round : Way α) : Nat → Place → Groups → (Place → Groups → Option α) → Option α
  | 0, p, g, k => k p g
  | n + 1, p, g, k => round p fun q g' => due round n q (renewed g g') k

/-- At most a number of rounds; if they are `endless`, a round that reads nothing is the last. -/
def further (round : Way α) (greedy endless : Bool) :
    Nat → Place → Groups → (Place → Groups → Option α) → Option α
  | 0, p, g, k => k p g
  | n + 1, p, g, k =>
    let again : Unit → Option α := fun _ => round p fun q g' =>
      if endless && q.index == p.index then k q (renewed g g')
      else further round greedy endless n q (renewed g g') k
    if greedy then again () <|> k p g else k p g <|> again ()

variable [Unicode]

/-- **`run r p k`** — reads with `r` from `p` on, in the first way that `k` accepts. -/
def run : Regex → Way α
  | empty, p, k => k p []
  | set s, p, k =>
    match p.rest with
    | [] => none
    | c :: r => if s.contains c then k ⟨p.index + 1, some c, r⟩ [] else none
  | look l, p, k => if l.holds p.before p.rest.head? then k p [] else none
  | cat a b, p, k => run a p fun q g => run b q fun q' g' => k q' (g ++ g')
  | alt a b, p, k =>
    (run a p fun q g => k q (g ++ List.replicate b.groupCount none)) <|>
      run b p fun q g => k q (List.replicate a.groupCount none ++ g)
  | times greedy r least most, p, k =>
    due (run r) least p (List.replicate r.groupCount none) fun q g =>
      match most with
      | none => further (run r) greedy true (q.rest.length + 1) q g k
      | some most => further (run r) greedy false (most - least) q g k
  | group capturing r, p, k =>
    run r p fun q g => k q (if capturing then some (p.upTo q) :: g else g)

/-- The groups of the first match at a place or behind it. -/
def capturesFrom (r : Regex) (index : Nat) (before : Option Char) : Text → Option Groups
  | [] => run r ⟨index, before, []⟩ fun _ g => some g
  | c :: t =>
    (run r ⟨index, before, c :: t⟩ fun _ g => some g) <|> capturesFrom r (index + 1) (some c) t

/-- **`captures r t`** — the groups of the first match in the text, if there is one. -/
def captures (r : Regex) (t : Text) : Option Groups :=
  if isMatch r t then capturesFrom r 0 none t else none

end UriRouting.Regex
