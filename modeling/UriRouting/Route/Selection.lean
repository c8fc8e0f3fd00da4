/-
# UriRouting.Route.Selection — which of several patterns a path gets

Several patterns may match one path.  A match rule says which of them is preferred: the first in the
list, or the one with the highest score, where of equal scores the first in the list wins.

The functions work on any list of things that have a pattern, so that they serve both lists of
patterns and lists of routes.
-/
import UriRouting.Binding.Resolution

namespace UriRouting

/-- **`MatchRule`** — which of several matching patterns is preferred. -/
inductive MatchRule
  | first
  | best
  deriving DecidableEq, Repr, Inhabited

/-- The word for the rule. -/
def MatchRule.word : MatchRule → Text
  | first => Text.ofString "first"
  | best => Text.ofString "best"

/-- The rule that a word stands for. -/
def MatchRule.ofWord? (t : Text) : Option MatchRule := [first, best].find? fun r => r.word = t

namespace Selection

variable {α : Type} (pattern : α → Pattern)

/-- Everything that matches, in the order of the list. -/
def findAll (path : Text) (candidates : List α) : List α :=
  candidates.filter fun a => (pattern a).matchesPath path

/-- The first that matches. -/
def findFirst (path : Text) (candidates : List α) : Option α :=
  candidates.find? fun a => (pattern a).matchesPath path

/-- Keeps the better of what was found so far and a candidate. -/
def better (found : Option α) (candidate : α) : Option α :=
  match found with
  | some current =>
    if (pattern candidate).score ≤ (pattern current).score then some current else some candidate
  | none => some candidate

/-- The one with the highest score that matches; of equal scores the first. -/
def findBest (path : Text) (candidates : List α) : Option α :=
  (findAll pattern path candidates).foldl (better pattern) none

/-- **`find rule path candidates`** — the one that the rule prefers among those that match. -/
def find (rule : MatchRule) (path : Text) (candidates : List α) : Option α :=
  match rule with
  | .first => findFirst pattern path candidates
  | .best => findBest pattern path candidates

/-- **`ranked rule path candidates`** — all that match, the preferred ones first. -/
def ranked (rule : MatchRule) (path : Text) (candidates : List α) : List α :=
  let found := findAll pattern path candidates
  match rule with
  | .first => found
  | .best => found.mergeSort fun a b => (pattern b).score ≤ (pattern a).score

end Selection

end UriRouting
