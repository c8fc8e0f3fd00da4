/-
# UriRouting.Binding.Resolution — resolving a path against a pattern

`resolve` matches a path, decodes what was captured for each variable, and gives each single value to
the resolver that the binder has for the variable.  The outcome is the most severe one over all
variables: a value that its resolver does not take is left out and leaves the path unresolved; a list
of segments, which no resolver takes, is an error, and so is a path that does not match.
-/
import UriRouting.Binding.Binder
import UriRouting.Binding.Capture
import UriRouting.Pattern.Basic
import UriRouting.Text.Basic

namespace UriRouting

/-- **`Status`** — the outcome of resolving a path. -/
inductive Status
  /-- every variable has its value -/
  | resolved
  /-- some variable has no value for its type -/
  | unresolved
  /-- the path does not match, or a value has a shape that no resolver takes -/
  | error
  deriving DecidableEq, Repr, Inhabited

namespace Status

def severity : Status → Nat
  | resolved => 0
  | unresolved => 1
  | error => 2

/-- **`combine a b`** — the more severe of the two. -/
def combine (a b : Status) : Status := if a.severity ≤ b.severity then b else a

@[simp] theorem severity_combine (a b : Status) :
    (combine a b).severity = max a.severity b.severity := by
  cases a <;> cases b <;> rfl

/-- The word for the outcome. -/
def word : Status → Text
  | resolved => Text.ofString "RESOLVED"
  | unresolved => Text.ofString "UNRESOLVED"
  | error => Text.ofString "ERROR"

/-- The outcome that a word stands for. -/
def ofWord? (t : Text) : Option Status :=
  [resolved, unresolved, error].find? fun s => s.word = t

/-- Outcomes from the least to the most severe. -/
def sorted (statuses : List Status) : List Status :=
  statuses.mergeSort fun a b => a.severity ≤ b.severity

end Status

/-- **`Resolution`** — the outcome of resolving a path, and the values that variables resolved to. -/
structure Resolution where
  status : Status
  values : List (Text × Json)
  deriving Repr, Inhabited

namespace Resolution

/-- Nothing was resolved, and nothing failed. -/
def start : Resolution := ⟨.resolved, []⟩

/-- The resolution of a path that does not match. -/
def mismatch : Resolution := ⟨.error, []⟩

def isResolved (r : Resolution) : Bool := r.status = .resolved

/-- The value of a name. -/
def get? (r : Resolution) (name : Text) : Option Json := r.values.lookup name

/-- Gives a name a value. -/
def put (r : Resolution) (name : Text) (value : Json) : Resolution :=
  { r with values := go r.values }
where
  go : List (Text × Json) → List (Text × Json)
    | [] => [(name, value)]
    | (n, old) :: rest => if n = name then (n, value) :: rest else (n, old) :: go rest

def raise (r : Resolution) (s : Status) : Resolution := { r with status := r.status.combine s }

/-- Resolves one captured variable. -/
def resolveOne (b : Binder) (r : Resolution) : Variable × RawValue → Resolution
  | (v, .single raw) =>
    match b.resolverOf v.name v.type raw with
    | some value => r.put v.name value
    | none => r.raise .unresolved
  | (_, .segments _) => r.raise .error

/-- Resolves captured variables. -/
def ofCaptures (b : Binder) (captures : Captures) : Resolution :=
  captures.foldl (resolveOne b) start

end Resolution

namespace Pattern

/-- **`resolve p b path`** — the resolution of a path against the pattern.  A path does not match
either if the expression has not one group for each token. -/
def resolve (p : Pattern) (b : Binder) (path : Text) : Resolution :=
  match p.expression.captures path with
  | some groups =>
    if groups.length = p.tokens.length then
      .ofCaptures b (Captures.recordAll (p.tokens.zip (groups.map (·.getD []))) [])
    else .mismatch
  | none => .mismatch

/-- The resolution in which every value is text. -/
def resolveDefault (p : Pattern) (path : Text) : Resolution := p.resolve .empty path

end Pattern

end UriRouting
