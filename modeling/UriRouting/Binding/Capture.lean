/-
# UriRouting.Binding.Capture — captured values, before their types are known

Matching gives each token a piece of the path as it stood there.  `Captures.record` keeps it for the
variable of the token: percent-decoded once as a single text, or, for a segments wildcard, cut at its
slashes first and decoded part by part, empty parts left out, so that an escaped slash stays inside
its segment.

Captures are kept by variable, that is by name and declared type.  A later piece of the same variable
replaces the value; the entry keeps the variable of the first one.
-/
import UriRouting.Template.Token

namespace UriRouting

/-- **`RawValue`** — what was captured for a variable. -/
inductive RawValue
  | single (text : Text)
  | segments (parts : List Text)
  deriving DecidableEq, Repr, Inhabited

/-- The value that a token gives its variable for a captured piece. -/
def Token.rawValue (piece : Text) : Token → RawValue
  | .wildcard _ .segments =>
    .segments (((Text.pieces '/' piece).filter (· ≠ [])).map Percent.decode)
  | _ => .single (Percent.decode piece)

/-- **`Captures`** — the variables with a value, each once, in the order in which they were first
seen. -/
abbrev Captures := List (Variable × RawValue)

namespace Captures

/-- Gives a variable a value. -/
def put (v : Variable) (value : RawValue) : Captures → Captures
  | [] => [(v, value)]
  | (w, old) :: rest =>
    if w.key = v.key then (w, value) :: rest else (w, old) :: put v value rest

/-- **`record token piece captures`** — keeps the piece that a token was cut. -/
def record (token : Token) (piece : Text) (captures : Captures) : Captures :=
  match token.var? with
  | none => captures
  | some v => put v (token.rawValue piece) captures

/-- Keeps the pieces of tokens in order. -/
def recordAll (steps : List (Token × Text)) (captures : Captures) : Captures :=
  steps.foldl (fun acc (token, piece) => record token piece acc) captures

/-- The value of the variable with a given name and type. -/
def get? (key : Text × Option Text) (captures : Captures) : Option RawValue :=
  (captures.find? fun (v, _) => v.key = key).map Prod.snd

/-- The order of variables by name, and an untyped one before the typed ones of its name. -/
def listedBefore (v w : Variable) : Bool :=
  if v.name = w.name then
    match v.type, w.type with
    | none, _ => true
    | some _, none => false
    | some s, some t => Text.precedes s t
  else Text.precedes v.name w.name

/-- The entries in the order of their variables. -/
def sorted (captures : Captures) : Captures :=
  captures.mergeSort fun a b => listedBefore a.1 b.1

end Captures

end UriRouting
