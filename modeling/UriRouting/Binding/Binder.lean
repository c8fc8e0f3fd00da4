/-
# UriRouting.Binding.Binder — typed values for variables

A resolver turns the text captured for a variable into a value, or has none for it; that is an
expected answer and no error.

A binder holds resolvers for a name with a declared type, for a name whatever its type, for a type
whatever the name, and one for every other variable.  A look-up takes the most particular of these.
Binding a target again replaces its resolver.
-/
import UriRouting.Json.Basic
import UriRouting.Regex.Search
import UriRouting.Regex.Tables
import UriRouting.Text.Quoted

namespace UriRouting

/-- **`Resolver`** — the value of a captured text, if it has one. -/
abbrev Resolver := Text → Option Json

namespace Resolver

/-- Every text is a value as it is. -/
def passthrough : Resolver := fun raw => some (.string raw)

/-- Integers of 64 bits. -/
def integer : Resolver := fun raw => (Text.Decimal.signed64? raw).map .int

/-- The words for a truth value, in any case. -/
def boolean : Resolver := fun raw =>
  match String.ofList (Text.lower raw) with
  | "true" | "yes" | "1" => some (.bool true)
  | "false" | "no" | "0" => some (.bool false)
  | _ => none

/-- The texts of a list. -/
def options (values : List Text) : Resolver := fun raw =>
  if values.contains raw then some (.string raw) else none

/-- The texts that a compiled expression matches. -/
def matching [Regex.Library] (compiled : Regex.Library.Compiled) : Resolver := fun raw =>
  if Regex.Library.isMatch compiled raw then some (.string raw) else none

/-- **`regex pattern`** — the texts that the pattern, put between a start and an end of text, is to
match; an error if the library refuses that. -/
def regex [Regex.Library] (pattern : Text) : Except Text Resolver := do
  return matching (← Regex.Library.compile (['^', '(', '?', ':'] ++ pattern ++ [')', '$']))

end Resolver

/-- **`Binder`** — the resolvers of variables. -/
structure Binder where
  exact : List ((Text × Option Text) × Resolver) := []
  names : List (Text × Resolver) := []
  types : List (Text × Resolver) := []
  fallback : Resolver := Resolver.passthrough
  deriving Inhabited

namespace Binder

/-- Puts the resolver of a key into a list that holds each key once. -/
def assign {κ : Type} [DecidableEq κ] (key : κ) (resolver : Resolver) :
    List (κ × Resolver) → List (κ × Resolver)
  | [] => [(key, resolver)]
  | (k, old) :: rest =>
    if k = key then (k, resolver) :: rest else (k, old) :: assign key resolver rest

/-- The binder without bindings. -/
def empty : Binder := {}

/-- Binds the variables of a name and a declared type; no type is a target of its own. -/
def bind (b : Binder) (name : Text) (type : Option Text) (resolver : Resolver) : Binder :=
  { b with exact := assign (name, type) resolver b.exact }

/-- Binds the variables of a name. -/
def bindName (b : Binder) (name : Text) (resolver : Resolver) : Binder :=
  { b with names := assign name resolver b.names }

/-- Binds the variables of a declared type. -/
def bindType (b : Binder) (type : Text) (resolver : Resolver) : Binder :=
  { b with types := assign type resolver b.types }

/-- Sets the resolver of every other variable. -/
def setDefault (b : Binder) (resolver : Resolver) : Binder := { b with fallback := resolver }

/-- The binder that knows integers and truth values by the names of their types. -/
def builtin : Binder :=
  (((empty.bindType (Text.ofString "int") Resolver.integer).bindType
    (Text.ofString "integer") Resolver.integer).bindType
    (Text.ofString "bool") Resolver.boolean).bindType
    (Text.ofString "boolean") Resolver.boolean

/-- The resolver bound to a variable by its type. -/
def typed? (b : Binder) : Option Text → Option Resolver
  | none => none
  | some t => b.types.lookup t

/-- The resolver bound to a variable, the most particular one first. -/
def bound? (b : Binder) (name : Text) (type : Option Text) : Option Resolver :=
  ((b.exact.lookup (name, type)).or (b.names.lookup name)).or (b.typed? type)

/-- **`resolverOf b name type`** — the resolver of a variable. -/
def resolverOf (b : Binder) (name : Text) (type : Option Text) : Resolver :=
  (b.bound? name type).getD b.fallback

/-- **`isBound b name type`** — the variable has a resolver of its own. -/
def isBound (b : Binder) (name : Text) (type : Option Text) : Bool :=
  (b.bound? name type).isSome

/-- Texts in the order of code points. -/
def sortedTexts (ts : List Text) : List Text := ts.mergeSort Text.precedes

/-- **`describe b`** — the targets that have a resolver, for diagnosis. -/
def describe (b : Binder) : Text :=
  let exact := b.exact.map fun ((n, t), _) =>
    ['('] ++ Text.quoted n ++ [',', ' '] ++ Text.quoted? t ++ [')']
  let names := (sortedTexts (b.names.map Prod.fst)).map Text.quoted
  let types := (sortedTexts (b.types.map Prod.fst)).map Text.quoted
  Text.ofString "VariableBinder \x7b exact: " ++ Text.bracketed exact ++
    Text.ofString ", names: " ++ Text.bracketed names ++
    Text.ofString ", types: " ++ Text.bracketed types ++ Text.ofString ", .. \x7d"

end Binder

end UriRouting
