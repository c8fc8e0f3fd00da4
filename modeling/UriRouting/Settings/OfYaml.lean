/-
# UriRouting.Settings.OfYaml — settings from a document

In a document a text is whatever stands as a scalar, whether it looks like a number, a truth value or
null; only a field that is optional is unset by an empty value or a plain null.  An empty value also
stands for an empty list and for a group without fields.  Unknown fields are ignored, and no known
field may be given twice.
-/
import UriRouting.Settings.Basic
import UriRouting.Yaml.Node

namespace UriRouting.Settings

open Yaml (Node)

/-- The spellings of null. -/
def nullWords : List Text :=
  [Text.ofString "null", Text.ofString "Null", Text.ofString "NULL", Text.ofString "~"]

/-- The text is a spelling of null. -/
def isNullWord (t : Text) : Bool := nullWords.contains t

/-- The tag of null. -/
def nullTag : Text := Text.ofString "tag:yaml.org,2002:null"

/-- A scalar, as it is written. -/
def textOfNode? : Node → Option Text
  | .scalar t _ _ => some t
  | _ => none

/-- The node stands for nothing: an empty plain scalar. -/
def isAbsent : Node → Bool
  | .scalar [] true _ => true
  | _ => false

/-- A sequence of nodes that can all be read; an absent node is an empty one. -/
def listOfNode? {α : Type} (read : Node → Option α) : Node → Option (List α)
  | .sequence items _ => items.mapM read
  | n => if isAbsent n then some [] else none

/-- A node that may stand for no value. -/
def optionOfNode? {α : Type} (read : Node → Option α) : Node → Option (Option α)
  | .scalar t true (some tag) =>
    if tag = nullTag then if isNullWord t then some none else none
    else (read (.scalar t true (some tag))).map some
  | .scalar t true none =>
    if t = [] ∨ isNullWord t then some none else (read (.scalar t true none)).map some
  | n => (read n).map some

/-- One of several words: a scalar, or the word as the tag of an absent node. -/
def wordOfNode? {α : Type} (ofWord? : Text → Option α) : Node → Option α
  | .scalar t plain (some ('!' :: word)) =>
    if plain ∧ (t = [] ∨ isNullWord t) then ofWord? word else none
  | .scalar t _ _ => ofWord? t
  | _ => none

/-- The entries of a group of settings by name; a key must be a scalar. -/
def entries? : Node → Option (List (Text × Node))
  | .mapping entries _ => entries.mapM fun (k, v) => (textOfNode? k).map fun t => (t, v)
  | n => if isAbsent n then some [] else none

/-- The nodes that are given for a field. -/
def valuesOf (name : Text) (entries : List (Text × Node)) : List Node :=
  (entries.filter fun e => e.1 = name).map Prod.snd

/-- A field that must be given once. -/
def requiredNode {α : Type} (entries : List (Text × Node)) (name : Text) (read : Node → Option α) :
    Option α :=
  match valuesOf name entries with
  | [n] => read n
  | _ => none

/-- A field that is given once or stands for `default`. -/
def defaultedNode {α : Type} (entries : List (Text × Node)) (name : Text) (default : α)
    (read : Node → Option α) : Option α :=
  match valuesOf name entries with
  | [] => some default
  | [n] => read n
  | _ => none

/-- A route. -/
def routeOfNode? (n : Node) : Option RouteSettings := do
  let es ← entries? n
  let pattern ← requiredNode es patternField textOfNode?
  let service ← requiredNode es serviceField textOfNode?
  let description ← defaultedNode es descriptionField [] textOfNode?
  return ⟨pattern, service, description⟩

/-- A variable. -/
def variableOfNode? (n : Node) : Option VariableSettings := do
  let es ← entries? n
  let name ← defaultedNode es nameField none (optionOfNode? textOfNode?)
  let type ← defaultedNode es typeField none (optionOfNode? textOfNode?)
  let resolver ← defaultedNode es resolverField none
    (optionOfNode? (wordOfNode? BuiltinResolver.ofWord?))
  let options ← defaultedNode es optionsField none (optionOfNode? (listOfNode? textOfNode?))
  let regex ← defaultedNode es regexField none (optionOfNode? textOfNode?)
  return ⟨name, type, resolver, options, regex⟩

/-- The settings that a node holds. -/
def ofNode? (n : Node) : Option Settings := do
  let es ← entries? n
  let matchRule ← defaultedNode es matchRuleField .first (wordOfNode? MatchRule.ofWord?)
  let routes ← requiredNode es routesField (listOfNode? routeOfNode?)
  let bindings ← defaultedNode es variablesField [] (listOfNode? variableOfNode?)
  return ⟨matchRule, routes, bindings⟩

/-- **`ofYaml t`** — the settings that a document holds. -/
def ofYaml (t : Text) : Except YamlError Settings := do
  match ofNode? (← Node.ofText? t) with
  | some s => return s
  | none => throw .wrongShape

end UriRouting.Settings
