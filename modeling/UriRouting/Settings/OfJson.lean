/-
# UriRouting.Settings.OfJson — settings from JSON

A group of settings is an object, whose members may come in any order and may be accompanied by
unknown ones, or an array with the values of its fields in order.  An array has to go up to the last
field that has no default; an object may leave out whatever is optional.  Texts must be strings, and
null stands only for an optional field that is not set.
-/
import UriRouting.Settings.Basic

namespace UriRouting.Settings

/-- **`Fields`** — the values of some fields, in their order, and whether they came by name. -/
structure Fields where
  named : Bool
  values : List (Option Json)

/-- The values of the fields with given names. -/
def fields? (names : List Text) : Json → Option Fields
  | .object members => some ⟨true, names.map fun n => members.lookup n⟩
  | .array items =>
    if items.length ≤ names.length then
      some ⟨false, items.map some ++ List.replicate (names.length - items.length) none⟩
    else none
  | _ => none

namespace Fields

/-- The value of the field at a place. -/
def at? (f : Fields) (i : Nat) : Option Json := (f.values[i]?).join

/-- A field that must be there. -/
def required {α : Type} (f : Fields) (i : Nat) (read : Json → Option α) : Option α :=
  (f.at? i).bind read

/-- A field that stands for `default` when it is missing. -/
def defaulted {α : Type} (f : Fields) (i : Nat) (default : α) (read : Json → Option α) : Option α :=
  match f.at? i with
  | none => some default
  | some v => read v

/-- A field that may be null, or missing where fields come by name. -/
def optional {α : Type} (f : Fields) (i : Nat) (read : Json → Option α) : Option (Option α) :=
  match f.at? i with
  | none => if f.named then some none else none
  | some .null => some none
  | some v => (read v).map some

end Fields

/-- A string. -/
def textOfJson? : Json → Option Text
  | .string t => some t
  | _ => none

/-- An array of values that can all be read. -/
def listOfJson? {α : Type} (read : Json → Option α) : Json → Option (List α)
  | .array items => items.mapM read
  | _ => none

/-- One of several words: a string, or an object with the word as its only member and null in it. -/
def wordOfJson? {α : Type} (ofWord? : Text → Option α) : Json → Option α
  | .string t => ofWord? t
  | .object [(t, .null)] => ofWord? t
  | _ => none

/-- The match rule. -/
def matchRuleOfJson? : Json → Option MatchRule := wordOfJson? MatchRule.ofWord?

/-- A route. -/
def routeOfJson? (v : Json) : Option RouteSettings := do
  let f ← fields? [patternField, serviceField, descriptionField] v
  let pattern ← f.required 0 textOfJson?
  let service ← f.required 1 textOfJson?
  let description ← f.defaulted 2 [] textOfJson?
  return ⟨pattern, service, description⟩

/-- A variable. -/
def variableOfJson? (v : Json) : Option VariableSettings := do
  let f ← fields? [nameField, typeField, resolverField, optionsField, regexField] v
  let name ← f.optional 0 textOfJson?
  let type ← f.optional 1 textOfJson?
  let resolver ← f.optional 2 (wordOfJson? BuiltinResolver.ofWord?)
  let options ← f.optional 3 (listOfJson? textOfJson?)
  let regex ← f.optional 4 textOfJson?
  return ⟨name, type, resolver, options, regex⟩

/-- **`ofJson? v`** — the settings that a JSON value holds. -/
def ofJson? (v : Json) : Option Settings := do
  let f ← fields? [matchRuleField, routesField, variablesField] v
  let matchRule ← f.defaulted 0 .first matchRuleOfJson?
  let routes ← f.required 1 (listOfJson? routeOfJson?)
  let bindings ← f.defaulted 2 [] (listOfJson? variableOfJson?)
  return ⟨matchRule, routes, bindings⟩

end UriRouting.Settings
