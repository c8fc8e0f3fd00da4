/-
# UriRouting.Settings.Basic — what a route table is built from

Settings list the routes of a table, the resolvers of its variables, and the match rule.  They are
plain data: whether the patterns can be read, the services differ and the resolvers fit is decided
when the table is built.

`toJson` writes settings as a JSON object, leaving out empty descriptions, an empty list of variables
and the fields that a variable does not set.
-/
import UriRouting.Route.Selection
import UriRouting.Json.Basic

namespace UriRouting

/-- **`BuiltinResolver`** — the resolvers that settings can name. -/
inductive BuiltinResolver
  | integer
  | boolean
  | string
  deriving DecidableEq, Repr, Inhabited

namespace BuiltinResolver

/-- The name in the settings. -/
def word : BuiltinResolver → Text
  | integer => Text.ofString "integer"
  | boolean => Text.ofString "boolean"
  | string => Text.ofString "string"

/-- The resolver that a word names. -/
def ofWord? (t : Text) : Option BuiltinResolver :=
  [integer, boolean, string].find? fun b => b.word = t

/-- The resolver itself. -/
def resolver : BuiltinResolver → Resolver
  | integer => Resolver.integer
  | boolean => Resolver.boolean
  | string => Resolver.passthrough

end BuiltinResolver

/-- **`RouteSettings`** — one route. -/
structure RouteSettings where
  pattern : Text
  service : Text
  description : Text := []
  deriving DecidableEq, Repr, Inhabited

/-- **`VariableSettings`** — the resolver for a name, for a type, or for both together. -/
structure VariableSettings where
  name : Option Text := none
  type : Option Text := none
  resolver : Option BuiltinResolver := none
  options : Option (List Text) := none
  regex : Option Text := none
  deriving DecidableEq, Repr, Inhabited

/-- **`Settings`** — a whole table. -/
structure Settings where
  matchRule : MatchRule := .first
  routes : List RouteSettings
  bindings : List VariableSettings := []
  deriving DecidableEq, Repr, Inhabited

namespace Settings

/-- The names of the fields. -/
def matchRuleField : Text := Text.ofString "match_rule"
def routesField : Text := Text.ofString "routes"
def variablesField : Text := Text.ofString "variables"
def patternField : Text := Text.ofString "pattern"
def serviceField : Text := Text.ofString "service"
def descriptionField : Text := Text.ofString "description"
def nameField : Text := Text.ofString "name"
def typeField : Text := Text.ofString "type"
def resolverField : Text := Text.ofString "resolver"
def optionsField : Text := Text.ofString "options"
def regexField : Text := Text.ofString "regex"

/-- A member that is written only if there is a value. -/
def optionalMember (name : Text) : Option Json → List (Text × Json)
  | none => []
  | some v => [(name, v)]

/-- A route as JSON. -/
def routeToJson (r : RouteSettings) : Json :=
  Json.ofMembers <|
    [(patternField, .string r.pattern), (serviceField, .string r.service)] ++
      if r.description = [] then [] else [(descriptionField, .string r.description)]

/-- A variable as JSON. -/
def variableToJson (v : VariableSettings) : Json :=
  Json.ofMembers <|
    optionalMember nameField (v.name.map .string) ++
    optionalMember typeField (v.type.map .string) ++
    optionalMember resolverField (v.resolver.map fun b => .string b.word) ++
    optionalMember optionsField (v.options.map fun ts => .array (ts.map .string)) ++
    optionalMember regexField (v.regex.map .string)

/-- **`toJson s`** — the settings as JSON. -/
def toJson (s : Settings) : Json :=
  Json.ofMembers <|
    [(matchRuleField, .string s.matchRule.word), (routesField, .array (s.routes.map routeToJson))] ++
      if s.bindings = [] then [] else [(variablesField, .array (s.bindings.map variableToJson))]

end Settings

end UriRouting
