/-
# UriRouting.Route.Table — named patterns and the dispatch of paths to them

A route gives a pattern the name of a service.  `RouteTable.dispatch` tries the routes that match a
path in the order of the match rule.  The first that resolves the path gets it; if none does, the
preferred route keeps it together with its outcome, so that the caller sees why.

What a listing says about a route, and what a caller is told about a path that was dispatched, are
JSON objects with the same members for every way of asking.
-/
import UriRouting.Route.Selection

namespace UriRouting

/-- **`Route`** — a service, what it is for, and the pattern of its paths. -/
structure Route where
  service : Text
  description : Text
  pattern : Pattern

/-- **`RouteTable`** — routes in order, the resolvers of their variables, and the match rule. -/
structure RouteTable where
  routes : List Route
  binder : Binder
  matchRule : MatchRule
  deriving Inhabited

/-- **`Dispatch`** — a route and the resolution of a path against it. -/
structure Dispatch where
  route : Route
  result : Resolution

namespace RouteTable

/-- The route of a service. -/
def route? (table : RouteTable) (service : Text) : Option Route :=
  table.routes.find? fun r => r.service = service

/-- The resolution of a path against a route of the table. -/
def attempt (table : RouteTable) (path : Text) (route : Route) : Dispatch :=
  ⟨route, route.pattern.resolve table.binder path⟩

/-- The first attempt that resolves, else the first attempt. -/
def choose (attempts : List Dispatch) : Option Dispatch :=
  (attempts.find? fun d => d.result.isResolved).or attempts.head?

/-- **`dispatch table path`** — the route that gets a path, if any matches it. -/
def dispatch (table : RouteTable) (path : Text) : Option Dispatch :=
  choose ((Selection.ranked Route.pattern table.matchRule path table.routes).map
    (table.attempt path))

end RouteTable

/-- **`summary`** — service, pattern, description and score of a route. -/
def Route.summary (r : Route) : Json :=
  Json.ofMembers
    [(Text.ofString "service", .string r.service),
     (Text.ofString "pattern", .string r.pattern.source),
     (Text.ofString "description", .string r.description),
     (Text.ofString "score", .int r.pattern.score)]

/-- **`summary`** — service and pattern of the route that a path got, the outcome, and the values of
the variables. -/
def Dispatch.summary (d : Dispatch) : Json :=
  Json.ofMembers
    [(Text.ofString "service", .string d.route.service),
     (Text.ofString "pattern", .string d.route.pattern.source),
     (Text.ofString "status", .string d.result.status.word),
     (Text.ofString "variables", Json.ofMembers d.result.values)]

end UriRouting
