/-
# UriRouting.Http.Service — the route table as a web service

`respond` is the answer of a route table to a request.  Two paths are reserved: `/_routes` lists the
routes, and `/_expand/` with the name of a service after it expands the pattern of that service with
the values of the query.  They are recognised in the path as it was sent, before escapes are decoded,
and allow only reading.  Every other path is dispatched, whatever the method.

A request that fails has a status code with its reason phrase, and a message that says what went
wrong; the body of the answer holds both.
-/
import UriRouting.Http.Target
import UriRouting.Json.Basic
import UriRouting.Route.Table
import UriRouting.Settings.Error

namespace UriRouting.Http

/-- **`Failure`** — the ways in which a request fails. -/
inductive Failure
  | notFound (text : Text)
  | badRequest (text : Text)
  | internal (text : Text)
  deriving DecidableEq, Repr, Inhabited

namespace Failure

/-- The status code. -/
def status : Failure → Nat
  | notFound _ => 404
  | badRequest _ => 400
  | internal _ => 500

/-- The reason phrase of the status code. -/
def reason : Failure → Text
  | notFound _ => Text.ofString "Not Found"
  | badRequest _ => Text.ofString "Bad Request"
  | internal _ => Text.ofString "Internal Server Error"

/-- **`message`** — the failure in words. -/
def message : Failure → Text
  | notFound text => Text.ofString "Not found: " ++ text
  | badRequest text => Text.ofString "Bad request: " ++ text
  | internal text => Text.ofString "Internal error: " ++ text

/-- **`body`** — the body of the answer. -/
def body (f : Failure) : Json :=
  Json.ofMembers
    [(Text.ofString "error", .string f.reason), (Text.ofString "message", .string f.message)]

/-- A fault in the settings is an internal failure. -/
def ofConfig (e : ConfigError) : Failure := .internal e.message

end Failure

/-- **`Method`** — the method of a request, as far as methods are told apart. -/
inductive Method
  | get
  | head
  | connect
  | other (name : Text)
  deriving DecidableEq, Repr, Inhabited

/-- The method of a name, which is written in capitals. -/
def Method.ofName (name : Text) : Method :=
  if name = Text.ofString "GET" then get
  else if name = Text.ofString "HEAD" then head
  else if name = Text.ofString "CONNECT" then connect
  else other name

/-- **`Request`** — a method and a target. -/
structure Request where
  method : Method := .get
  target : Target
  deriving DecidableEq, Repr, Inhabited

/-- **`Response`** — a status code, and a body if the answer carries JSON. -/
structure Response where
  status : Nat
  body : Option Json := none
  deriving Repr, Inhabited

/-- **`Resource`** — what a path asks for. -/
inductive Resource
  /-- the list of routes -/
  | listing
  /-- the expansion of a service's pattern; the name of the service is still encoded -/
  | expansion (service : Text)
  /-- the route that gets the path -/
  | dispatched
  deriving DecidableEq, Repr, Inhabited

/-- **`ofPath path`** — what a path asks for. -/
def Resource.ofPath (path : Text) : Resource :=
  if path = Text.ofString "/_routes" then listing
  else match Text.strip (Text.ofString "/_expand/") path with
    | some service => if service ≠ [] ∧ '/' ∉ service then expansion service else dispatched
    | none => dispatched

/-- The answer to a request that succeeds or fails. -/
def Response.ofResult : Except Failure Json → Response
  | .ok body => ⟨200, some body⟩
  | .error f => ⟨f.status, some f.body⟩

/-- The answer to a method that a resource does not allow. -/
def Response.notAllowed : Response := ⟨405, none⟩

/-- The answer to a name that is no text. -/
def Response.unreadable : Response := ⟨400, none⟩

/-- The list of all routes. -/
def listing (table : RouteTable) : Json := .array (table.routes.map Route.summary)

/-- The text of a service's pattern for given values. -/
def expansion (table : RouteTable) (service : Text) (params : Params) : Except Failure Json :=
  match table.route? service with
  | none => .error (.notFound (Text.ofString "Unknown service: " ++ Text.inQuotes service))
  | some route => .ok <| Json.ofMembers
    [(Text.ofString "service", .string route.service),
     (Text.ofString "uri", .string (route.pattern.template.expand params))]

/-- The route that gets a path and the values of its variables, if they all have one. -/
def dispatched (table : RouteTable) (path : Text) : Except Failure Json :=
  match table.dispatch path with
  | none => .error (.notFound (Text.ofString "No route matches " ++ Text.inQuotes path))
  | some d =>
    if d.result.isResolved then .ok d.summary
    else .error <| .notFound <|
      Text.ofString "Route " ++ Text.inQuotes d.route.service ++ Text.ofString " matched " ++
        Text.inQuotes path ++ Text.ofString " but is " ++ d.result.status.word

/-- The values that a query gives: the last one for a name counts. -/
def paramsOf (query : Option Text) : Params := Params.ofAssignments (Form.read (query.getD []))

/-- The answer before the method decides about its body. -/
def answer (table : RouteTable) (request : Request) : Response :=
  let reading := request.method = .get ∨ request.method = .head
  match Resource.ofPath request.target.path with
  | .listing => if reading then .ofResult (.ok (listing table)) else .notAllowed
  | .expansion service =>
    if reading then
      match Percent.decode? service with
      | none => .unreadable
      | some service => .ofResult (expansion table service (paramsOf request.target.query))
    else .notAllowed
  | .dispatched => .ofResult (dispatched table request.target.path)

/-- The answer as a method lets it be sent: none to `HEAD` has a body, and none to `CONNECT` that
succeeds. -/
def Response.forMethod (r : Response) : Method → Response
  | .head => { r with body := none }
  | .connect => if r.status = 200 then { r with body := none } else r
  | _ => r

/-- **`respond table request`** — the answer of the service. -/
def respond (table : RouteTable) (request : Request) : Response :=
  (answer table request).forMethod request.method

end UriRouting.Http
