/-
# UriRouting.Settings.Table — the route table that settings describe

Routes are checked in order, the service of each before its pattern, and variables in order after all
routes, so the first fault in that order is the one reported.  A variable's settings bind one resolver
to one target; they extend the built-in types, and a later one overrides an earlier one for the same
target.
-/
import UriRouting.Route.Table
import UriRouting.Settings.Error
import UriRouting.Settings.OfYaml

namespace UriRouting

/-- **`BindingTarget`** — the variables that a resolver is for. -/
inductive BindingTarget
  /-- those of a name and a declared type -/
  | exact (name type : Text)
  /-- those of a name -/
  | named (name : Text)
  /-- those of a declared type -/
  | typed (type : Text)
  deriving DecidableEq, Repr, Inhabited

namespace BindingTarget

/-- The target in words: type and name with a colon between them, or a star for any name. -/
def label : BindingTarget → Text
  | exact name type => type ++ [':'] ++ name
  | named name => name
  | typed type => type ++ [':', '*']

/-- Binds a resolver to the target. -/
def bind (b : Binder) (resolver : Resolver) : BindingTarget → Binder
  | exact name type => b.bind name (some type) resolver
  | named name => b.bindName name resolver
  | typed type => b.bindType type resolver

end BindingTarget

variable [Regex.Library]

namespace VariableSettings

/-- The target that the settings name, if they name one. -/
def target? (v : VariableSettings) : Option BindingTarget :=
  match v.name, v.type with
  | some name, some type => some (.exact name type)
  | some name, none => some (.named name)
  | none, some type => some (.typed type)
  | none, none => none

/-- The resolver that the settings describe, in exactly one of three ways. -/
def resolverFor (v : VariableSettings) (target : BindingTarget) : Except BindingFault Resolver :=
  match v.resolver, v.options, v.regex with
  | some builtin, none, none => .ok builtin.resolver
  | none, some options, none => .ok (Resolver.options options)
  | none, none, some regex => (Resolver.regex regex).mapError (.invalidRegex target.label)
  | _, _, _ => .error (.notOneResolver target.label)

/-- **`addTo`** — the binder with the binding of one variable's settings. -/
def addTo (b : Binder) (v : VariableSettings) : Except BindingFault Binder :=
  match v.target? with
  | none => .error .noTarget
  | some target => do return target.bind b (← v.resolverFor target)

end VariableSettings

namespace RouteSettings

/-- The route with its pattern made ready for matching. -/
def compile (r : RouteSettings) : Except ConfigError Route :=
  match Pattern.compile r.pattern with
  | .ok pattern => .ok ⟨r.service, r.description, pattern⟩
  | .error e => .error (.template r.pattern e)

/-- The routes in order, none of which may have a service that stands in `seen` or with an earlier
route. -/
def compileAll (seen : List Text) : List RouteSettings → Except ConfigError (List Route)
  | [] => .ok []
  | r :: rest =>
    if r.service ∈ seen then .error (.duplicateService r.service)
    else do
      let route ← r.compile
      let routes ← compileAll (r.service :: seen) rest
      return route :: routes

end RouteSettings

namespace Settings

/-- The binder with the bindings of all variables in order. -/
def binderOf (bindings : List VariableSettings) : Except ConfigError Binder :=
  (bindings.foldlM VariableSettings.addTo Binder.builtin).mapError .binding

/-- **`table s`** — the route table that the settings describe. -/
def table (s : Settings) : Except ConfigError RouteTable := do
  let routes ← RouteSettings.compileAll [] s.routes
  let binder ← binderOf s.bindings
  return ⟨routes, binder, s.matchRule⟩

/-- **`tableOfYaml t`** — the route table that a document describes. -/
def tableOfYaml (t : Text) : Except ConfigError RouteTable := do
  (← (ofYaml t).mapError .parse).table

/-- The route table in a file, given the outcome of reading it. -/
def tableOfFile (contents : Except FileError Text) : Except ConfigError RouteTable := do
  tableOfYaml (← contents.mapError .io)

end Settings

end UriRouting
