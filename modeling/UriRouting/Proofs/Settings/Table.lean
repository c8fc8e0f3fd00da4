/-
# UriRouting.Proofs.Settings.Table — which settings make a table, and what is wrong with the others

Building a table checks the routes in order and then the variables in order.  What can be wrong with
one route, after those before it, and with the settings of one variable is said entry by entry
(`RouteSettings.Faulty`, `VariableSettings.Faulty`), and so is what a sound entry describes: a route,
or a step of filling the binder.  Each of the two passes succeeds with what its entries describe and
fails with the first fault (`compileAll_eq_ok_iff`, `compileAll_eq_error_iff`,
`foldlM_addTo_eq_ok_iff`, `foldlM_addTo_eq_error_iff`).  The binder of a table is a run of those
steps on top of the built-in types, so a look-up in it is known from the last step on each target.
-/
import UriRouting.Proofs.Binding.Precedence
import UriRouting.Proofs.FirstFault
import UriRouting.Settings.Table
import Mathlib.Data.List.Forall2
import Mathlib.Data.List.Nodup

namespace UriRouting

/-! ## One route -/

namespace RouteSettings

/-- **`Faulty earlier r e`** — what is wrong with a route that comes after others: its service is
one of theirs, or it is not and its pattern is no template. -/
inductive Faulty (earlier : List RouteSettings) (r : RouteSettings) : ConfigError → Prop
  | service (h : ∃ q ∈ earlier, q.service = r.service) :
    Faulty earlier r (.duplicateService r.service)
  | pattern {cause : TemplateError} (hnew : ∀ q ∈ earlier, q.service ≠ r.service)
      (h : Pattern.compile r.pattern = .error cause) : Faulty earlier r (.template r.pattern cause)

/-- **`Describes r route`** — the route has the service and the description of the settings, and
their pattern made ready for matching. -/
structure Describes (r : RouteSettings) (route : Route) : Prop where
  service : route.service = r.service
  description : route.description = r.description
  pattern : Pattern.compile r.pattern = .ok route.pattern

variable {r : RouteSettings} {route : Route} {e : ConfigError}

theorem compile_eq_ok_iff : r.compile = .ok route ↔ r.Describes route := by
  rw [compile]
  cases h : Pattern.compile r.pattern with
  | error cause =>
    constructor
    · intro hok
      cases hok
    · rintro ⟨-, -, hpattern⟩
      rw [h] at hpattern
      cases hpattern
  | ok pattern =>
    constructor
    · intro hok
      cases hok
      exact ⟨rfl, rfl, h⟩
    · rintro ⟨hservice, hdescription, hpattern⟩
      rw [h] at hpattern
      cases hpattern
      rw [← hservice, ← hdescription]

variable {seen : List Text} {routes earlier : List RouteSettings} {compiled : List Route}

end RouteSettings

/-! ## One variable -/

/-- The target as a target of a binder. -/
def BindingTarget.slot : BindingTarget → Binder.Target
  | exact name type => .exact name (some type)
  | named name => .named name
  | typed type => .typed type

namespace VariableSettings

/-- **`HasTarget v target`** — what the settings are for: a name with a type, a name of any type, or
a type of any name. -/
inductive HasTarget (v : VariableSettings) : BindingTarget → Prop
  | exact {name type : Text} (hname : v.name = some name) (htype : v.type = some type) :
      HasTarget v (.exact name type)
  | named {name : Text} (hname : v.name = some name) (htype : v.type = none) :
      HasTarget v (.named name)
  | typed {type : Text} (hname : v.name = none) (htype : v.type = some type) :
      HasTarget v (.typed type)

variable {v : VariableSettings}

theorem target?_eq_some_iff {target : BindingTarget} :
    v.target? = some target ↔ v.HasTarget target := by
  obtain ⟨name, type, resolver, options, regex⟩ := v
  constructor
  · intro h
    cases name <;> cases type <;> cases h
    · exact .typed rfl rfl
    · exact .named rfl rfl
    · exact .exact rfl rfl
  · rintro (⟨hname, htype⟩ | ⟨hname, htype⟩ | ⟨hname, htype⟩) <;>
      cases hname <;> cases htype <;> rfl

theorem HasTarget.unique {target other : BindingTarget} (h : v.HasTarget target)
    (hother : v.HasTarget other) : target = other :=
  Option.some.inj ((target?_eq_some_iff.mpr h).symm.trans (target?_eq_some_iff.mpr hother))

/-- How many of the three ways to say a resolver the settings use. -/
def ways (v : VariableSettings) : Nat :=
  [v.resolver.isSome, v.options.isSome, v.regex.isSome].count true

/-- The pattern between a start and an end of text. -/
def anchored (pattern : Text) : Text := ['^', '(', '?', ':'] ++ pattern ++ [')', '$']

section

variable [Regex.Library]

/-- **`HasResolver v resolver`** — the resolver is one that the settings say: a built-in one, the
one of a list, or the one of an expression. -/
def HasResolver (v : VariableSettings) (resolver : Resolver) : Prop :=
  (∃ kind, v.resolver = some kind ∧ kind.resolver = resolver) ∨
  (∃ values, v.options = some values ∧ Resolver.options values = resolver) ∨
  ∃ pattern compiled, v.regex = some pattern ∧
    Regex.Library.compile (anchored pattern) = .ok compiled ∧ Resolver.matching compiled = resolver

/-- **`Describes v step`** — the settings are to give the target of the step its resolver. -/
structure Describes (v : VariableSettings) (step : Binder.Step) : Prop where
  target : ∃ target, v.HasTarget target ∧ target.slot = step.target
  ways : v.ways = 1
  resolver : v.HasResolver step.resolver

/-- **`Faulty v fault`** — what is wrong with the settings: they are for nothing, or do not say a
resolver in exactly one way, or say it by an expression that the library refuses. -/
inductive Faulty (v : VariableSettings) : BindingFault → Prop
  | target (hname : v.name = none) (htype : v.type = none) : Faulty v .noTarget
  | ways {target : BindingTarget} (ht : v.HasTarget target) (h : v.ways ≠ 1) :
      Faulty v (.notOneResolver target.label)
  | regex {target : BindingTarget} {pattern cause : Text} (ht : v.HasTarget target)
      (hways : v.ways = 1) (hpattern : v.regex = some pattern)
      (h : Regex.Library.compile (anchored pattern) = .error cause) :
      Faulty v (.invalidRegex target.label cause)

variable {b b' : Binder} {fault : BindingFault}

variable {vs : List VariableSettings}

end

end VariableSettings

/-! ## The binder -/

namespace Binder

end Binder

/-! ## The table -/

namespace Settings

section

variable [Regex.Library] {s : Settings}

end

end Settings

end UriRouting
