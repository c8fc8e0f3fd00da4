/-
# UriRouting.Proofs.Route.Links — an expanded link is dispatched

A link is the expanded pattern of a route.  Other routes may match it as well, and some of them may
stand ahead of its own.  Those that match without resolving it do not get it, for a dispatch prefers
every route that resolves (`dispatch_of_resolves`).  Its own route does, whatever the others are,
since resolving undoes expanding (`resolves_expand`); so the link goes to its own route or to one
ahead of it that resolves it too.
-/
import UriRouting.Proofs.Binding.RoundTrip
import UriRouting.Proofs.Route.Dispatch

namespace UriRouting.RouteTable

open Selection

variable {table : RouteTable} {path : Text} {route : Route} {place : Nat}

/-- **A path that a route resolves** goes to that route or to one ahead of it that resolves it. -/
theorem dispatch_of_resolves (hplace : table.routes[place]? = some route)
    (h : table.Resolves path route) :
    ∃ winner : Route × Nat,
      IsEarliest Route.pattern table.matchRule (table.Resolves path) table.routes winner ∧
      table.dispatch path = some (table.attempt path winner.1) ∧
      (winner = (route, place) ∨ Ahead Route.pattern table.matchRule winner (route, place)) := by
  cases hfind : (ranked (fun a : Route × Nat => a.1.pattern) table.matchRule path
      table.routes.zipIdx).find? fun a => (a.1.pattern.resolve table.binder path).isResolved with
  | none =>
    have hnone := find?_resolved_eq_none_iff.mp hfind
    exact absurd h (hnone route (List.mem_of_getElem? hplace))
  | some winner =>
    have hearliest := find?_resolved_eq_some_iff.mp hfind
    refine ⟨winner, hearliest, ?_, ?_⟩
    · rw [dispatch_eq_map, hfind]
      rfl
    · by_cases hsame : place = winner.2
      · left
        have hwinner := hearliest.place
        rw [← hsame, hplace] at hwinner
        exact Prod.ext (Option.some.inj hwinner).symm hsame.symm
      · exact .inr (hearliest.ahead route place hplace h hsame)

/-- A route resolves the links that are made of it with texts its resolvers take. -/
theorem resolves_expand {params : Params}
    (hnames : (route.pattern.template.vars.map Variable.name).Nodup)
    (hcut : Pattern.Unambiguous route.pattern.tokens)
    (hadmits : ∀ token ∈ route.pattern.tokens, token.Admits params)
    (hvalues : ∀ v ∈ route.pattern.template.vars,
      (table.binder.resolverOf v.name v.type (v.effective params)).isSome = true) :
    table.Resolves (route.pattern.template.expand params) route ∧
      ∀ v ∈ route.pattern.template.vars,
        (route.pattern.resolve table.binder (route.pattern.template.expand params)).get? v.name =
          table.binder.resolverOf v.name v.type (v.effective params) := by
  have hcaptures := Pattern.captures_expand hcut hadmits
  have hlast := Pattern.lastTexts_expand hnames hcut hadmits
  have houtcome := Pattern.isOutcome_resolve table.binder hcaptures
  refine ⟨⟨Pattern.matchesPath_iff_captures.mpr ⟨_, hcaptures⟩, ?_⟩, fun v hv => ?_⟩
  · exact (houtcome.resolved_iff_forall hlast).mpr hvalues
  · exact houtcome.get?_eq_resolverOf hlast hnames hv

/-- **An expanded link is dispatched.**  Take a route of a table whose variables have distinct names
and whose tokens are unambiguous, and expand its pattern with texts that its tokens admit and that
the resolvers of its variables take.  The link is dispatched with all values found: to the route
itself, with what each resolver has for the text of its variable, or to a route ahead of it that
resolves the link as well. -/
theorem dispatch_expand (table : RouteTable) (params : Params) {route : Route} {place : Nat}
    (hplace : table.routes[place]? = some route)
    (hnames : (route.pattern.template.vars.map Variable.name).Nodup)
    (hcut : Pattern.Unambiguous route.pattern.tokens)
    (hadmits : ∀ token ∈ route.pattern.tokens, token.Admits params)
    (hvalues : ∀ v ∈ route.pattern.template.vars,
      (table.binder.resolverOf v.name v.type (v.effective params)).isSome = true) :
    let link := route.pattern.template.expand params
    ∃ d winner, table.dispatch link = some d ∧ d.result.status = .resolved ∧
      table.routes[winner]? = some d.route ∧
      d.result = d.route.pattern.resolve table.binder link ∧
      ((winner = place ∧ d.route = route ∧ ∀ v ∈ route.pattern.template.vars,
          d.result.get? v.name = table.binder.resolverOf v.name v.type (v.effective params)) ∨
        (Ahead Route.pattern table.matchRule (d.route, winner) (route, place) ∧
          table.Resolves link d.route)) := by
  intro link
  obtain ⟨hresolves, hbound⟩ := resolves_expand hnames hcut hadmits hvalues
  obtain ⟨winner, hearliest, hdispatch, hwinner⟩ := dispatch_of_resolves hplace hresolves
  refine ⟨table.attempt link winner.1, winner.2, hdispatch, hearliest.isGood.2, hearliest.place,
    rfl, ?_⟩
  rcases hwinner with rfl | hahead
  · exact .inl ⟨rfl, rfl, hbound⟩
  · exact .inr ⟨hahead, hearliest.isGood⟩

/-- The route ahead matches the link but does not resolve it: its resolver takes only integers. -/
theorem dispatch_expand_behind :
    ∃ (table : RouteTable) (route : Route), table.routes[1]? = some route ∧
      Pattern.compile (Text.ofString "/\x7bname=x\x7d") = .ok route.pattern ∧
      (∃ ahead, table.routes[0]? = some ahead ∧ Matches (Text.ofString "/x") ahead ∧
        ¬ table.Resolves (Text.ofString "/x") ahead) ∧
      ∃ d, table.dispatch (Text.ofString "/x") = some d ∧ d.result.status = .resolved ∧
        (d.route = route ∨ table.Resolves (Text.ofString "/x") d.route) := by
  let int : Variable := ⟨['i', 'd'], some ['i', 'n', 't'], none⟩
  let name : Variable := ⟨['n', 'a', 'm', 'e'], none, some ['x']⟩
  let ahead : Route := ⟨['a'], [], .of ⟨Text.ofString "/\x7bint:id\x7d",
    [.literal ['/'], .placeholder int .plain]⟩⟩
  let route : Route := ⟨['b'], [], .of ⟨Text.ofString "/\x7bname=x\x7d",
    [.literal ['/'], .placeholder name .plain]⟩⟩
  let table : RouteTable := ⟨[ahead, route], .builtin, .first⟩
  have hmatches : ahead.pattern.matchesPath (Text.ofString "/x") = true := by decide
  have hunresolved : ¬ table.Resolves (Text.ofString "/x") ahead := by
    rintro ⟨-, hstatus⟩
    exact absurd hstatus (by decide)
  obtain ⟨d, winner, hdispatch, hstatus, -, -, hwinner⟩ :=
    dispatch_expand table (fun _ => none) (rfl : table.routes[1]? = some route) (by decide)
      (by decide) (by decide) (by decide)
  exact ⟨table, route, rfl, rfl, ⟨ahead, rfl, hmatches, hunresolved⟩, d, hdispatch, hstatus,
    hwinner.imp (fun h => h.2.1) And.right⟩

end UriRouting.RouteTable
