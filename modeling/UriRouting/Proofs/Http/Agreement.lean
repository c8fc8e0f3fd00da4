/-
# UriRouting.Proofs.Http.Agreement — two ways to ask for a path

A path can be asked for in a request or on the command line.  The two ways read it apart: a request
names it as the beginning of its target, the command line takes it for a URL first.  For a path that
is no resource of the service itself both come to the dispatch of the same text
(`path_of_read`, `Location.pathOf_of_isRooted`), and then tell the same of it (`Tells`).

They part where a path does not get its values.  The service answers that there is nothing; the
command fails too, but first prints what it found if a route matches.
-/
import UriRouting.Cli.Run
import UriRouting.Http.Service
import UriRouting.Proofs.Location.Path
import UriRouting.Proofs.Pattern.Expression
import UriRouting.Proofs.Route.Dispatch
import Mathlib.Data.List.TakeDrop

namespace UriRouting

/-- **`IsRoutable path`** — the path is written as one, without query and fragment, and is neither
the listing of the routes nor the expansion of a service. -/
structure IsRoutable (path : Text) : Prop where
  rooted : path.head? = some '/'
  noQuery : '?' ∉ path
  noFragment : '#' ∉ path
  notListing : path ≠ Text.ofString "/_routes"
  notExpansion : ∀ service, path = Text.ofString "/_expand/" ++ service →
    service = [] ∨ '/' ∈ service

theorem isRoutable_of_strip {path : Text} (hrooted : path.head? = some '/') (hquery : '?' ∉ path)
    (hfragment : '#' ∉ path) (hlisting : path ≠ Text.ofString "/_routes")
    (hstrip : Text.strip (Text.ofString "/_expand/") path = none) : IsRoutable path := by
  refine ⟨hrooted, hquery, hfragment, hlisting, fun service hservice => ?_⟩
  rw [Text.strip_eq_some_iff.mpr hservice] at hstrip
  cases hstrip

/-! ## §1 The path of a request -/

namespace Http

open Target (isPathChar pathAt queryAt)

variable {table : RouteTable} {path tail uri : Text} {target : Target} {method : Method}

/-- The path of a target ends where its query begins. -/
theorem path_of_pathAt (hquery : '?' ∉ path) (hfragment : '#' ∉ path)
    (htail : tail = [] ∨ ∃ query, tail = '?' :: query)
    (h : pathAt (path ++ tail) = some target) : target.path = path := by
  have hall : ∀ c ∈ path, isPathChar c = true := by
    rw [← List.dropWhile_eq_nil_iff]
    unfold pathAt at h
    rw [List.span_eq_takeWhile_dropWhile, List.dropWhile_append] at h
    cases hrest : path.dropWhile isPathChar with
    | nil => rfl
    | cons c rest =>
      -- the character belongs to no path, and ends none either
      have hmem : c ∈ path := (List.dropWhile_sublist _).mem (hrest ▸ List.mem_cons_self)
      have hq : c ≠ '?' := fun heq => hquery (heq ▸ hmem)
      have hf : c ≠ '#' := fun heq => hfragment (heq ▸ hmem)
      rw [hrest] at h
      simp [hq, hf] at h
  unfold pathAt at h
  rcases htail with rfl | ⟨query, rfl⟩
  · rw [List.span_eq_takeWhile_dropWhile, Text.takeWhile_run hall rfl,
      Text.dropWhile_run hall rfl] at h
    obtain rfl := Option.some.inj h
    rfl
  · rw [List.span_eq_takeWhile_dropWhile, Text.takeWhile_run hall rfl,
      Text.dropWhile_run hall rfl] at h
    obtain ⟨q, -, rfl⟩ := Option.map_eq_some_iff.mp h
    rfl

/-- **The path of a request** is the text before the query. -/
theorem path_of_read (hpath : IsRoutable path)
    (huri : uri = path ∨ ∃ query, uri = path ++ '?' :: query) (h : Target.read uri = some target) :
    target.path = path := by
  obtain ⟨tail, rfl, htail⟩ :
      ∃ tail, uri = path ++ tail ∧ (tail = [] ∨ ∃ query, tail = '?' :: query) := by
    rcases huri with rfl | ⟨query, rfl⟩
    · exact ⟨[], by simp, .inl rfl⟩
    · exact ⟨'?' :: query, rfl, .inr ⟨query, rfl⟩⟩
  obtain ⟨rest, rfl⟩ := List.head?_eq_some_iff.mp hpath.rooted
  unfold Target.read at h
  split at h
  · cases h
  · exact path_of_pathAt hpath.noQuery hpath.noFragment htail h

theorem ofPath_eq_dispatched (hpath : IsRoutable path) : Resource.ofPath path = .dispatched := by
  unfold Resource.ofPath
  rw [if_neg hpath.notListing]
  cases hstrip : Text.strip (Text.ofString "/_expand/") path with
  | none => rfl
  | some service =>
    have hservice := hpath.notExpansion service (Text.strip_eq_some_iff.mp hstrip)
    refine if_neg ?_
    rintro ⟨hne, hslash⟩
    exact hservice.elim hne hslash

/-- No method changes the status of an answer. -/
theorem status_forMethod (r : Response) (method : Method) :
    (r.forMethod method).status = r.status := by
  unfold Response.forMethod
  split
  · rfl
  · split <;> rfl
  · rfl

/-- Of an answer that succeeds only `HEAD` and `CONNECT` drop the body. -/
theorem body_forMethod {r : Response} (hstatus : r.status = 200)
    (hhead : method ≠ .head) :
    (r.forMethod method).body = if method = .connect then none else r.body := by
  unfold Response.forMethod
  cases method with
  | head => exact absurd rfl hhead
  | connect => simp [hstatus]
  | get => rfl
  | other name => rfl

/-- A request for a routable path is answered by its dispatch, whatever the query. -/
theorem respond_eq_dispatched (hpath : IsRoutable path)
    (huri : uri = path ∨ ∃ query, uri = path ++ '?' :: query) (h : Target.read uri = some target) :
    respond table ⟨method, target⟩ =
      (Response.ofResult (dispatched table path)).forMethod method := by
  unfold respond answer
  rw [path_of_read hpath huri h, ofPath_eq_dispatched hpath]

/-- The answer to a path that gets its values. -/
theorem respond_of_resolved {d : Dispatch} (hpath : IsRoutable path)
    (huri : uri = path ∨ ∃ query, uri = path ++ '?' :: query) (h : Target.read uri = some target)
    (hhead : method ≠ .head) (hdispatch : table.dispatch path = some d)
    (hresolved : d.result.status = .resolved) :
    (respond table ⟨method, target⟩).status = 200 ∧
      (respond table ⟨method, target⟩).body =
        if method = .connect then none else some d.summary := by
  have hanswer : dispatched table path = .ok d.summary := by
    unfold dispatched
    rw [hdispatch]
    exact if_pos (decide_eq_true hresolved)
  rw [respond_eq_dispatched hpath huri h, hanswer, status_forMethod]
  exact ⟨rfl, body_forMethod rfl hhead⟩

/-- The answer to every other path, whether a route matches it or not. -/
theorem respond_of_not_resolved (hpath : IsRoutable path)
    (huri : uri = path ∨ ∃ query, uri = path ++ '?' :: query) (h : Target.read uri = some target)
    (hdispatch : ¬ ∃ d, table.dispatch path = some d ∧ d.result.status = .resolved) :
    (respond table ⟨method, target⟩).status = 404 := by
  have hanswer : ∃ text, dispatched table path = .error (.notFound text) := by
    unfold dispatched
    cases hd : table.dispatch path with
    | none => exact ⟨_, rfl⟩
    | some d =>
      refine ⟨_, if_neg fun hresolved => hdispatch ⟨d, hd, ?_⟩⟩
      exact of_decide_eq_true hresolved
  obtain ⟨text, hanswer⟩ := hanswer
  rw [respond_eq_dispatched hpath huri h, hanswer, status_forMethod]
  rfl

end Http

/-! ## §2 The path of a command -/

namespace Cli

variable [Url.Idna]

/-- The command line `--resolve path` asks for the dispatch of the path. -/
theorem ofArguments_resolve {path : Text} (hrooted : path.head? = some '/') :
    ∃ options, Reading.ofArguments [Text.ofString "--resolve", path] = .options options ∧
      ∀ table, withTable table options = .finished (resolve table path) := by
  obtain ⟨rest, rfl⟩ := List.head?_eq_some_iff.mp hrooted
  exact ⟨{ resolve := some ('/' :: rest) }, rfl, fun _ => rfl⟩

variable {path : Text}

/-- What resolving a path prints and how it exits. -/
theorem resolve_spec (table : RouteTable) (hrooted : path.head? = some '/') :
    ((resolve table path).exit = 0 ↔
      ∃ d, table.dispatch path = some d ∧ d.result.status = .resolved) ∧
    (resolve table path).out =
      ((table.dispatch path).map fun d => d.summary.renderPretty ++ ['\n']).getD [] := by
  unfold resolve
  rw [Location.pathOf_of_isRooted (.inr hrooted)]
  dsimp only
  cases table.dispatch path with
  | none => exact ⟨iff_of_false Nat.one_ne_zero (by simp), rfl⟩
  | some d =>
    dsimp only
    by_cases hresolved : d.result.isResolved = true
    · rw [if_pos hresolved]
      exact ⟨iff_of_true rfl ⟨d, rfl, of_decide_eq_true hresolved⟩, rfl⟩
    · rw [if_neg hresolved]
      have hstatus : d.result.status ≠ .resolved := fun h => hresolved (decide_eq_true h)
      exact ⟨iff_of_false Nat.one_ne_zero (by simpa using hstatus), rfl⟩

end Cli

/-! ## §3 What both tell -/

/-- **`Tells answer d`** — the answer tells service and pattern of a dispatched path, how its
resolution ended, and the values of its variables. -/
structure Tells (answer : Json) (d : Dispatch) : Prop where
  service : answer.member? (Text.ofString "service") = some (.string d.route.service)
  pattern : answer.member? (Text.ofString "pattern") = some (.string d.route.pattern.source)
  status : answer.member? (Text.ofString "status") = some (.string d.result.status.word)
  values : answer.member? (Text.ofString "variables") = some (Json.ofMembers d.result.values)

theorem tells_summary (d : Dispatch) : Tells d.summary d where
  service := rfl
  pattern := rfl
  status := rfl
  values := rfl

/-! ## §4 The agreement -/

open Http RouteTable

/-- **The service and the command line agree** on a routable path, for any table, method but `HEAD`
and query.  The service answers 200 exactly if the command exits with zero.  Then the command prints
service, pattern, outcome and values of the dispatched path as JSON, and the answer carries the same
JSON; only to `CONNECT` it has no body.  Otherwise the service answers 404, and the command prints
such JSON if some route matches the path, and nothing if none does. -/
theorem respond_agrees_with_resolve [Url.Idna] (table : RouteTable) (method : Method)
    {path uri : Text} {target : Target} (hpath : IsRoutable path)
    (huri : uri = path ∨ ∃ query, uri = path ++ '?' :: query)
    (htarget : Target.read uri = some target) (hhead : method ≠ .head) :
    ∃ options outcome,
      Cli.Reading.ofArguments [Text.ofString "--resolve", path] = .options options ∧
      Cli.withTable table options = .finished outcome ∧
      let response := respond table ⟨method, target⟩
      (response.status = 200 ↔ outcome.exit = 0) ∧
      (response.status = 200 → ∃ d answer, table.dispatch path = some d ∧
        d.result.status = .resolved ∧ Tells answer d ∧
        outcome.out = answer.renderPretty ++ ['\n'] ∧
        response.body = if method = .connect then none else some answer) ∧
      (response.status ≠ 200 → response.status = 404 ∧
        ((∃ route ∈ table.routes, Matches path route) → ∃ d answer,
          table.dispatch path = some d ∧ d.result.status ≠ .resolved ∧ Tells answer d ∧
          outcome.out = answer.renderPretty ++ ['\n']) ∧
        ((∀ route ∈ table.routes, ¬ Matches path route) → outcome.out = [])) := by
  obtain ⟨options, hoptions, hrun⟩ := Cli.ofArguments_resolve hpath.rooted
  refine ⟨options, Cli.resolve table path, hoptions, hrun table, ?_⟩
  obtain ⟨hexit, hout⟩ := Cli.resolve_spec table hpath.rooted
  by_cases hdispatch : ∃ d, table.dispatch path = some d ∧ d.result.status = .resolved
  · obtain ⟨d, hd, hresolved⟩ := hdispatch
    obtain ⟨hstatus, hbody⟩ := respond_of_resolved hpath huri htarget hhead hd hresolved
    rw [hd] at hout
    exact ⟨iff_of_true hstatus (hexit.mpr ⟨d, hd, hresolved⟩),
      fun _ => ⟨d, d.summary, hd, hresolved, tells_summary d, hout, hbody⟩,
      fun hfailed => absurd hstatus hfailed⟩
  · have hstatus : (respond table ⟨method, target⟩).status = 404 :=
      respond_of_not_resolved hpath huri htarget hdispatch
    have hfailed : (respond table ⟨method, target⟩).status ≠ 200 := by simp [hstatus]
    refine ⟨iff_of_false hfailed (mt hexit.mp hdispatch), fun h => absurd h hfailed,
      fun _ => ⟨hstatus, ?_, ?_⟩⟩
    · intro hmatches
      obtain ⟨d, hd⟩ := exists_dispatch_iff.mpr hmatches
      rw [hd] at hout
      exact ⟨d, d.summary, hd, fun hresolved => hdispatch ⟨d, hd, hresolved⟩, tells_summary d, hout⟩
    · intro hnone
      have hd : table.dispatch path = none := dispatch_eq_none_iff.mpr fun route hroute =>
        Bool.eq_false_iff.mpr (hnone route hroute)
      rw [hout, hd]
      rfl

/-- A table with one route, whose pattern is a literal. -/
def RouteTable.literal (service pattern : Text) : RouteTable where
  routes := [⟨service, [], .of ⟨pattern, [.literal pattern]⟩⟩]
  binder := .builtin
  matchRule := .first

/-- A success is told on both ways. -/
theorem respond_agrees_with_resolve_literal :
    let path := Text.ofString "/a"
    let uri := Text.ofString "/a?x=1"
    let table := RouteTable.literal ['s'] path
    Pattern.compile path = .ok (.of ⟨path, [.literal path]⟩) ∧ IsRoutable path ∧
      Target.read uri = some ⟨path, some ['x', '=', '1']⟩ ∧
      (respond table ⟨.other (Text.ofString "POST"), ⟨path, some ['x', '=', '1']⟩⟩).status = 200 ∧
      ∃ options outcome,
        Cli.Reading.ofArguments [Text.ofString "--resolve", path] = .options options ∧
        Cli.withTable table options = .finished outcome ∧ outcome.exit = 0 := by
  intro path uri table
  have hpath : IsRoutable path := isRoutable_of_strip rfl (by decide) (by decide) (by decide) rfl
  have htarget : Target.read uri = some ⟨path, some ['x', '=', '1']⟩ := rfl
  obtain ⟨options, outcome, hoptions, hrun, hexit, -⟩ :=
    respond_agrees_with_resolve table (.other (Text.ofString "POST")) hpath
      (.inr ⟨['x', '=', '1'], rfl⟩) htarget (by decide)
  have hstatus : (respond table
      ⟨.other (Text.ofString "POST"), ⟨path, some ['x', '=', '1']⟩⟩).status = 200 := by decide
  exact ⟨rfl, hpath, htarget, hstatus, options, outcome, hoptions, hrun, hexit.mp hstatus⟩

/-- To `CONNECT` a success is told without service, pattern, outcome and values, which the command
prints. -/
theorem respond_connect_without_body :
    let path := Text.ofString "/a"
    let table := RouteTable.literal ['s'] path
    Pattern.compile path = .ok (.of ⟨path, [.literal path]⟩) ∧ IsRoutable path ∧
      Target.read path = some ⟨path, none⟩ ∧
      respond table ⟨.connect, ⟨path, none⟩⟩ = ⟨200, none⟩ ∧
      ∃ options outcome d answer,
        Cli.Reading.ofArguments [Text.ofString "--resolve", path] = .options options ∧
        Cli.withTable table options = .finished outcome ∧ outcome.exit = 0 ∧
        table.dispatch path = some d ∧ Tells answer d ∧
        outcome.out = answer.renderPretty ++ ['\n'] := by
  have hpath : IsRoutable (Text.ofString "/a") :=
    isRoutable_of_strip rfl (by decide) (by decide) (by decide) rfl
  have hdispatch : (RouteTable.literal ['s'] (Text.ofString "/a")).dispatch (Text.ofString "/a") =
      some ⟨⟨['s'], [], .of ⟨Text.ofString "/a", [.literal (Text.ofString "/a")]⟩⟩,
        ⟨.resolved, []⟩⟩ := rfl
  exact ⟨rfl, hpath, rfl, rfl, { resolve := some (Text.ofString "/a") }, _, _, _, rfl, rfl, rfl,
    hdispatch, tells_summary _, rfl⟩

end UriRouting
