/-
# UriRouting.Proofs.Route.Selection — the ways of selecting agree

What a match rule selects is the first of all that match in the order of the rule
(`find_eq_head?_ranked`).  Going through the list once, stopping at the first or keeping the better
one, comes to the same as sorting all that match and taking the first, ties included.

A dispatch goes through that order as well, and stops at the first route that resolves the path.  So
it departs from the selection only if the selected route does not resolve the path and some other
route does (`winner?_eq_find`).
-/
import UriRouting.Proofs.Route.Best

namespace UriRouting

namespace Selection

variable {α : Type} (pattern : α → Pattern) (path : Text) (candidates : List α)

/-- The score of a candidate is the highest in a list. -/
def isTop (found : List α) (a : α) : Bool :=
  found.all fun b => (pattern b).score ≤ (pattern a).score

theorem find?_true_eq_head? {β : Type} (entries : List β) :
    entries.find? (fun _ => true) = entries.head? := by
  cases entries <;> rfl

theorem findFirst_eq_head?_findAll :
    findFirst pattern path candidates = (findAll pattern path candidates).head? :=
  List.head?_filter.symm

variable {pattern path candidates}

theorem findBest_eq_none_iff :
    findBest pattern path candidates = none ↔ findAll pattern path candidates = [] := by
  constructor
  · intro hnone
    by_contra hne
    exact foldl_better_ne_none hne hnone
  · intro hnil
    rw [findBest, hnil]
    rfl

variable (pattern path candidates)

/-- **The best candidate** is the first whose score is the highest among those that match. -/
theorem findBest_eq_find?_isTop :
    findBest pattern path candidates =
      (findAll pattern path candidates).find? (isTop pattern (findAll pattern path candidates)) := by
  cases hbest : findBest pattern path candidates with
  | none =>
    rw [findBest_eq_none_iff.mp hbest]
    rfl
  | some a =>
    obtain ⟨before, after, hfound, hbefore, hafter⟩ := foldl_better_eq_some_iff.mp hbest
    rw [hfound]
    symm
    apply List.find?_eq_some_iff_append.mpr
    refine ⟨?_, before, after, rfl, fun b hb => ?_⟩
    · rw [isTop, List.all_eq_true]
      intro b hb
      apply decide_eq_true
      rcases List.mem_append.mp hb with hb | hb
      · exact Int.le_of_lt (hbefore b hb)
      · rcases List.mem_cons.mp hb with rfl | hb
        · exact Int.le_refl _
        · exact hafter b hb
    · -- what stands in front scores less than the best, so it is not the highest
      have hlt : (pattern b).score < (pattern a).score := hbefore b hb
      simp only [isTop, Bool.not_eq_true', List.all_eq_false, decide_eq_true_iff]
      exact ⟨a, by simp, Int.not_le.mpr hlt⟩

/-- **A selection is the first of the ranked list**, whatever the rule. -/
theorem find_eq_head?_ranked (rule : MatchRule) :
    find pattern rule path candidates = (ranked pattern rule path candidates).head? := by
  cases rule with
  | first => exact findFirst_eq_head?_findAll pattern path candidates
  | best =>
    show findBest pattern path candidates = _
    cases hbest : findBest pattern path candidates with
    | none =>
      rw [ranked, findBest_eq_none_iff.mp hbest, List.mergeSort_nil]
      rfl
    | some a =>
      obtain ⟨before, after, rfl, hmatch, hbefore, hafter⟩ := findBest_eq_some_iff.mp hbest
      have hearliest : IsEarliest pattern .best (fun b => (pattern b).matchesPath path = true)
          (before ++ a :: after) (a, before.length) :=
        (isEarliest_append_iff pattern).mpr ⟨hmatch, hbefore, hafter⟩
      have hfirst : (ranked (fun a : α × Nat => pattern a.1) .best path
          (before ++ a :: after).zipIdx).find? (fun _ => true) = some (a, before.length) :=
        (find?_ranked_eq_some_iff pattern (fun _ => true) fun b => by rw [and_iff_left rfl]).mpr
          hearliest
      rw [find?_true_eq_head?] at hfirst
      rw [← map_fst_ranked_zipIdx, List.head?_map, hfirst]
      rfl

theorem find_eq_none_iff (rule : MatchRule) :
    find pattern rule path candidates = none ↔ findAll pattern path candidates = [] := by
  cases rule with
  | first =>
    show findFirst pattern path candidates = none ↔ _
    rw [findFirst_eq_head?_findAll, List.head?_eq_none_iff]
  | best => exact findBest_eq_none_iff

/-- The places of the candidates change nothing about the selection. -/
theorem map_fst_find_zipIdx (rule : MatchRule) :
    (find (fun a : α × Nat => pattern a.1) rule path candidates.zipIdx).map Prod.fst =
      find pattern rule path candidates := by
  rw [find_eq_head?_ranked, find_eq_head?_ranked, ← List.head?_map, map_fst_ranked_zipIdx]

end Selection

namespace RouteTable

open Selection

variable {table : RouteTable} {path : Text}

/-- A path is dispatched exactly if the rule selects a route. -/
theorem find_eq_none_iff_dispatch (table : RouteTable) (path : Text) :
    find Route.pattern table.matchRule path table.routes = none ↔ table.dispatch path = none := by
  rw [find_eq_none_iff, dispatch_eq_none_iff, findAll, List.filter_eq_nil_iff]
  simp only [Bool.not_eq_true]

/-- **A dispatch chooses the selected entry** if the route it gives the path to does not resolve it,
or the selected one does. -/
theorem winner?_eq_find {entry : Route × Nat} (hwinner : table.winner? path = some entry)
    (h : (entry.1.pattern.resolve table.binder path).isResolved = false ∨
      ∃ selected, find Route.pattern table.matchRule path table.routes = some selected ∧
        (selected.pattern.resolve table.binder path).isResolved = true) :
    find (fun a : Route × Nat => a.1.pattern) table.matchRule path table.routes.zipIdx =
      some entry := by
  have hhead := find_eq_head?_ranked (fun a : Route × Nat => a.1.pattern) path table.routes.zipIdx
    table.matchRule
  have hplaces := map_fst_find_zipIdx Route.pattern path table.routes table.matchRule
  rw [hhead] at hplaces ⊢
  rw [winner?] at hwinner
  rw [find?_true_eq_head?, Option.or_eq_some_iff] at hwinner
  rcases hwinner with hfound | ⟨-, hfirst⟩
  · -- the chosen route resolves the path, so the second case of the assumption holds
    have hresolved := List.find?_some hfound
    rcases h with hunresolved | ⟨selected, hselected, hresolves⟩
    · rw [hunresolved] at hresolved
      cases hresolved
    · rw [hselected] at hplaces
      obtain ⟨first, hfirst, rfl⟩ := Option.map_eq_some_iff.mp hplaces
      obtain ⟨rest, hentries⟩ := List.head?_eq_some_iff.mp hfirst
      rw [hentries] at hfound
      rw [List.find?_cons, hresolves] at hfound
      exact hfirst.trans hfound
  · exact hfirst

end RouteTable

open Selection RouteTable

/-- **The ways of selecting agree.**  On any list, the first match is the first of all matches, and
the best match is the first of those with the highest score, which comes first when all are sorted by
score; nothing is selected exactly if nothing matches.  In a table, nothing is selected exactly if the
path is not dispatched; and a path goes to the selected route, at its place in the table, whenever it
stays unresolved or the selected route resolves it. -/
theorem selection_paths_agree :
    (∀ (α : Type) (pattern : α → Pattern) (path : Text) (candidates : List α),
      let found := findAll pattern path candidates
      findFirst pattern path candidates = found.head? ∧
      findBest pattern path candidates = found.find? (isTop pattern found) ∧
      findBest pattern path candidates =
        (found.mergeSort fun a b => (pattern b).score ≤ (pattern a).score).head? ∧
      ∀ rule, find pattern rule path candidates = none ↔ found = []) ∧
    ∀ (table : RouteTable) (path : Text),
      (find Route.pattern table.matchRule path table.routes = none ↔ table.dispatch path = none) ∧
      ∀ d, table.dispatch path = some d →
        (d.result.isResolved = false ∨
          ∃ selected, find Route.pattern table.matchRule path table.routes = some selected ∧
            (selected.pattern.resolve table.binder path).isResolved = true) →
        find Route.pattern table.matchRule path table.routes = some d.route ∧
        ∃ place, table.winner? path = some (d.route, place) ∧
          find (fun a : Route × Nat => a.1.pattern) table.matchRule path table.routes.zipIdx =
            some (d.route, place) := by
  refine ⟨fun α pattern path candidates => ⟨?_, ?_, ?_, ?_⟩, fun table path => ⟨?_, ?_⟩⟩
  · exact findFirst_eq_head?_findAll pattern path candidates
  · exact findBest_eq_find?_isTop pattern path candidates
  · exact find_eq_head?_ranked pattern path candidates .best
  · exact find_eq_none_iff pattern path candidates
  · exact find_eq_none_iff_dispatch table path
  · intro d hd h
    rw [dispatch_eq_winner?, Option.map_eq_some_iff] at hd
    obtain ⟨⟨route, place⟩, hwinner, rfl⟩ := hd
    have hselected := winner?_eq_find hwinner h
    refine ⟨?_, place, hwinner, hselected⟩
    rw [← map_fst_find_zipIdx, hselected]
    rfl

/-- Two routes of one negative score match the path, and neither resolves it.  The first is selected
and keeps the path. -/
theorem selection_paths_agree_tie :
    ∃ (table : RouteTable) (first second : Route), table.routes = [first, second] ∧
      table.matchRule = .best ∧ table.routes.map (fun r => r.pattern.score) = [-1, -1] ∧
      table.dispatch (Text.ofString "x") = some ⟨first, ⟨.unresolved, []⟩⟩ ∧
      find Route.pattern .best (Text.ofString "x") table.routes = some first := by
  let int : Text := ['i', 'n', 't']
  let first : Route := ⟨['a'], [], .of ⟨Text.ofString "\x7bint:a\x7d",
    [.placeholder ⟨['a'], some int, none⟩ .plain]⟩⟩
  let second : Route := ⟨['b'], [], .of ⟨Text.ofString "\x7bint:b\x7d",
    [.placeholder ⟨['b'], some int, none⟩ .plain]⟩⟩
  let table : RouteTable := ⟨[first, second], .builtin, .best⟩
  have hunresolved : ∀ route ∈ table.routes, ¬ table.Resolves (Text.ofString "x") route := by
    decide
  have hmatches : first.pattern.matchesPath (Text.ofString "x") = true := by decide
  have hwinner : table.winner? (Text.ofString "x") = some (first, 0) := by
    show (table.withRoutes ([] ++ first :: [second])).winner? _ = some (first, 0)
    apply winner?_withRoutes_eq_some_iff.mpr
    refine .inr ⟨hunresolved, hmatches, by simp, fun b hb _ => ?_⟩
    obtain rfl := List.mem_singleton.mp hb
    exact Int.le_refl (-1)
  have hdispatch : table.dispatch (Text.ofString "x") = some ⟨first, ⟨.unresolved, []⟩⟩ := by
    rw [dispatch_eq_winner?, hwinner]
    simp only [table, first, int]
    rfl
  obtain ⟨hselected, -⟩ := (selection_paths_agree.2 table _).2 _ hdispatch (.inl rfl)
  exact ⟨table, first, second, rfl, rfl, by decide, hdispatch, hselected⟩

end UriRouting
