/-
# UriRouting.Proofs.Route.Independence — the routes on which a dispatch does not depend

A table may be changed around the route that gets a path.  What this route has to do is said of the
other entries one by one: those in front of it must not be good unless it overtakes them, and those
behind it must not be good unless it leads them (`isEarliest_append_iff`).  A condition of this kind
survives when entries are deleted, and when entries come in that meet it: routes that do not match,
and, where the route resolves the path, routes that come after it in the order of the match rule.

A route may stand in a table twice, so `winner?` gives the place of the chosen entry as well.
-/
import UriRouting.Proofs.Pattern.Expression
import UriRouting.Proofs.Route.Dispatch

namespace UriRouting

namespace Selection

variable {α : Type} (pattern : α → Pattern)

/-! ## The order of the rule around one entry -/

/-- **`Overtakes pattern rule a b`** — the candidate `a` comes before `b`, which stands in front of
it in the list. -/
def Overtakes (rule : MatchRule) (a b : α) : Prop :=
  match rule with
  | .first => False
  | .best => (pattern b).score < (pattern a).score

/-- **`Leads pattern rule a b`** — the candidate `a` comes before `b`, which stands behind it in the
list. -/
def Leads (rule : MatchRule) (a b : α) : Prop :=
  match rule with
  | .first => True
  | .best => (pattern b).score ≤ (pattern a).score

variable {rule : MatchRule} {a b : α} {i j : Nat}

theorem ahead_iff_overtakes (h : j < i) :
    Ahead pattern rule (a, i) (b, j) ↔ Overtakes pattern rule a b := by
  cases rule with
  | first =>
    show i < j ↔ False
    exact iff_false_intro (Nat.lt_asymm h)
  | best =>
    show (pattern b).score < (pattern a).score ∨ (pattern a).score = (pattern b).score ∧ i < j ↔
      (pattern b).score < (pattern a).score
    omega

theorem ahead_iff_leads (h : i < j) :
    Ahead pattern rule (a, i) (b, j) ↔ Leads pattern rule a b := by
  cases rule with
  | first =>
    show i < j ↔ True
    exact iff_true_intro h
  | best =>
    show (pattern b).score < (pattern a).score ∨ (pattern a).score = (pattern b).score ∧ i < j ↔
      (pattern b).score ≤ (pattern a).score
    omega

/-- An entry is the earliest good one if it is good itself, overtakes the good ones in front of it
and leads those behind it. -/
theorem isEarliest_append_iff {good : α → Prop} {before after : List α} :
    IsEarliest pattern rule good (before ++ a :: after) (a, before.length) ↔
      good a ∧ (∀ b ∈ before, good b → Overtakes pattern rule a b) ∧
        ∀ b ∈ after, good b → Leads pattern rule a b := by
  constructor
  · rintro ⟨-, hgood, hahead⟩
    refine ⟨hgood, fun b hb hgoodb => ?_, fun b hb hgoodb => ?_⟩
    · obtain ⟨j, hj, rfl⟩ := List.getElem_of_mem hb
      have hget : (before ++ a :: after)[j]? = some before[j] := by
        rw [List.getElem?_append_left hj, List.getElem?_eq_getElem hj]
      exact (ahead_iff_overtakes pattern hj).mp (hahead _ j hget hgoodb (Nat.ne_of_lt hj))
    · obtain ⟨j, hj, rfl⟩ := List.getElem_of_mem hb
      have hlt : before.length < before.length + (j + 1) := by omega
      have hget : (before ++ a :: after)[before.length + (j + 1)]? = some after[j] := by
        rw [List.getElem?_append_right (Nat.le_add_right _ _), Nat.add_sub_cancel_left,
          List.getElem?_cons_succ, List.getElem?_eq_getElem hj]
      exact (ahead_iff_leads pattern hlt).mp (hahead _ _ hget hgoodb (Nat.ne_of_gt hlt))
  · rintro ⟨hgood, hbefore, hafter⟩
    refine ⟨by simp, hgood, fun b j hget hgoodb hne => ?_⟩
    -- the other entry stands in front of the chosen one or behind it
    rcases Nat.lt_or_gt_of_ne hne with hlt | hgt
    · rw [List.getElem?_append_left hlt] at hget
      exact (ahead_iff_overtakes pattern hlt).mpr (hbefore b (List.mem_of_getElem? hget) hgoodb)
    · have hle : before.length ≤ j := Nat.le_of_lt hgt
      have hsub : j - before.length = (j - before.length - 1) + 1 := by
        show j - before.length = _
        simp only at hgt
        omega
      rw [List.getElem?_append_right hle, hsub, List.getElem?_cons_succ] at hget
      exact (ahead_iff_leads pattern hgt).mpr (hafter b (List.mem_of_getElem? hget) hgoodb)

/-! ## Entries put into a list -/

/-- **`Inserted P l l'`** — `l'` is `l` with entries of the kind `P` put in, at any places. -/
inductive Inserted (P : α → Prop) : List α → List α → Prop
  | nil : Inserted P [] []
  | keep (a : α) {l l' : List α} (h : Inserted P l l') : Inserted P (a :: l) (a :: l')
  | insert {a : α} {l l' : List α} (ha : P a) (h : Inserted P l l') : Inserted P l (a :: l')

/-- What is in the list now was there before, or is of the kind that was put in. -/
theorem Inserted.mem_or {P : α → Prop} {l l' : List α} (h : Inserted P l l') (hb : b ∈ l') :
    b ∈ l ∨ P b := by
  induction h with
  | nil => cases hb
  | keep a _ ih =>
    rcases List.mem_cons.mp hb with rfl | hb
    · exact .inl List.mem_cons_self
    · exact (ih hb).imp_left (List.mem_cons_of_mem a)
  | insert ha _ ih =>
    rcases List.mem_cons.mp hb with rfl | hb
    · exact .inr ha
    · exact ih hb

end Selection

namespace RouteTable

open Selection

variable {table : RouteTable} {path : Text} {d : Dispatch} {before after : List Route}

/-! ## The chosen entry -/

/-- **`winner? table path`** — the entry of the table, with its place, that gets the path: of the
entries in the order of the match rule, the first that resolves it, else the first that matches. -/
def winner? (table : RouteTable) (path : Text) : Option (Route × Nat) :=
  let entries := ranked (fun a : Route × Nat => a.1.pattern) table.matchRule path
    table.routes.zipIdx
  (entries.find? fun a => (a.1.pattern.resolve table.binder path).isResolved).or
    (entries.find? fun _ => true)

/-- A dispatch is the attempt of the chosen entry. -/
theorem dispatch_eq_winner? (table : RouteTable) (path : Text) :
    table.dispatch path = (table.winner? path).map fun a => table.attempt path a.1 :=
  dispatch_eq_map table path

theorem winner?_eq_some_iff {a : Route × Nat} :
    table.winner? path = some a ↔
      IsEarliest Route.pattern table.matchRule (table.Resolves path) table.routes a ∨
        (∀ route ∈ table.routes, ¬ table.Resolves path route) ∧
          IsEarliest Route.pattern table.matchRule (Matches path) table.routes a := by
  rw [winner?, Option.or_eq_some_iff, find?_resolved_eq_some_iff, find?_resolved_eq_none_iff,
    find?_true_eq_some_iff]

/-- The table with other routes. -/
def withRoutes (table : RouteTable) (routes : List Route) : RouteTable :=
  { table with routes := routes }

/-- **`Keeps table path d before after`** — with `before` in front of it and `after` behind it, it is
the route of `d` that gets the path, with the result of `d`. -/
structure Keeps (table : RouteTable) (path : Text) (d : Dispatch) (before after : List Route) :
    Prop where
  winner : (table.withRoutes (before ++ d.route :: after)).winner? path =
    some (d.route, before.length)
  dispatch : (table.withRoutes (before ++ d.route :: after)).dispatch path = some d

/-- **`Yields table path d later other`** — another entry does not keep the route of `d` from getting
the path: it resolves the path only if `d` does and comes first, and if neither resolves it, it
matches only if `d` comes first.  That `d` comes first is said by `later`. -/
structure Yields (table : RouteTable) (path : Text) (d : Dispatch) (later : Route → Prop)
    (other : Route) : Prop where
  ofResolves : table.Resolves path other → d.result.status = .resolved ∧ later other
  ofMatches : Matches path other → d.result.status = .resolved ∨ later other

/-- The entry between `before` and `after` is chosen because it is the earliest that resolves, or
the earliest of all where none resolves. -/
theorem winner?_withRoutes_eq_some_iff {route : Route} :
    (table.withRoutes (before ++ route :: after)).winner? path = some (route, before.length) ↔
      (table.Resolves path route ∧
        (∀ b ∈ before, table.Resolves path b → Overtakes Route.pattern table.matchRule route b) ∧
        ∀ b ∈ after, table.Resolves path b → Leads Route.pattern table.matchRule route b) ∨
      (∀ b ∈ before ++ route :: after, ¬ table.Resolves path b) ∧ Matches path route ∧
        (∀ b ∈ before, Matches path b → Overtakes Route.pattern table.matchRule route b) ∧
        ∀ b ∈ after, Matches path b → Leads Route.pattern table.matchRule route b := by
  rw [winner?_eq_some_iff]
  exact or_congr (isEarliest_append_iff Route.pattern)
    (and_congr_right fun _ => isEarliest_append_iff Route.pattern)

/-- **The chosen entry, entry by entry.** -/
theorem keeps_iff :
    table.Keeps path d before after ↔
      d.result = d.route.pattern.resolve table.binder path ∧ Matches path d.route ∧
        (∀ b ∈ before, table.Yields path d (Overtakes Route.pattern table.matchRule d.route) b) ∧
        ∀ b ∈ after, table.Yields path d (Leads Route.pattern table.matchRule d.route) b := by
  constructor
  · rintro ⟨hwinner, hdispatch⟩
    have hresult : d.result = d.route.pattern.resolve table.binder path := by
      rw [dispatch_eq_winner?, hwinner] at hdispatch
      exact (congrArg Dispatch.result (Option.some.inj hdispatch)).symm
    rcases winner?_withRoutes_eq_some_iff.mp hwinner with
      ⟨hresolves, hbefore, hafter⟩ | ⟨hnone, hmatches, hbefore, hafter⟩
    · have hstatus : d.result.status = .resolved := by
        rw [hresult]
        exact hresolves.2
      refine ⟨hresult, hresolves.1, fun b hb => ?_, fun b hb => ?_⟩
      · exact ⟨fun h => ⟨hstatus, hbefore b hb h⟩, fun _ => .inl hstatus⟩
      · exact ⟨fun h => ⟨hstatus, hafter b hb h⟩, fun _ => .inl hstatus⟩
    · refine ⟨hresult, hmatches, fun b hb => ?_, fun b hb => ?_⟩
      · have hno := hnone b (List.mem_append_left _ hb)
        exact ⟨fun h => absurd h hno, fun h => .inr (hbefore b hb h)⟩
      · have hno := hnone b (List.mem_append_right _ (List.mem_cons_of_mem _ hb))
        exact ⟨fun h => absurd h hno, fun h => .inr (hafter b hb h)⟩
  · rintro ⟨hresult, hmatches, hbefore, hafter⟩
    have hwinner : (table.withRoutes (before ++ d.route :: after)).winner? path =
        some (d.route, before.length) := by
      apply winner?_withRoutes_eq_some_iff.mpr
      by_cases hstatus : d.result.status = .resolved
      · left
        refine ⟨⟨hmatches, hresult ▸ hstatus⟩, fun b hb h => ?_, fun b hb h => ?_⟩
        · exact ((hbefore b hb).ofResolves h).2
        · exact ((hafter b hb).ofResolves h).2
      · right
        refine ⟨fun b hb h => hstatus ?_, hmatches, fun b hb h => ?_, fun b hb h => ?_⟩
        · rcases List.mem_append.mp hb with hb | hb
          · exact ((hbefore b hb).ofResolves h).1
          · rcases List.mem_cons.mp hb with rfl | hb
            · rw [hresult]
              exact h.2
            · exact ((hafter b hb).ofResolves h).1
        · exact ((hbefore b hb).ofMatches h).resolve_left hstatus
        · exact ((hafter b hb).ofMatches h).resolve_left hstatus
    refine ⟨hwinner, ?_⟩
    rw [dispatch_eq_winner?, hwinner]
    show some (Dispatch.mk d.route (d.route.pattern.resolve table.binder path)) = some d
    rw [← hresult]

/-- Every path that gets a route gets it by an entry of the table. -/
theorem exists_keeps (h : table.dispatch path = some d) :
    ∃ before after, table.routes = before ++ d.route :: after ∧
      table.Keeps path d before after := by
  rw [dispatch_eq_winner?, Option.map_eq_some_iff] at h
  obtain ⟨⟨route, place⟩, hwinner, rfl⟩ := h
  have hplace : table.routes[place]? = some route := by
    rcases winner?_eq_some_iff.mp hwinner with hearliest | ⟨-, hearliest⟩
    · exact hearliest.place
    · exact hearliest.place
  obtain ⟨hlt, hget⟩ := List.getElem?_eq_some_iff.mp hplace
  have hroutes : table.routes =
      table.routes.take place ++ route :: table.routes.drop (place + 1) := by
    rw [← hget, List.getElem_cons_drop, List.take_append_drop]
  have hlength : (table.routes.take place).length = place :=
    List.length_take_of_le (Nat.le_of_lt hlt)
  have htable : table.withRoutes (table.routes.take place ++ route ::
      table.routes.drop (place + 1)) = table := by
    rw [← hroutes]
    rfl
  refine ⟨_, _, hroutes, ?_, ?_⟩
  · show (table.withRoutes (_ ++ route :: _)).winner? path = some (route, _)
    rw [htable, hlength, hwinner]
  · show (table.withRoutes (_ ++ route :: _)).dispatch path = _
    rw [htable, dispatch_eq_winner?, hwinner]
    rfl

/-! ## Changes of the table around the chosen entry -/

variable {before' after' : List Route}

/-- A route that does not match yields to every other. -/
theorem yields_of_not_matches {later : Route → Prop} {other : Route} (h : ¬ Matches path other) :
    table.Yields path d later other :=
  ⟨fun hresolves => absurd hresolves.1 h, fun hmatches => absurd hmatches h⟩

/-- The entries may change as long as those that are new yield. -/
theorem Keeps.of_yields (h : table.Keeps path d before after)
    (hbefore : ∀ b ∈ before', b ∈ before ∨
      table.Yields path d (Overtakes Route.pattern table.matchRule d.route) b)
    (hafter : ∀ b ∈ after', b ∈ after ∨
      table.Yields path d (Leads Route.pattern table.matchRule d.route) b) :
    table.Keeps path d before' after' := by
  obtain ⟨hresult, hmatches, hfront, hback⟩ := keeps_iff.mp h
  apply keeps_iff.mpr
  refine ⟨hresult, hmatches, fun b hb => ?_, fun b hb => ?_⟩
  · exact (hbefore b hb).elim (hfront b) id
  · exact (hafter b hb).elim (hback b) id

/-- **A dispatch depends on the chosen entry alone, as far as others do not come before it.**  Take a
path that a dispatch gives to a route of the table, and the entries in front of the chosen one and
behind it.  The same entry gets the path, with the same result, after any other entries are deleted,
and after routes that do not match the path are put in anywhere.  If the path is resolved, the same
holds after any routes are put in that come after the chosen one in the order of the match rule. -/
theorem dispatch_unchanged (table : RouteTable) (path : Text) {d : Dispatch}
    (h : table.dispatch path = some d) :
    ∃ before after, table.routes = before ++ d.route :: after ∧
      table.winner? path = some (d.route, before.length) ∧
      (∀ before' after', before'.Sublist before → after'.Sublist after →
        table.Keeps path d before' after') ∧
      (∀ before' after', Inserted (fun r => ¬ Matches path r) before before' →
        Inserted (fun r => ¬ Matches path r) after after' → table.Keeps path d before' after') ∧
      (d.result.status = .resolved → ∀ before' after',
        Inserted (Overtakes Route.pattern table.matchRule d.route) before before' →
        Inserted (Leads Route.pattern table.matchRule d.route) after after' →
        table.Keeps path d before' after') := by
  obtain ⟨before, after, hroutes, hkeeps⟩ := exists_keeps h
  have htable : table.withRoutes (before ++ d.route :: after) = table := by
    rw [← hroutes]
    rfl
  refine ⟨before, after, hroutes, htable ▸ hkeeps.winner, ?_, ?_, ?_⟩
  · intro before' after' hfront hback
    apply hkeeps.of_yields
    · exact fun b hb => .inl (hfront.subset hb)
    · exact fun b hb => .inl (hback.subset hb)
  · intro before' after' hfront hback
    apply hkeeps.of_yields
    · exact fun b hb => (hfront.mem_or hb).imp_right yields_of_not_matches
    · exact fun b hb => (hback.mem_or hb).imp_right yields_of_not_matches
  · intro hstatus before' after' hfront hback
    -- what comes later may resolve the path, since the chosen route does
    apply hkeeps.of_yields
    · intro b hb
      exact (hfront.mem_or hb).imp_right fun hlater =>
        ⟨fun _ => ⟨hstatus, hlater⟩, fun _ => .inl hstatus⟩
    · intro b hb
      exact (hback.mem_or hb).imp_right fun hlater =>
        ⟨fun _ => ⟨hstatus, hlater⟩, fun _ => .inl hstatus⟩

/-- Three routes of one score match the path.  The first does not resolve it, and the second gets it,
with the others and without them. -/
theorem dispatch_unchanged_tie :
    ∃ (table : RouteTable) (d : Dispatch), table.matchRule = .best ∧
      table.routes.map (fun r => r.pattern.score) = [15, 15, 15] ∧
      table.dispatch (Text.ofString "/x") = some d ∧ d.result.status = .resolved ∧
      table.routes[1]? = some d.route ∧ table.Keeps (Text.ofString "/x") d [] [] := by
  let int : Variable := ⟨['i', 'd'], some ['i', 'n', 't'], none⟩
  let plain : Variable := ⟨['n'], none, none⟩
  let first : Route := ⟨['a'], [], .of ⟨Text.ofString "/\x7bint:id\x7d",
    [.literal ['/'], .placeholder int .plain]⟩⟩
  let second : Route := ⟨['b'], [], .of ⟨Text.ofString "/\x7bn\x7d",
    [.literal ['/'], .placeholder plain .plain]⟩⟩
  let third : Route := { second with service := ['c'] }
  let table : RouteTable := ⟨[first, second, third], .builtin, .best⟩
  have hunresolved : ¬ table.Resolves (Text.ofString "/x") first := by decide
  have hresolves : table.Resolves (Text.ofString "/x") second := by decide
  have hwinner : table.winner? (Text.ofString "/x") = some (second, 1) := by
    show (table.withRoutes ([first] ++ second :: [third])).winner? _ = some (second, 1)
    apply winner?_withRoutes_eq_some_iff.mpr
    refine .inl ⟨hresolves, fun b hb hresolves => ?_, fun b hb _ => ?_⟩
    · obtain rfl := List.mem_singleton.mp hb
      exact absurd hresolves hunresolved
    · obtain rfl := List.mem_singleton.mp hb
      exact Int.le_refl 15
  have hdispatch : table.dispatch (Text.ofString "/x") =
      some (table.attempt (Text.ofString "/x") second) := by
    rw [dispatch_eq_winner?, hwinner]
    rfl
  obtain ⟨before, after, -, -, hdelete, -⟩ := dispatch_unchanged table _ hdispatch
  have hkeeps := hdelete [] [] before.nil_sublist after.nil_sublist
  exact ⟨table, _, rfl, by decide, hdispatch, hresolves.2, rfl, hkeeps⟩

end RouteTable

end UriRouting
