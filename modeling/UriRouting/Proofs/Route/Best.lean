/-
# UriRouting.Proofs.Route.Best — the candidate with the best score

Going through the candidates once and keeping the better one finds the earliest of those with the
highest score (`findBest_eq_some_iff`): it overtakes what matches in front of it and leads what
matches behind it, as the first of the candidates does that are sorted by score.  So the two ways of
selecting by score agree.

A pattern that is written like the path has the highest score that a pattern for this path can have,
and no pattern with a capture reaches it.  So the first exact pattern comes before everything else
that matches (`exists_exact_split`), wherever it stands, and a dispatch by score gives the path to it.
-/
import UriRouting.Proofs.Pattern.Score
import UriRouting.Proofs.Route.Independence

namespace UriRouting

namespace Selection

variable {α : Type} {pattern : α → Pattern} {candidates : List α} {a : α} {path : Text}

/-! ## The better of two, all the way -/

theorem better_none (c : α) : better pattern none c = some c := rfl

theorem better_some_of_leads {c : α} (h : Leads pattern .best a c) :
    better pattern (some a) c = some a := if_pos h

theorem better_some_of_overtakes {c : α} (h : Overtakes pattern .best c a) :
    better pattern (some a) c = some c := if_neg (Int.not_le.mpr h)

theorem foldl_better_ne_none (h : candidates ≠ []) :
    candidates.foldl (better pattern) none ≠ none := by
  obtain ⟨front, c, rfl⟩ := (List.eq_nil_or_concat candidates).resolve_left h
  rw [List.concat_eq_append, List.foldl_append, List.foldl_cons, List.foldl_nil]
  unfold better
  split
  · split <;> exact Option.some_ne_none _
  · exact Option.some_ne_none _

/-- Keeping the better one through a list leaves the earliest of the best. -/
theorem foldl_better_eq_some_iff :
    candidates.foldl (better pattern) none = some a ↔
      ∃ before after, candidates = before ++ a :: after ∧
        (∀ b ∈ before, Overtakes pattern .best a b) ∧ ∀ b ∈ after, Leads pattern .best a b := by
  induction candidates using List.reverseRecOn generalizing a with
  | nil =>
    constructor
    · intro h
      cases h
    · rintro ⟨before, after, h, -⟩
      simp at h
  | append_singleton candidates c ih =>
    rw [List.foldl_append, List.foldl_cons, List.foldl_nil]
    cases hfound : candidates.foldl (better pattern) none with
    | none =>
      obtain rfl : candidates = [] := by
        by_contra hne
        exact foldl_better_ne_none hne hfound
      rw [better_none, Option.some.injEq]
      constructor
      · rintro rfl
        exact ⟨[], [], rfl, by simp, by simp⟩
      · rintro ⟨before, after, heq, -⟩
        cases before with
        | nil => exact (List.cons.inj heq).1
        | cons b before => simp at heq
    | some current =>
      obtain ⟨before, after, rfl, hbefore, hafter⟩ := ih.mp hfound
      constructor
      · intro h
        by_cases hle : (pattern c).score ≤ (pattern current).score
        · -- the new one does not beat the one kept so far
          rw [better_some_of_leads hle] at h
          obtain rfl := Option.some.inj h
          refine ⟨before, after ++ [c], by simp, hbefore, fun b hb => ?_⟩
          rcases List.mem_append.mp hb with hb | hb
          · exact hafter b hb
          · rw [List.mem_singleton.mp hb]
            exact hle
        · have hlt : (pattern current).score < (pattern c).score := Int.not_le.mp hle
          rw [better_some_of_overtakes hlt] at h
          obtain rfl := Option.some.inj h
          refine ⟨before ++ current :: after, [], rfl, fun b hb => ?_, by simp⟩
          show (pattern b).score < (pattern c).score
          rcases List.mem_append.mp hb with hb | hb
          · exact Int.lt_trans (hbefore b hb) hlt
          · rcases List.mem_cons.mp hb with rfl | hb
            · exact hlt
            · exact Int.lt_of_le_of_lt (hafter b hb) hlt
      · rintro ⟨front, back, heq, hfront, hback⟩
        rcases List.eq_nil_or_concat back with rfl | ⟨back, last, rfl⟩
        · obtain ⟨hl, hlast⟩ := List.append_inj' heq rfl
          obtain rfl : c = a := List.singleton_inj.mp hlast
          have hover : Overtakes pattern .best c current := hfront current (by simp [← hl])
          exact congrArg some rfl ▸ better_some_of_overtakes hover
        · rw [List.concat_eq_append, ← List.cons_append, ← List.append_assoc] at heq
          obtain ⟨hl, hlast⟩ := List.append_inj' heq rfl
          obtain rfl := List.singleton_inj.mp hlast
          have hkept : some current = some a := by
            rw [← hfound]
            exact ih.mpr ⟨front, back, hl, hfront, fun b hb => hback b (by simp [hb])⟩
          rw [hkept]
          exact better_some_of_leads (hback c (by simp))

/-- **The best candidate** is the earliest one in the order of the scores. -/
theorem findBest_eq_some_iff :
    findBest pattern path candidates = some a ↔
      ∃ before after, candidates = before ++ a :: after ∧ (pattern a).matchesPath path = true ∧
        (∀ b ∈ before, (pattern b).matchesPath path = true → Overtakes pattern .best a b) ∧
        ∀ b ∈ after, (pattern b).matchesPath path = true → Leads pattern .best a b := by
  rw [findBest, foldl_better_eq_some_iff, findAll]
  constructor
  · rintro ⟨front, back, hfilter, hfront, hback⟩
    obtain ⟨before, rest, rfl, rfl, hrest⟩ := List.filter_eq_append_iff.mp hfilter
    obtain ⟨skipped, after, rfl, hskipped, hmatch, rfl⟩ := List.filter_eq_cons_iff.mp hrest
    refine ⟨before ++ skipped, after, by simp, hmatch, fun b hb h => ?_, fun b hb h => ?_⟩
    · rcases List.mem_append.mp hb with hb | hb
      · exact hfront b (List.mem_filter.mpr ⟨hb, h⟩)
      · exact absurd h (hskipped b hb)
    · exact hback b (List.mem_filter.mpr ⟨hb, h⟩)
  · rintro ⟨before, after, rfl, hmatch, hbefore, hafter⟩
    let matching : List α → List α := List.filter fun b => (pattern b).matchesPath path
    refine ⟨matching before, matching after, ?_, ?_, ?_⟩
    · show List.filter _ (before ++ a :: after) = _
      rw [List.filter_append, List.filter_cons, if_pos hmatch]
    · intro b hb
      obtain ⟨hb, h⟩ := List.mem_filter.mp hb
      exact hbefore b hb h
    · intro b hb
      obtain ⟨hb, h⟩ := List.mem_filter.mp hb
      exact hafter b hb h

/-! ## Patterns that are written like the path -/

/-- **The first candidate that is written like the path** comes before everything else that matches:
in front of it stand only captures, and behind it nothing scores higher. -/
theorem exists_exact_split
    (hcompiled : ∀ c ∈ candidates, ∃ t, Pattern.compile t = .ok (pattern c))
    (hexact : ∃ c ∈ candidates, (pattern c).source = path ∧
      ∀ token ∈ (pattern c).tokens, token.isLiteral = true) :
    ∃ before a after, candidates = before ++ a :: after ∧
      candidates.find? (fun c => (pattern c).source = path) = some a ∧
      (pattern a).tokens = [.literal path] ∧
      (∀ b ∈ before, (pattern b).matchesPath path = true → Overtakes pattern .best a b) ∧
      ∀ b ∈ after, (pattern b).matchesPath path = true → Leads pattern .best a b := by
  obtain ⟨c, hc, hsource, hlit⟩ := hexact
  have hsome : (candidates.find? fun c => (pattern c).source = path).isSome = true :=
    List.find?_isSome.mpr ⟨c, hc, decide_eq_true hsource⟩
  obtain ⟨a, ha⟩ := Option.isSome_iff_exists.mp hsome
  obtain ⟨hfound, before, after, rfl, hearlier⟩ := List.find?_eq_some_iff_append.mp ha
  -- the candidate that was found is compiled from the same text as the exact one
  have hcompile : ∀ {b : α}, b ∈ before ++ a :: after → (pattern b).source = path →
      Pattern.compile path = .ok (pattern b) := by
    intro b hb hb'
    obtain ⟨t, ht⟩ := hcompiled b hb
    rw [← hb', (Pattern.digest_of_compile ht).1]
    exact ht
  have hac := (hcompile (by simp) (of_decide_eq_true hfound)).symm.trans (hcompile hc hsource)
  have htokens : (pattern a).tokens = [.literal path] := by
    rw [Except.ok.inj hac]
    exact Pattern.tokens_of_literals (hcompile hc hsource) hlit
  have hscore : (pattern a).score = 16 * (path.length : Int) := by
    rw [Pattern.score_eq_scoreOf, htokens]
    show 16 * (path.length : Int) + 0 = _
    omega
  refine ⟨before, a, after, rfl, ha, htokens, fun b hb hmatch => ?_, fun b _ hmatch => ?_⟩
  · have hother : (pattern b).source ≠ path := by simpa using hearlier b hb
    show (pattern b).score < (pattern a).score
    rw [hscore]
    apply Pattern.score_lt_of_matches hmatch
    by_contra hnone
    push Not at hnone
    -- without captures it would be written like the path as well
    obtain ⟨t, ht⟩ := hcompiled b (List.mem_append_left _ hb)
    have hliteral := Pattern.tokens_of_literals ht (by simpa using hnone)
    have hpath := (Pattern.matchesPath_of_literal hliteral).mp hmatch
    exact hother ((Pattern.digest_of_compile ht).1.trans hpath.symm)
  · show (pattern b).score ≤ (pattern a).score
    rw [hscore]
    exact Pattern.score_le_of_matches hmatch

end Selection

namespace RouteTable

open Selection

/-- **An exact pattern is never shadowed.**  Let the patterns be compiled, one of them from the path
itself and without captures.  Then the patterns with captures that match the path stay below sixteen
times its length, the best is the first that is written like the path, and a dispatch by score gives
the path to the first route of this kind, resolved with no values, whatever the binder. -/
theorem dispatch_exact {patterns : List Pattern} {path : Text}
    (hcompiled : ∀ p ∈ patterns, ∃ t, Pattern.compile t = .ok p)
    (hexact : ∃ p ∈ patterns, p.source = path ∧ ∀ token ∈ p.tokens, token.isLiteral = true) :
    (∀ p ∈ patterns, p.matchesPath path = true → (∃ token ∈ p.tokens, token.isLiteral = false) →
      p.score < 16 * (path.length : Int)) ∧
    (∃ first, patterns.find? (fun p => p.source = path) = some first ∧
      findBest id path patterns = some first) ∧
    ∀ routes binder, routes.map Route.pattern = patterns →
      ∃ route, routes.find? (fun r => r.pattern.source = path) = some route ∧
        dispatch ⟨routes, binder, .best⟩ path = some ⟨route, ⟨.resolved, []⟩⟩ := by
  refine ⟨fun p _ => Pattern.score_lt_of_matches, ?_, ?_⟩
  · obtain ⟨before, a, after, hsplit, hfirst, htokens, hbefore, hafter⟩ :=
      @exists_exact_split Pattern id patterns path hcompiled hexact
    have hmatch : (id a : Pattern).matchesPath path = true :=
      (Pattern.matchesPath_of_literal htokens).mpr rfl
    exact ⟨a, hfirst, findBest_eq_some_iff.mpr ⟨before, after, hsplit, hmatch, hbefore, hafter⟩⟩
  · rintro routes binder rfl
    rw [List.forall_mem_map] at hcompiled
    obtain ⟨_, hp, hexact⟩ := hexact
    obtain ⟨exact, hmem, rfl⟩ := List.mem_map.mp hp
    obtain ⟨before, route, after, rfl, hfirst, htokens, hbefore, hafter⟩ :=
      exists_exact_split hcompiled ⟨exact, hmem, hexact⟩
    let table : RouteTable := ⟨before ++ route :: after, binder, .best⟩
    have hresult : route.pattern.resolve binder path = ⟨.resolved, []⟩ :=
      Pattern.resolve_of_literal htokens binder
    have hmatch : Matches path route := (Pattern.matchesPath_of_literal htokens).mpr rfl
    have hresolves : table.Resolves path route := by
      refine ⟨hmatch, ?_⟩
      show (route.pattern.resolve binder path).status = .resolved
      rw [hresult]
    have hwinner : table.winner? path = some (route, before.length) := by
      show (table.withRoutes (before ++ route :: after)).winner? path = _
      apply winner?_withRoutes_eq_some_iff.mpr
      left
      exact ⟨hresolves, fun b hb h => hbefore b hb h.1, fun b hb h => hafter b hb h.1⟩
    refine ⟨route, hfirst, ?_⟩
    show table.dispatch path = _
    rw [dispatch_eq_winner?, hwinner]
    show some (Dispatch.mk route (route.pattern.resolve binder path)) = _
    rw [hresult]

/-- A placeholder and a wildcard that captures nothing stand in front of the exact pattern. -/
theorem dispatch_exact_last :
    ∃ patterns p, patterns.length = 3 ∧ patterns.getLast? = some p ∧
      p.source = Text.ofString "/ab" ∧ findBest id (Text.ofString "/ab") patterns = some p := by
  let v : Variable := ⟨['x'], none, none⟩
  let placeholder : Pattern := .of ⟨Text.ofString "/\x7bx\x7d",
    [.literal ['/'], .placeholder v .plain]⟩
  let wildcard : Pattern := .of ⟨Text.ofString "/ab\x7bx*\x7d",
    [.literal ['/', 'a', 'b'], .wildcard v .remainder]⟩
  let exact : Pattern := .of ⟨Text.ofString "/ab", [.literal ['/', 'a', 'b']]⟩
  have hcompiled : ∀ p ∈ [placeholder, wildcard, exact], ∃ t, Pattern.compile t = .ok p := by
    intro p hp
    simp only [List.mem_cons, List.not_mem_nil, or_false] at hp
    rcases hp with rfl | rfl | rfl
    · exact ⟨_, show Pattern.compile (Text.ofString "/\x7bx\x7d") = .ok placeholder from rfl⟩
    · exact ⟨_, show Pattern.compile (Text.ofString "/ab\x7bx*\x7d") = .ok wildcard from rfl⟩
    · exact ⟨_, show Pattern.compile (Text.ofString "/ab") = .ok exact from rfl⟩
  obtain ⟨-, ⟨first, hfirst, hbest⟩, -⟩ := dispatch_exact hcompiled
    ⟨exact, by simp, rfl, by simp [exact, Pattern.tokens, Token.isLiteral]⟩
  obtain rfl : exact = first := Option.some.inj (show some exact = some first from hfirst)
  exact ⟨_, exact, rfl, rfl, rfl, hbest⟩

end RouteTable

end UriRouting
