/-
# UriRouting.Proofs.Route.Dispatch — which route gets a path

A match rule orders the routes of a table: by their places in the list, or by the scores of their
patterns and by their places where those are equal (`Selection.Ahead`).  The order is said of a
route with its place, since a table may hold a route twice.

`Selection.ranked` lists the routes that match in this order (`pairwise_ranked`): sorting by score
is stable, so routes of one score stay as they stand in the table.  In a list in order the first
good entry is the earliest one (`find?_ranked_eq_some_iff`), and a dispatch looks twice for the
first entry: among the routes that resolve, and among all.
-/
import UriRouting.Route.Table
import Mathlib.Data.List.Basic

namespace UriRouting

namespace Selection

variable {α : Type} (pattern : α → Pattern)

/-- **`Ahead pattern rule a b`** — under the rule the candidate `a` comes before `b`, each given
with its place. -/
def Ahead (rule : MatchRule) (a b : α × Nat) : Prop :=
  match rule with
  | .first => a.2 < b.2
  | .best => (pattern b.1).score < (pattern a.1).score ∨
      (pattern a.1).score = (pattern b.1).score ∧ a.2 < b.2

theorem Ahead.asymm {rule : MatchRule} {a b : α × Nat} (h : Ahead pattern rule a b) :
    ¬ Ahead pattern rule b a := by
  cases rule with
  | first => exact Nat.lt_asymm h
  | best =>
    unfold Ahead at h ⊢
    omega

/-! ## The ranked list -/

/-- The places of the candidates change nothing about their ranking. -/
theorem map_fst_ranked_zipIdx (rule : MatchRule) (path : Text) (candidates : List α) :
    (ranked (fun a : α × Nat => pattern a.1) rule path candidates.zipIdx).map Prod.fst =
      ranked pattern rule path candidates := by
  have hfound : (findAll (fun a : α × Nat => pattern a.1) path candidates.zipIdx).map Prod.fst =
      findAll pattern path candidates := by
    show (candidates.zipIdx.filter ((fun a => (pattern a).matchesPath path) ∘ Prod.fst)).map
      Prod.fst = _
    rw [← List.filter_map, List.zipIdx_map_fst]
    rfl
  cases rule with
  | first => exact hfound
  | best =>
    have hsort : ((findAll (fun a : α × Nat => pattern a.1) path candidates.zipIdx).mergeSort
        fun a b => (pattern b.1).score ≤ (pattern a.1).score).map Prod.fst =
        ((findAll (fun a : α × Nat => pattern a.1) path candidates.zipIdx).map Prod.fst).mergeSort
          fun a b => (pattern b).score ≤ (pattern a).score := List.map_mergeSort fun a _ b _ => rfl
    rw [ranked, ranked, hsort, hfound]

theorem mem_ranked_iff {rule : MatchRule} {path : Text} {candidates : List α} {a : α} :
    a ∈ ranked pattern rule path candidates ↔
      a ∈ candidates ∧ (pattern a).matchesPath path = true := by
  cases rule with
  | first => exact List.mem_filter
  | best =>
    show a ∈ List.mergeSort _ _ ↔ _
    rw [List.mem_mergeSort]
    exact List.mem_filter

theorem pairwise_zipIdx (candidates : List α) :
    candidates.zipIdx.Pairwise fun a b => a.2 < b.2 := by
  have h : (candidates.zipIdx.map Prod.snd).Pairwise (· < ·) := by
    rw [List.zipIdx_map_snd]
    exact List.pairwise_lt_range'
  exact List.pairwise_map.mp h

/-- **Sorting by score is stable**: candidates in the order of their places come to stand in the
order of their scores, and of their places where the scores are equal. -/
theorem pairwise_mergeSort_score {found : List (α × Nat)}
    (h : found.Pairwise fun a b => a.2 < b.2) :
    (found.mergeSort fun a b => (pattern b.1).score ≤ (pattern a.1).score).Pairwise
      (Ahead pattern .best) := by
  have htrans : ∀ a b c : α × Nat, decide ((pattern b.1).score ≤ (pattern a.1).score) = true →
      decide ((pattern c.1).score ≤ (pattern b.1).score) = true →
      decide ((pattern c.1).score ≤ (pattern a.1).score) = true := by
    intro a b c hab hbc
    rw [decide_eq_true_iff] at hab hbc ⊢
    omega
  have htotal : ∀ a b : α × Nat, (decide ((pattern b.1).score ≤ (pattern a.1).score) ||
      decide ((pattern a.1).score ≤ (pattern b.1).score)) = true := by
    intro a b
    rw [Bool.or_eq_true, decide_eq_true_iff, decide_eq_true_iff]
    omega
  induction found with
  | nil =>
    rw [List.mergeSort_nil]
    exact .nil
  | cons a found ih =>
    obtain ⟨hahead, htail⟩ := List.pairwise_cons.mp h
    have hsorted := List.pairwise_mergeSort htrans htotal (a :: found)
    obtain ⟨front, back, hcons, hrest, hfront⟩ := List.mergeSort_cons htrans htotal a found
    have ih := ih htail
    rw [hrest, List.pairwise_append] at ih
    obtain ⟨ihfront, ihback, ihcross⟩ := ih
    rw [hcons, List.pairwise_append, List.pairwise_cons] at hsorted ⊢
    refine ⟨ihfront, ⟨fun c hc => ?_, ihback⟩, fun b hb c hc => ?_⟩
    · -- `a` stands before what it does not lose to, by its place if the scores are equal
      have hle : (pattern c.1).score ≤ (pattern a.1).score :=
        decide_eq_true_iff.mp (hsorted.2.1.1 c hc)
      have hmem : c ∈ found := by
        rw [← List.mem_mergeSort, hrest]
        exact List.mem_append_right _ hc
      rcases Int.lt_or_eq_of_le hle with hlt | heq
      · exact .inl hlt
      · exact .inr ⟨heq.symm, hahead c hmem⟩
    · rcases List.mem_cons.mp hc with rfl | hc
      · -- what stands before `a` beats it
        have hlt := hfront b hb
        rw [Bool.not_eq_true', decide_eq_false_iff_not] at hlt
        exact .inl (Int.not_le.mp hlt)
      · exact ihcross b hb c hc

/-- **The ranked list is in the order of the rule.** -/
theorem pairwise_ranked (rule : MatchRule) (path : Text) (candidates : List α) :
    (ranked (fun a : α × Nat => pattern a.1) rule path candidates.zipIdx).Pairwise
      (Ahead pattern rule) := by
  have hfound : (findAll (fun a : α × Nat => pattern a.1) path candidates.zipIdx).Pairwise
      fun a b => a.2 < b.2 := (pairwise_zipIdx candidates).filter _
  cases rule with
  | first => exact hfound
  | best => exact pairwise_mergeSort_score pattern hfound

/-! ## The earliest candidate -/

/-- **`IsEarliest pattern rule good candidates a`** — of the good candidates, `a` comes before every
other under the rule. -/
structure IsEarliest (rule : MatchRule) (good : α → Prop) (candidates : List α) (a : α × Nat) :
    Prop where
  place : candidates[a.2]? = some a.1
  isGood : good a.1
  ahead : ∀ other place, candidates[place]? = some other → good other → place ≠ a.2 →
    Ahead pattern rule a (other, place)

/-- In a list in order, the first entry with a property comes before all others with it. -/
theorem find?_eq_some_iff_ahead {rule : MatchRule} {entries : List (α × Nat)}
    (h : entries.Pairwise (Ahead pattern rule)) {test : α × Nat → Bool} {a : α × Nat} :
    entries.find? test = some a ↔
      a ∈ entries ∧ test a = true ∧
        ∀ c ∈ entries, test c = true → c ≠ a → Ahead pattern rule a c := by
  have first : ∀ a, entries.find? test = some a → a ∈ entries ∧ test a = true ∧
      ∀ c ∈ entries, test c = true → c ≠ a → Ahead pattern rule a c := by
    intro a ha
    obtain ⟨htest, front, back, rfl, hfront⟩ := List.find?_eq_some_iff_append.mp ha
    refine ⟨by simp, htest, fun c hc hgood hne => ?_⟩
    rcases List.mem_append.mp hc with hc | hc
    · have hbad := hfront c hc
      rw [hgood] at hbad
      cases hbad
    · have hback := (List.pairwise_cons.mp (List.pairwise_append.mp h).2.1).1
      exact hback c ((List.mem_cons.mp hc).resolve_left hne)
  refine ⟨first a, ?_⟩
  rintro ⟨hmem, htest, hahead⟩
  cases hfind : entries.find? test with
  | none => exact absurd htest (List.find?_eq_none.mp hfind a hmem)
  | some c =>
    obtain ⟨hcmem, hctest, hcahead⟩ := first c hfind
    -- two different earliest entries would each come before the other
    by_contra hne
    have hca : c ≠ a := fun heq => hne (heq ▸ rfl)
    have hac := hahead c hcmem hctest hca
    exact hac.asymm pattern (hcahead a hmem htest hca.symm)

/-- **The first good entry of the ranked list is the earliest good candidate that matches.** -/
theorem find?_ranked_eq_some_iff {rule : MatchRule} {path : Text} {candidates : List α}
    {good : α → Prop} (test : α → Bool)
    (h : ∀ a, good a ↔ (pattern a).matchesPath path = true ∧ test a = true) {a : α × Nat} :
    (ranked (fun a : α × Nat => pattern a.1) rule path candidates.zipIdx).find?
        (fun a => test a.1) = some a ↔
      IsEarliest pattern rule good candidates a := by
  rw [find?_eq_some_iff_ahead pattern (pairwise_ranked pattern rule path candidates)]
  simp only [mem_ranked_iff, List.mem_zipIdx_iff_getElem?]
  constructor
  · rintro ⟨⟨hplace, hmatch⟩, htest, hahead⟩
    refine ⟨hplace, (h a.1).mpr ⟨hmatch, htest⟩, fun other place hother hgood hne => ?_⟩
    obtain ⟨hmatch, htest⟩ := (h other).mp hgood
    exact hahead (other, place) ⟨hother, hmatch⟩ htest fun heq => hne (congrArg Prod.snd heq)
  · rintro ⟨hplace, hgood, hahead⟩
    obtain ⟨hmatch, htest⟩ := (h a.1).mp hgood
    refine ⟨⟨hplace, hmatch⟩, htest, fun c hc htest hne => ?_⟩
    refine hahead c.1 c.2 hc.1 ((h c.1).mpr ⟨hc.2, htest⟩) fun heq => hne ?_
    rw [heq, hplace] at hc
    exact Prod.ext (Option.some.inj hc.1).symm heq

end Selection

namespace RouteTable

open Selection

/-- A dispatch makes its two choices among the ranked routes, each with its place. -/
theorem dispatch_eq_map (table : RouteTable) (path : Text) :
    table.dispatch path =
      (((ranked (fun a : Route × Nat => a.1.pattern) table.matchRule path
          table.routes.zipIdx).find?
            fun a => (a.1.pattern.resolve table.binder path).isResolved).or
        ((ranked (fun a : Route × Nat => a.1.pattern) table.matchRule path
          table.routes.zipIdx).find? fun _ => true)).map fun a => table.attempt path a.1 := by
  rw [dispatch, ← map_fst_ranked_zipIdx Route.pattern, choose]
  generalize ranked (fun a : Route × Nat => a.1.pattern) table.matchRule path
    table.routes.zipIdx = entries
  -- both choices look at the route alone, so its place can go along
  rw [List.map_map, List.find?_map, List.head?_map, Option.map_or]
  cases entries <;> rfl

/-- The route matches the path. -/
def Matches (path : Text) (route : Route) : Prop := route.pattern.matchesPath path = true

instance (path : Text) (route : Route) : Decidable (Matches path route) :=
  inferInstanceAs (Decidable (_ = true))

/-- The route matches the path and resolves it with the resolvers of the table. -/
def Resolves (table : RouteTable) (path : Text) (route : Route) : Prop :=
  Matches path route ∧ (route.pattern.resolve table.binder path).status = .resolved

instance (table : RouteTable) (path : Text) (route : Route) : Decidable (table.Resolves path route) :=
  inferInstanceAs (Decidable (_ ∧ _))

theorem choose_eq_none_iff {attempts : List Dispatch} : choose attempts = none ↔ attempts = [] := by
  rw [choose, Option.or_eq_none_iff, List.head?_eq_none_iff]
  constructor
  · exact And.right
  · rintro rfl
    exact ⟨rfl, rfl⟩

theorem dispatch_eq_none_iff {table : RouteTable} {path : Text} :
    table.dispatch path = none ↔
      ∀ route ∈ table.routes, route.pattern.matchesPath path = false := by
  rw [dispatch, choose_eq_none_iff, List.map_eq_nil_iff, List.eq_nil_iff_forall_not_mem]
  simp only [mem_ranked_iff, not_and, Bool.not_eq_true]

theorem exists_dispatch_iff {table : RouteTable} {path : Text} :
    (∃ d, table.dispatch path = some d) ↔ ∃ route ∈ table.routes, Matches path route := by
  rw [← Option.ne_none_iff_exists', ne_eq, dispatch_eq_none_iff]
  simp only [Matches, not_forall, Bool.not_eq_false, exists_prop]

/-- The first choice: the first ranked route that resolves. -/
theorem find?_resolved_eq_some_iff {table : RouteTable} {path : Text} {a : Route × Nat} :
    (ranked (fun a : Route × Nat => a.1.pattern) table.matchRule path table.routes.zipIdx).find?
        (fun a => (a.1.pattern.resolve table.binder path).isResolved) = some a ↔
      IsEarliest Route.pattern table.matchRule (table.Resolves path) table.routes a := by
  refine find?_ranked_eq_some_iff Route.pattern
    (fun route => (route.pattern.resolve table.binder path).isResolved) fun route => ?_
  simp only [Resolves, Matches, Resolution.isResolved, decide_eq_true_iff]

/-- The second choice: the first ranked route. -/
theorem find?_true_eq_some_iff {table : RouteTable} {path : Text} {a : Route × Nat} :
    (ranked (fun a : Route × Nat => a.1.pattern) table.matchRule path table.routes.zipIdx).find?
        (fun _ => true) = some a ↔
      IsEarliest Route.pattern table.matchRule (Matches path) table.routes a := by
  refine find?_ranked_eq_some_iff Route.pattern (fun _ => true) fun route => ?_
  simp only [Matches, and_true]

theorem find?_resolved_eq_none_iff {table : RouteTable} {path : Text} :
    (ranked (fun a : Route × Nat => a.1.pattern) table.matchRule path table.routes.zipIdx).find?
        (fun a => (a.1.pattern.resolve table.binder path).isResolved) = none ↔
      ∀ route ∈ table.routes, ¬ table.Resolves path route := by
  rw [List.find?_eq_none]
  constructor
  · rintro hnone route hroute ⟨hmatch, hstatus⟩
    have hmem : route ∈ ranked Route.pattern table.matchRule path table.routes :=
      (mem_ranked_iff Route.pattern).mpr ⟨hroute, hmatch⟩
    rw [← map_fst_ranked_zipIdx] at hmem
    obtain ⟨a, ha, rfl⟩ := List.mem_map.mp hmem
    exact hnone a ha (decide_eq_true hstatus)
  · intro hnone a ha hresolved
    have hmem : a.1 ∈ List.map Prod.fst _ := List.mem_map.mpr ⟨a, ha, rfl⟩
    rw [map_fst_ranked_zipIdx Route.pattern, mem_ranked_iff] at hmem
    exact hnone a.1 hmem.1 ⟨hmem.2, of_decide_eq_true hresolved⟩

/-- **A dispatch gives the path to the earliest route.**  No route gets a path that none matches.
Any other path goes, in the order of the match rule, to the earliest of the matching routes that
resolve it, or to the earliest matching route if none resolves it, each time with the result of that
route. -/
theorem dispatch_earliest (table : RouteTable) (path : Text) :
    (table.dispatch path = none ↔
      ∀ route ∈ table.routes, route.pattern.matchesPath path = false) ∧
    ∀ d, table.dispatch path = some d ↔
      d.result = d.route.pattern.resolve table.binder path ∧ ∃ place,
        (IsEarliest Route.pattern table.matchRule (table.Resolves path) table.routes
            (d.route, place) ∨
          (∀ route ∈ table.routes, ¬ table.Resolves path route) ∧
            IsEarliest Route.pattern table.matchRule (Matches path) table.routes
              (d.route, place)) := by
  refine ⟨dispatch_eq_none_iff, fun d => ?_⟩
  rw [dispatch_eq_map, Option.map_eq_some_iff]
  simp only [Option.or_eq_some_iff, find?_resolved_eq_some_iff, find?_true_eq_some_iff,
    find?_resolved_eq_none_iff]
  constructor
  · rintro ⟨⟨route, place⟩, hchoice, rfl⟩
    exact ⟨rfl, place, hchoice⟩
  · rintro ⟨hresult, place, hchoice⟩
    refine ⟨(d.route, place), hchoice, ?_⟩
    rw [attempt, ← hresult]

end RouteTable

end UriRouting
