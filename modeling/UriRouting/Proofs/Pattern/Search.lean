/-
# UriRouting.Proofs.Pattern.Search — backtracking finds the preferred cutting

A backtracking search for a cutting goes through the tokens in order.  For each token it tries the
accepted pieces at the front of the text, the shorter ones first for a placeholder and the longer
ones first for a wildcard (`Token.ways`), and it goes back to the next piece when the tokens behind
find no cutting of what is left (`search`).  It finds nothing only if there is no cutting
(`search_eq_none_iff`), and otherwise the preferred one (`search_eq_some_iff`).
-/
import UriRouting.Proofs.Pattern.Preference
import Mathlib.Data.List.Infix

namespace UriRouting

/-! ## §1 The pieces at the front of a text, in the order of the search -/

/-- The ways of dividing a text in two, the shortest beginning first. -/
def Text.splits : Text → List (Text × Text)
  | [] => [([], [])]
  | c :: r => ([], c :: r) :: (splits r).map fun w => (c :: w.1, w.2)

theorem Text.mem_splits_iff {s a b : Text} : (a, b) ∈ s.splits ↔ a ++ b = s := by
  induction s generalizing a with
  | nil => simp [splits]
  | cons c r ih =>
    simp only [splits, List.mem_cons, List.mem_map, Prod.mk.injEq, Prod.exists]
    constructor
    · rintro (⟨rfl, rfl⟩ | ⟨a', b', hw, rfl, rfl⟩)
      · rfl
      · rw [List.cons_append, ih.mp hw]
    · intro h
      cases a with
      | nil => exact Or.inl ⟨rfl, h⟩
      | cons d a =>
        obtain ⟨rfl, htail⟩ := List.cons.inj h
        exact Or.inr ⟨a, b, ih.mpr htail, rfl, rfl⟩

theorem Text.splits_pairwise (s : Text) :
    s.splits.Pairwise fun v w => v.1.length < w.1.length := by
  induction s with
  | nil => simp [splits]
  | cons c r ih =>
    rw [splits, List.pairwise_cons, List.pairwise_map]
    refine ⟨?_, ih.imp fun h => Nat.succ_lt_succ h⟩
    intro w hw
    obtain ⟨w', _, rfl⟩ := List.mem_map.mp hw
    exact Nat.succ_pos _

namespace Token

instance (token : Token) (piece : Text) : Decidable (token.Accepts piece) :=
  match token with
  | literal text => inferInstanceAs (Decidable (piece = text))
  | placeholder _ _ => inferInstanceAs (Decidable (piece ≠ [] ∧ '/' ∉ piece))
  | wildcard _ .remainder => inferInstanceAs (Decidable True)
  | wildcard _ .segments => inferInstanceAs (Decidable (piece = [] ∨ piece.head? = some '/'))

/-- **`ways token s`** — the pieces that the token may take off the front of `s`, each with what is
left, in the order in which a search tries them. -/
def ways (token : Token) (s : Text) : List (Text × Text) :=
  let found := s.splits.filter fun w => token.Accepts w.1
  match token with
  | wildcard _ _ => found.reverse
  | _ => found

theorem mem_ways_iff {token : Token} {s piece rest : Text} :
    (piece, rest) ∈ token.ways s ↔ piece ++ rest = s ∧ token.Accepts piece := by
  have h : (piece, rest) ∈ s.splits.filter (fun w => token.Accepts w.1) ↔
      piece ++ rest = s ∧ token.Accepts piece := by
    rw [List.mem_filter, Text.mem_splits_iff, decide_eq_true_iff]
  cases token with
  | literal text => exact h
  | placeholder v m => exact h
  | wildcard v f => exact List.mem_reverse.trans h

/-- What is tried first is preferred. -/
theorem ways_pairwise (token : Token) (s : Text) :
    (token.ways s).Pairwise fun v w => token.Prefers v.1 w.1 := by
  have h := s.splits_pairwise.filter fun w => token.Accepts w.1
  cases token with
  | literal text =>
    -- the literal is one way at most, since two ways would have one length
    refine h.imp_of_mem fun hv hw hlt => absurd hlt ?_
    have hv' : _ = text := of_decide_eq_true (List.mem_filter.mp hv).2
    have hw' : _ = text := of_decide_eq_true (List.mem_filter.mp hw).2
    rw [hv', hw']
    exact Nat.lt_irrefl _
  | placeholder v m => exact h
  | wildcard v f => exact List.pairwise_reverse.mpr h

end Token

/-! ## §2 The backtracking search finds the preferred cutting -/

namespace Pattern

/-- **`firstWay token f s`** — the first way of taking a piece off the front of `s` for which `f`
has pieces for the rest. -/
def firstWay (token : Token) (f : Text → Option (List Text)) (s : Text) : Option (List Text) :=
  (token.ways s).findSome? fun w => (f w.2).map (w.1 :: ·)

/-- **`search tokens s`** — the first cutting of `s` that backtracking comes to. -/
def search : List Token → Text → Option (List Text)
  | [], s => if s = [] then some [] else none
  | token :: tokens, s => firstWay token (search tokens) s

theorem search_eq_none_iff {tokens : List Token} {s : Text} :
    search tokens s = none ↔ ∀ pieces, ¬ IsCutting tokens pieces s := by
  induction tokens generalizing s with
  | nil => simp [search, isCutting_nil_iff]
  | cons token tokens ih =>
    rw [search, firstWay, List.findSome?_eq_none_iff]
    constructor
    · intro h all hall
      obtain ⟨piece, pieces, rest, rfl, rfl, hacc, hrest⟩ := isCutting_cons_iff.mp hall
      have hnone := h (piece, rest) (Token.mem_ways_iff.mpr ⟨rfl, hacc⟩)
      rw [Option.map_eq_none_iff, ih] at hnone
      exact hnone pieces hrest
    · rintro h ⟨piece, rest⟩ hw
      obtain ⟨rfl, hacc⟩ := Token.mem_ways_iff.mp hw
      rw [Option.map_eq_none_iff, ih]
      exact fun pieces hrest => h _ (.cons hacc hrest)

/-- The search ends at the preferred cutting: whatever another cutting takes instead was either
tried before, without success, or comes later in the order of its token. -/
theorem search_isPreferred {tokens : List Token} {s : Text} {pieces : List Text}
    (h : search tokens s = some pieces) : IsPreferred tokens pieces s := by
  induction tokens generalizing s pieces with
  | nil =>
    obtain ⟨rfl, rfl⟩ : s = [] ∧ pieces = [] := by
      by_cases hs : s = []
      · simpa [search, hs, eq_comm] using h
      · simp [search, hs] at h
    exact ⟨.nil, fun other hother hne => absurd (isCutting_nil_iff.mp hother).1 hne⟩
  | cons token tokens ih =>
    rw [search, firstWay, List.findSome?_eq_some_iff] at h
    obtain ⟨tried, ⟨piece, rest⟩, untried, hways, hfound, htried⟩ := h
    obtain ⟨pieces, hsearch, rfl⟩ := Option.map_eq_some_iff.mp hfound
    have hmem : (piece, rest) ∈ token.ways s := by simp [hways]
    obtain ⟨rfl, hacc⟩ := Token.mem_ways_iff.mp hmem
    obtain ⟨hcut, hleast⟩ := ih hsearch
    refine ⟨.cons hacc hcut, ?_⟩
    intro other hother hne
    obtain ⟨piece', pieces', rest', rfl, heq, hacc', hcut'⟩ := isCutting_cons_iff.mp hother
    have hmem' : (piece', rest') ∈ tried ++ (piece, rest) :: untried :=
      hways ▸ Token.mem_ways_iff.mpr ⟨heq.symm, hacc'⟩
    rcases List.mem_append.mp hmem' with hbefore | hafter
    · -- a piece tried before has no cutting behind it
      have hnone := htried _ hbefore
      rw [Option.map_eq_none_iff, search_eq_none_iff] at hnone
      exact absurd hcut' (hnone pieces')
    · rcases List.mem_cons.mp hafter with hsame | hlater
      · -- the same piece: the cuttings differ behind it
        obtain ⟨rfl, rfl⟩ := Prod.mk.inj hsame
        exact .later (hleast pieces' hcut' fun h => hne (h ▸ rfl))
      · have hpairs := hways ▸ token.ways_pairwise (piece ++ rest)
        have hprefers := (List.pairwise_append.mp hpairs).2.1
        exact .here ((List.pairwise_cons.mp hprefers).1 _ hlater)

theorem search_eq_some_iff {tokens : List Token} {s : Text} {pieces : List Text} :
    search tokens s = some pieces ↔ IsPreferred tokens pieces s := by
  constructor
  · exact search_isPreferred
  · intro h
    cases hs : search tokens s with
    | none => exact absurd h.cutting (search_eq_none_iff.mp hs pieces)
    | some found => rw [(search_isPreferred hs).unique h]

end Pattern

end UriRouting
