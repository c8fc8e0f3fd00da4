/-
# UriRouting.Proofs.Pattern.Matching — which paths a pattern matches, and what it captures

The expression of a pattern has one group for each token.  The search for captures tries, group by
group, the pieces that the token accepts, in the order in which the token prefers them
(`Token.tries_expression`): a lazy repetition begins with the shortest piece and a greedy one with the
longest.  So it is the backtracking search for a cutting (`captures_expressionOf`), and what a pattern
captures is the preferred one of all cuttings.
-/
import UriRouting.Proofs.Pattern.Expression
import UriRouting.Proofs.Pattern.Search
import UriRouting.Proofs.Regex.Captures
import UriRouting.Proofs.Regex.Moves

namespace UriRouting

/-! ## §1 The ways of an expression without groups -/

namespace Regex

variable {r : Regex} {s : Charset} {w : Text → List (Text × Text)} {α : Type}

/-- **`Place.past p x`** — the place behind the piece `x.1`, with `x.2` left to read. -/
def Place.past (p : Place) (x : Text × Text) : Place :=
  ⟨p.index + x.1.length, x.1.getLast?.or p.before, x.2⟩

theorem Place.past_nil (p : Place) : p.past ([], p.rest) = p := rfl

theorem Place.past_cons (i : Nat) (before : Option Char) (c : Char) (t piece rest : Text) :
    (⟨i + 1, some c, t⟩ : Place).past (piece, rest) =
      (⟨i, before, c :: t⟩ : Place).past (c :: piece, rest) := by
  have hindex : i + 1 + piece.length = i + (piece.length + 1) := by omega
  cases hlast : piece.getLast? <;> simp [past, hindex, hlast, List.getLast?_cons]

variable [Unicode]

/-- **`Tries r w`** — reading with `r` tries the ways `w` of taking a piece off the front of a text,
one after the other, and fills no group. -/
structure Tries (r : Regex) (w : Text → List (Text × Text)) : Prop where
  run_eq : ∀ {α : Type} (p : Place) (k : Place → Groups → Option α),
    run r p k = (w p.rest).findSome? fun x => k (p.past x) []

/-- A character of the set, and behind it the ways `w`. -/
def following (s : Charset) (w : Text → List (Text × Text)) : Text → List (Text × Text)
  | [] => []
  | c :: rest => if s.contains c then (w rest).map fun x => (c :: x.1, x.2) else []

theorem run_set_cons (s : Charset) (i : Nat) (before : Option Char) (c : Char) (rest : Text)
    (k : Place → Groups → Option α) :
    run (.set s) ⟨i, before, c :: rest⟩ k =
      if s.contains c then k ⟨i + 1, some c, rest⟩ [] else none := rfl

/-- If reading goes on with the ways `w` behind a character, it does so with all of them. -/
theorem run_set_eq {p : Place} {k k' : Place → Groups → Option α}
    (hk : ∀ q : Place, p.index < q.index → q.rest.length < p.rest.length →
      k q [] = (w q.rest).findSome? fun x => k' (q.past x) []) :
    run (.set s) p k = (following s w p.rest).findSome? fun x => k' (p.past x) [] := by
  obtain ⟨i, before, t⟩ := p
  cases t with
  | nil => rfl
  | cons c t =>
    rw [run_set_cons, following]
    split
    · rw [hk ⟨i + 1, some c, t⟩ (Nat.lt_succ_self i) (Nat.lt_succ_self t.length), List.findSome?_map]
      congr 1
      funext x
      exact congrArg (fun q => k' q []) (Place.past_cons i before c t x.1 x.2)
    · rfl

theorem tries_empty : Tries .empty fun t => [([], t)] := ⟨fun p k => by simp [run, Place.past_nil]⟩

theorem Tries.following (hr : Tries r w) : Tries (.cat (.set s) r) (Regex.following s w) where
  run_eq _ k :=
    run_set_eq (k := fun q g => run r q fun q' g' => k q' (g ++ g')) fun q _ _ => hr.run_eq q k

theorem Tries.ofSet : Tries (.set s) (Regex.following s fun t => [([], t)]) :=
  ⟨fun p k => run_set_eq fun q _ _ => by simp [Place.past_nil]⟩

theorem Tries.group (hr : Tries r w) : Tries (.group false r) w := ⟨hr.run_eq⟩

/-- The characters of a text are taken off its front. -/
theorem tries_text (text : Text) :
    Tries (catAll (text.map fun c => .set (.single c))) fun t =>
      match Text.strip text t with
      | some rest => [(text, rest)]
      | none => [] := by
  induction text with
  | nil => exact tries_empty
  | cons c text ih =>
    have hways : ∀ t, (match Text.strip (c :: text) t with
        | some rest => [(c :: text, rest)]
        | none => []) = following (.single c) (fun t => match Text.strip text t with
        | some rest => [(text, rest)]
        | none => []) t := by
      intro t
      cases t with
      | nil => rfl
      | cons d t =>
        by_cases hd : d = c
        · subst hd
          have hsingle := Charset.contains_single_iff.mpr (rfl : d = d)
          simp only [Text.strip, following, hsingle, if_true]
          cases Text.strip text t <;> rfl
        · have hsingle : (Charset.single c).contains d ≠ true :=
            fun h => hd (Charset.contains_single_iff.mp h)
          simp [Text.strip, following, hsingle, Ne.symm hd]
    cases text with
    | nil => exact ⟨fun p k => hways p.rest ▸ (Tries.ofSet (s := .single c)).run_eq p k⟩
    | cons d text => exact ⟨fun p k => hways p.rest ▸ ih.following.run_eq p k⟩

/-- The ways of taking characters of a set, fewer before more if they are not taken greedily. -/
def manyOf (greedy : Bool) (s : Charset) (t : Text) : List (Text × Text) :=
  let found := t.splits.filter fun x => x.1.all s.contains
  if greedy then found.reverse else found

/-- One character more may be taken, or none. -/
theorem manyOf_eq (greedy : Bool) (s : Charset) (t : Text) :
    manyOf greedy s t =
      if greedy then following s (manyOf greedy s) t ++ [([], t)]
      else ([], t) :: following s (manyOf greedy s) t := by
  cases t with
  | nil => cases greedy <;> rfl
  | cons c t =>
    have hsplits : (Text.splits (c :: t)).filter (fun x => x.1.all s.contains) =
        ([], c :: t) :: following s (fun t => t.splits.filter fun x => x.1.all s.contains)
          (c :: t) := by
      by_cases hc : s.contains c = true <;>
        simp [Text.splits, following, List.filter_cons, List.filter_map, Function.comp_def, hc]
    cases greedy with
    | false => exact hsplits
    | true =>
      show List.reverse _ = _
      rw [hsplits, List.reverse_cons]
      by_cases hc : s.contains c = true <;> simp [following, manyOf, hc]

/-- A repetition of a set takes its characters. -/
theorem further_set_eq {greedy : Bool} {n : Nat} {p : Place} {k : Place → Groups → Option α}
    (hn : p.rest.length ≤ n) :
    further (run (.set s)) greedy true n p [] k =
      (manyOf greedy s p.rest).findSome? fun x => k (p.past x) [] := by
  induction n generalizing p with
  | zero =>
    have hrest : p.rest = [] := List.eq_nil_of_length_eq_zero (Nat.le_zero.mp hn)
    have hways : manyOf greedy s [] = [([], [])] := by cases greedy <;> rfl
    have hpast : p.past ([], []) = p := hrest ▸ p.past_nil
    rw [hrest, hways, List.findSome?_singleton, hpast]
    rfl
  | succ n ih =>
    have hanother : another (run (.set s)) greedy true n p [] k =
        (following s (manyOf greedy s) p.rest).findSome? fun x => k (p.past x) [] := by
      refine run_set_eq fun q hindex hlength => ?_
      have hne : (q.index == p.index) = false := beq_eq_false_iff_ne.mpr (Nat.ne_of_gt hindex)
      simp only [Bool.true_and, hne, Bool.false_eq_true, if_false]
      exact ih (by omega)
    rw [further_succ, hanother, manyOf_eq]
    split
    · rw [List.findSome?_append, List.findSome?_singleton, Place.past_nil]
    · rw [← List.singleton_append, List.findSome?_append, List.findSome?_singleton, Place.past_nil]

theorem tries_many (greedy : Bool) (s : Charset) :
    Tries (.times greedy (.set s) 0 none) (manyOf greedy s) :=
  ⟨fun _ _ => further_set_eq (Nat.le_succ _)⟩

end Regex

/-! ## §2 The ways of a token -/

/-- Two searches that agree on the elements of a list find the same in it. -/
theorem findSome?_congr {α β : Type} {l : List α} {f g : α → Option β} (h : ∀ x ∈ l, f x = g x) :
    l.findSome? f = l.findSome? g := by
  induction l with
  | nil => rfl
  | cons x l ih =>
    rw [List.findSome?_cons, List.findSome?_cons, h x List.mem_cons_self,
      ih fun y hy => h y (List.mem_cons_of_mem x hy)]

namespace Token

open Regex (Tries Groups Place manyOf following)

theorem ways_literal (text t : Text) :
    (literal text).ways t =
      match Text.strip text t with
      | some rest => [(text, rest)]
      | none => [] := by
  show t.splits.filter (fun x => decide (x.1 = text)) = _
  induction t generalizing text with
  | nil => cases text <;> simp [Text.splits, Text.strip]
  | cons c t ih =>
    cases text with
    | nil => simp [Text.splits, Text.strip, List.filter_map, Function.comp_def]
    | cons b text =>
      simp only [Text.splits, List.filter_cons, List.filter_map, Function.comp_def]
      by_cases h : b = c
      · subst h
        simp only [Text.strip, List.nil_eq, reduceCtorEq, decide_false, List.cons.injEq, true_and]
        rw [ih text]
        cases Text.strip text t <;> rfl
      · simp [Text.strip, h, Ne.symm h]

theorem contains_notSlash_iff {c : Char} :
    (Regex.Charset.nested 1 (.complement (.single '/'))).contains c = true ↔ c ≠ '/' := by
  show (!(Regex.Charset.single '/').contains c) = true ↔ c ≠ '/'
  rw [Bool.not_eq_true', ← Bool.not_eq_true, Regex.Charset.contains_single_iff]

theorem all_notSlash (piece : Text) :
    piece.all (Regex.Charset.nested 1 (.complement (.single '/'))).contains =
      decide ('/' ∉ piece) := by
  rw [Bool.eq_iff_iff, decide_eq_true_iff, List.all_eq_true]
  simp only [contains_notSlash_iff]
  constructor
  · intro hall hslash
    exact hall '/' hslash rfl
  · rintro hfree c hc rfl
    exact hfree hc

/-- A placeholder takes a character that is no slash, and more behind it. -/
theorem ways_placeholder (v : Variable) (m : Modifier) (t : Text) :
    (placeholder v m).ways t =
      following (.nested 1 (.complement (.single '/')))
        (manyOf false (.nested 1 (.complement (.single '/')))) t := by
  have hmany : ∀ t : Text, manyOf false (.nested 1 (.complement (.single '/'))) t =
      t.splits.filter fun x => decide ('/' ∉ x.1) := by
    intro t
    unfold manyOf
    simp only [all_notSlash]
    rfl
  show t.splits.filter (fun x => decide (x.1 ≠ [] ∧ '/' ∉ x.1)) = _
  cases t with
  | nil => rfl
  | cons c t =>
    by_cases hc : c = '/'
    · subst hc
      have hslash : ¬ (Regex.Charset.nested 1 (.complement (.single '/'))).contains '/' = true :=
        fun h => contains_notSlash_iff.mp h rfl
      rw [following, if_neg hslash]
      simp only [Text.splits, List.filter_cons, List.filter_map, Function.comp_def]
      simp
    · have hother := contains_notSlash_iff.mpr hc
      rw [following, if_pos hother, hmany]
      simp [Text.splits, List.filter_map, Function.comp_def, Ne.symm hc]

theorem tries_placeholder (v : Variable) (m : Modifier) :
    Tries (.times false Regex.notSlash 1 none) (placeholder v m).ways := by
  refine ⟨fun p k => ?_⟩
  rw [ways_placeholder]
  exact Regex.run_set_eq
    (k := fun q g => Regex.further _ false true (q.rest.length + 1) q (Regex.renewed [] g) k)
    fun q _ _ => Regex.further_set_eq (Nat.le_succ _)

theorem tries_anything : Tries Regex.anything fun t => t.splits.reverse := by
  have hways : ∀ t : Text, t.splits.reverse = manyOf true .all t := by
    intro t
    refine congrArg List.reverse (List.filter_eq_self.mpr fun x _ => ?_).symm
    exact List.all_eq_true.mpr fun c _ => Regex.Charset.contains_all c
  exact ⟨fun p k => hways p.rest ▸ (Regex.tries_many true .all).group.run_eq p k⟩

theorem ways_remainder (v : Variable) (t : Text) :
    (wildcard v .remainder).ways t = t.splits.reverse := by
  show (t.splits.filter fun x => decide True).reverse = _
  simp

/-- A segments wildcard takes a slash and anything behind it, or nothing. -/
theorem ways_segments (v : Variable) (t : Text) :
    (wildcard v .segments).ways t =
      following (.single '/') (fun t => t.splits.reverse) t ++ [([], t)] := by
  show (t.splits.filter fun x => decide (x.1 = [] ∨ x.1.head? = some '/')).reverse = _
  cases t with
  | nil => rfl
  | cons c t =>
    by_cases hc : c = '/'
    · subst hc
      rw [following, if_pos (Regex.Charset.contains_single_iff.mpr rfl)]
      simp [Text.splits, List.filter_map, Function.comp_def]
    · rw [following, if_neg fun h => hc (Regex.Charset.contains_single_iff.mp h)]
      simp [Text.splits, List.filter_map, Function.comp_def, hc]

theorem tries_segments (v : Variable) :
    Tries (.times true (.group false (.cat (.set (.single '/')) Regex.anything)) 0 (some 1))
      (wildcard v .segments).ways := by
  have hslash := (tries_anything.following (s := .single '/')).group
  refine ⟨fun p k => ?_⟩
  rw [ways_segments, List.findSome?_append, List.findSome?_singleton, Regex.Place.past_nil,
    ← hslash.run_eq]
  exact Regex.further_succ _ true false 0 p [] k

/-- **The expression of a token tries the pieces that the token accepts** in the order in which it
prefers them. -/
theorem exists_tries (token : Token) :
    ∃ r, token.expression = .group true r ∧ Tries r token.ways := by
  cases token with
  | literal text => exact ⟨_, rfl, ⟨fun p k => ways_literal text p.rest ▸
      (Regex.tries_text text).run_eq p k⟩⟩
  | placeholder v m => exact ⟨_, rfl, tries_placeholder v m⟩
  | wildcard v form =>
    cases form with
    | remainder => exact ⟨_, rfl, ⟨fun p k => ways_remainder v p.rest ▸
      tries_anything.run_eq p k⟩⟩
    | segments => exact ⟨_, rfl, tries_segments v⟩

/-- The group of a token holds the piece that was taken. -/
theorem run_expression (token : Token) {α : Type} (p : Place) (k : Place → Groups → Option α) :
    Regex.run token.expression p k =
      (token.ways p.rest).findSome? fun x => k (p.past x) [some x.1] := by
  obtain ⟨r, hgroup, htries⟩ := token.exists_tries
  rw [hgroup]
  refine (htries.run_eq p _).trans (findSome?_congr fun x hx => ?_)
  have hrest : x.1 ++ x.2 = p.rest := (mem_ways_iff.mp hx).1
  have hpiece : p.upTo (p.past x) = x.1 := by
    show p.rest.take (p.index + x.1.length - p.index) = x.1
    rw [← hrest, Nat.add_sub_cancel_left, List.take_left]
  rw [if_pos rfl, hpiece]

end Token

/-! ## §3 The search for captures is the search for a cutting -/

namespace Pattern

open Regex (Groups Place catAll)

theorem run_catAll_cons (r : Regex) (rs : List Regex) {α : Type} (p : Place)
    (k : Place → Groups → Option α) :
    Regex.run (catAll (r :: rs)) p k =
      Regex.run r p fun q g => Regex.run (catAll rs) q fun q' g' => k q' (g ++ g') := by
  cases rs with
  | nil => simp [catAll, Regex.run]
  | cons s rs => rfl

/-- Behind the start of the text, the groups of the tokens hold the pieces of a cutting. -/
theorem run_groups (tokens : List Token) {α : Type} (p : Place) (f : Groups → α) :
    (Regex.run (catAll (tokens.map Token.expression ++ [.look .textEnd])) p fun _ g =>
      some (f g)) = (search tokens p.rest).map fun pieces => f (pieces.map some) := by
  induction tokens generalizing p f with
  | nil =>
    obtain ⟨i, before, t⟩ := p
    cases t <;> rfl
  | cons token tokens ih =>
    rw [List.map_cons, List.cons_append, run_catAll_cons, token.run_expression, search, firstWay,
      List.map_findSome?]
    refine congrArg (List.findSome? · _) (funext fun x => ?_)
    rw [ih, Function.comp_apply, Option.map_map]
    rfl

/-- Behind the first character of a text there is no start. -/
theorem capturesFrom_textStart (rs : List Regex) (i : Nat) (c : Char) (t : Text) :
    Regex.capturesFrom (catAll (.look .textStart :: rs)) i (some c) t = none := by
  have hrun : ∀ (i : Nat) (c : Char) (t : Text),
      (Regex.run (catAll (.look .textStart :: rs)) ⟨i, some c, t⟩ fun _ g => some g) = none := by
    intro i c t
    rw [run_catAll_cons]
    rfl
  induction t generalizing i c with
  | nil => exact hrun i c []
  | cons d t ih => rw [Regex.capturesFrom_cons, hrun, ih, Option.none_or]

theorem isBounded_expressionOf (tokens : List Token) : Regex.IsBounded (expressionOf tokens) :=
  Regex.isBounded_of_read (read_sourceOf tokens)

/-- **The search for captures finds what the search for a cutting finds.** -/
theorem captures_expressionOf (tokens : List Token) (path : Text) :
    (expressionOf tokens).captures path = (search tokens path).map (·.map some) := by
  have hrun : ∀ t : Text, (Regex.run (expressionOf tokens) ⟨0, none, t⟩ fun _ g => some g) =
      (search tokens t).map (·.map some) := by
    intro t
    rw [expressionOf, run_catAll_cons]
    exact run_groups tokens ⟨0, none, t⟩ id
  rw [Regex.captures_eq_capturesFrom (isBounded_expressionOf tokens)]
  cases path with
  | nil => exact hrun []
  | cons c path =>
    rw [Regex.capturesFrom_cons, hrun, expressionOf, capturesFrom_textStart, Option.or_none]

/-- **The expression of a pattern matches what its tokens can be cut.** -/
theorem matches_expressionOf_iff {tokens : List Token} {path : Text} :
    (expressionOf tokens).Matches path ↔ ∃ pieces, IsCutting tokens pieces path := by
  rw [← Regex.captures_isSome_iff (isBounded_expressionOf tokens), captures_expressionOf,
    Option.isSome_map, ← Option.ne_none_iff_isSome, ne_eq, search_eq_none_iff]
  simp only [not_forall, not_not]

/-! ## §4 What a pattern matches and captures -/

theorem groups_eq_length (p : Pattern) : p.groups = p.tokens.length := by
  rw [groups, p.expression_eq, groupCount_expressionOf]

/-- Whatever matches captures for each token. -/
theorem length_of_expression_captures {p : Pattern} {path : Text} {groups : Regex.Groups}
    (h : p.expression.captures path = some groups) : groups.length = p.tokens.length :=
  (Regex.length_of_captures_eq_some h).trans p.groups_eq_length

/-- Nothing is refused for want of a group. -/
theorem captures_eq (p : Pattern) (path : Text) :
    p.captures path = (p.expression.captures path).map (·.map (·.getD [])) := by
  rw [captures]
  cases h : p.expression.captures path with
  | none => rfl
  | some groups => exact if_pos (length_of_expression_captures h)

theorem captures_eq_search (p : Pattern) (path : Text) :
    p.captures path = search p.tokens path := by
  rw [captures_eq, p.expression_eq, captures_expressionOf, Option.map_map]
  simp [Function.comp_def]

theorem captures_eq_some_iff {p : Pattern} {path : Text} {pieces : List Text} :
    p.captures path = some pieces ↔ IsPreferred p.tokens pieces path := by
  rw [captures_eq_search, search_eq_some_iff]

theorem captures_eq_none_iff {p : Pattern} {path : Text} :
    p.captures path = none ↔ ∀ pieces, ¬ IsCutting p.tokens pieces path := by
  rw [captures_eq_search, search_eq_none_iff]

/-- The expression is searched for a match and for captures with one answer. -/
theorem matchesPath_eq_isSome (p : Pattern) (path : Text) :
    p.matchesPath path = (p.captures path).isSome := by
  have hbounded : Regex.IsBounded p.expression := p.expression_eq ▸ isBounded_expressionOf p.tokens
  rw [Bool.eq_iff_iff, matchesPath, Regex.isMatch_iff hbounded, captures_eq, Option.isSome_map,
    Regex.captures_isSome_iff hbounded]

theorem matchesPath_iff_captures {p : Pattern} {path : Text} :
    p.matchesPath path = true ↔ ∃ pieces, p.captures path = some pieces := by
  rw [matchesPath_eq_isSome, Option.isSome_iff_exists]

theorem matchesPath_iff_cutting {p : Pattern} {path : Text} :
    p.matchesPath path = true ↔ ∃ pieces, IsCutting p.tokens pieces path := by
  rw [matchesPath_iff_captures, ← Option.ne_none_iff_exists', ne_eq, captures_eq_none_iff]
  simp only [not_forall, not_not]

/-- **A pattern captures the preferred cutting.**  It matches a path if and only if the path can be
cut into pieces that its tokens accept.  It captures pieces exactly when it matches, and of all
cuttings they are the preferred one. -/
theorem captures_preferred_cutting (p : Pattern) (path : Text) :
    (p.matchesPath path = true ↔ ∃ pieces, IsCutting p.tokens pieces path) ∧
    ((p.captures path).isSome = true ↔ p.matchesPath path = true) ∧
    (∀ pieces, p.captures path = some pieces ↔ IsPreferred p.tokens pieces path) ∧
    ∃ r, Regex.read p.regex = .ok r ∧ (r.Matches path ↔ p.matchesPath path = true) ∧
      r.captures path = (p.captures path).map (·.map some) := by
  refine ⟨matchesPath_iff_cutting, ?_, fun pieces => captures_eq_some_iff, ?_⟩
  · rw [matchesPath_eq_isSome]
  · refine ⟨expressionOf p.tokens, read_sourceOf p.tokens, ?_, ?_⟩
    · rw [matches_expressionOf_iff, matchesPath_iff_cutting]
    · rw [captures_expressionOf, captures_eq_search]

/-- Two placeholders and a wildcard compete for one text: each placeholder takes one character. -/
example : (expressionOf [.placeholder ⟨['a'], none, none⟩ .plain,
    .placeholder ⟨['b'], none, none⟩ .plain, .wildcard ⟨['c'], none, none⟩ .remainder]).captures
      ['x', 'y', 'z', '/', 'w'] = some [some ['x'], some ['y'], some ['z', '/', 'w']] := by
  decide

end Pattern

end UriRouting
