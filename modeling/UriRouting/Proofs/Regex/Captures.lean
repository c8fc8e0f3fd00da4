/-
# UriRouting.Proofs.Regex.Captures — the search with captures finds a match where there is one

The search for captures goes back to the next way of a part when what stands behind the part cannot be
read.  It gives up no way that could lead on: reading with `r` from a place succeeds if and only if the
continuation accepts a place to which `r` can read (`Finds`).  For a repetition without upper bound the
search makes no round behind one that read nothing; such rounds can be left out (`Rounds.progress`).

Hence captures are found exactly in the texts that the expression matches (`captures_isSome_iff`), and
there is one for each group (`length_of_captures_eq_some`).
-/
import UriRouting.Proofs.Regex.Search
import UriRouting.Regex.Captures

namespace UriRouting.Regex

variable {α : Type} {r : Regex} {t : Text} {round : Way α} {i j m n : Nat}

/-- **`Place.of t i`** — the place before the character `i` of a text. -/
def Place.of (t : Text) (i : Nat) : Place := ⟨i, before? t i, t.drop i⟩

/-! ## One way or another -/

/-- One more round of a repetition, and what may come behind it. -/
def another (round : Way α) (greedy endless : Bool) (n : Nat) (p : Place) (g : Groups)
    (k : Place → Groups → Option α) : Option α :=
  round p fun q g' =>
    if endless && q.index == p.index then k q (renewed g g')
    else further round greedy endless n q (renewed g g') k

theorem further_succ (round : Way α) (greedy endless : Bool) (n : Nat) (p : Place) (g : Groups)
    (k : Place → Groups → Option α) :
    further round greedy endless (n + 1) p g k =
      if greedy then (another round greedy endless n p g k).or (k p g)
      else (k p g).or (another round greedy endless n p g k) := by
  cases greedy with
  | true => exact Option.orElse_eq_or
  | false => exact Option.orElse_eq_or

/-- Whether one more round is tried before or after none does not matter for what can be found. -/
theorem further_isSome_iff {greedy endless : Bool} {p : Place} {g : Groups}
    {k : Place → Groups → Option α} :
    (further round greedy endless (n + 1) p g k).isSome = true ↔
      (another round greedy endless n p g k).isSome = true ∨ (k p g).isSome = true := by
  rw [further_succ]
  cases greedy with
  | true => rw [if_pos rfl, Option.isSome_or, Bool.or_eq_true]
  | false => rw [if_neg (by decide), Option.isSome_or, Bool.or_eq_true, or_comm]

theorem run_alt [Unicode] (a b : Regex) (p : Place) (k : Place → Groups → Option α) :
    run (.alt a b) p k =
      (run a p fun q g => k q (g ++ List.replicate b.groupCount none)).or
        (run b p fun q g => k q (List.replicate a.groupCount none ++ g)) :=
  Option.orElse_eq_or

theorem capturesFrom_cons [Unicode] (r : Regex) (i : Nat) (before : Option Char) (c : Char)
    (t : Text) :
    capturesFrom r i before (c :: t) =
      (run r ⟨i, before, c :: t⟩ fun _ g => some g).or (capturesFrom r (i + 1) (some c) t) :=
  Option.orElse_eq_or

/-! ## Every group has a capture -/

theorem length_renewed (old new : Groups) : (renewed old new).length = new.length := by
  induction old generalizing new with
  | nil => rfl
  | cons o olds ih =>
    cases new with
    | nil => rfl
    | cons n news => exact congrArg (· + 1) (ih news)

/-- **`Fills n way`** — what is found was accepted by the continuation, with so many groups. -/
def Fills (n : Nat) (way : Way α) : Prop :=
  ∀ {p k a}, way p k = some a → ∃ q g, g.length = n ∧ k q g = some a

theorem Fills.due (h : Fills n round) {g : Groups} (hg : g.length = n) :
    Fills n fun p k => due round m p g k := by
  induction m generalizing g with
  | zero =>
    intro p k a hfound
    exact ⟨p, g, hg, hfound⟩
  | succ m ih =>
    intro p k a hfound
    obtain ⟨q, g', hg', hrest⟩ := h hfound
    exact ih ((length_renewed g g').trans hg') hrest

theorem Fills.further (h : Fills n round) {greedy endless : Bool} {g : Groups}
    (hg : g.length = n) : Fills n fun p k => further round greedy endless m p g k := by
  induction m generalizing g with
  | zero =>
    intro p k a hfound
    exact ⟨p, g, hg, hfound⟩
  | succ m ih =>
    intro p k a hfound
    have hagain : another round greedy endless m p g k = some a →
        ∃ q g', g'.length = n ∧ k q g' = some a := by
      intro hround
      obtain ⟨q, g', hg', hrest⟩ := h hround
      have hlength := (length_renewed g g').trans hg'
      split at hrest
      · exact ⟨q, _, hlength, hrest⟩
      · exact ih hlength hrest
    have hstop : k p g = some a → ∃ q g', g'.length = n ∧ k q g' = some a :=
      fun hk => ⟨p, g, hg, hk⟩
    change Regex.further round greedy endless (m + 1) p g k = some a at hfound
    rw [further_succ] at hfound
    split at hfound
    · exact (Option.or_eq_some_iff.mp hfound).elim hagain fun h => hstop h.2
    · exact (Option.or_eq_some_iff.mp hfound).elim hstop fun h => hagain h.2

variable [Unicode]

theorem run_fills (r : Regex) : Fills r.groupCount (run r : Way α) := by
  induction r with
  | empty =>
    intro p k a hfound
    exact ⟨p, [], rfl, hfound⟩
  | set s =>
    intro p k a hfound
    unfold run at hfound
    split at hfound
    · cases hfound
    · split at hfound
      · exact ⟨_, [], rfl, hfound⟩
      · cases hfound
  | look l =>
    intro p k a hfound
    unfold run at hfound
    split at hfound
    · exact ⟨p, [], rfl, hfound⟩
    · cases hfound
  | cat a b iha ihb =>
    intro p k v hfound
    obtain ⟨q, g, hg, hrest⟩ := iha hfound
    obtain ⟨q', g', hg', hk⟩ := ihb hrest
    exact ⟨q', g ++ g', by rw [List.length_append, hg, hg']; rfl, hk⟩
  | alt a b iha ihb =>
    intro p k v hfound
    rw [run_alt] at hfound
    rcases Option.or_eq_some_iff.mp hfound with hleft | ⟨-, hright⟩
    · obtain ⟨q, g, hg, hk⟩ := iha hleft
      exact ⟨q, _, by rw [List.length_append, hg, List.length_replicate]; rfl, hk⟩
    · obtain ⟨q, g, hg, hk⟩ := ihb hright
      exact ⟨q, _, by rw [List.length_append, hg, List.length_replicate]; rfl, hk⟩
  | times greedy r least most ih =>
    intro p k a hfound
    obtain ⟨q, g, hg, hrest⟩ := Fills.due ih List.length_replicate hfound
    cases most with
    | none => exact Fills.further ih hg hrest
    | some most => exact Fills.further ih hg hrest
  | group capturing r ih =>
    intro p k a hfound
    obtain ⟨q, g, hg, hk⟩ := ih hfound
    refine ⟨q, _, ?_, hk⟩
    cases capturing with
    | false => exact hg.trans (Nat.zero_add _).symm
    | true => exact (congrArg (· + 1) hg).trans (Nat.add_comm _ 1)

theorem length_of_capturesFrom_eq_some {before : Option Char} {g : Groups}
    (h : capturesFrom r i before t = some g) : g.length = r.groupCount := by
  have hrun : ∀ {p : Place}, (run r p fun _ g => some g) = some g → g.length = r.groupCount := by
    intro p hfound
    obtain ⟨q, g', hg', hk⟩ := run_fills r hfound
    exact Option.some.inj hk ▸ hg'
  induction t generalizing i before with
  | nil => exact hrun h
  | cons c t ih =>
    rw [capturesFrom_cons] at h
    rcases Option.or_eq_some_iff.mp h with hhere | ⟨-, hbehind⟩
    · exact hrun hhere
    · exact ih hbehind

/-- **There is a capture for each group of the expression.** -/
theorem length_of_captures_eq_some {g : Groups} (h : captures r t = some g) :
    g.length = r.groupCount := by
  unfold captures at h
  split at h
  · exact length_of_capturesFrom_eq_some h
  · cases h

/-! ## No match is missed -/

/-- **`Finds t R way`** — from a place of the text the way leads on if the continuation accepts a place
to which the relation leads, whatever the groups hold. -/
structure Finds (t : Text) (R : Nat → Nat → Prop) (way : Way α) : Prop where
  isSome_iff : ∀ {i k} {K : Nat → Prop}, i ≤ t.length →
    (∀ j g, i ≤ j → j ≤ t.length → ((k (Place.of t j) g).isSome = true ↔ K j)) →
    ((way (Place.of t i) k).isSome = true ↔ ∃ j, R i j ∧ K j)

/-- Rounds that get anywhere begin, after some that read nothing, with one that reads something. -/
theorem Rounds.progress (h : Rounds r t n i j) (hne : i ≠ j) :
    ∃ l m, i ≠ l ∧ Spans r t i l ∧ Rounds r t m l j := by
  induction n with
  | zero => exact absurd h.1 hne
  | succ n ih =>
    obtain ⟨l, hfirst, hrest⟩ := h
    by_cases hl : i = l
    · subst hl
      exact ih hrest
    · exact ⟨l, n, hl, hfirst, hrest⟩

theorem Finds.due (h : Finds t (Spans r t) round) {g : Groups} :
    Finds t (Rounds r t n) fun p k => due round n p g k := by
  induction n generalizing g with
  | zero =>
    refine ⟨fun {i k K} hi hk => ?_⟩
    rw [show (Regex.due round 0 (Place.of t i) g k).isSome = true ↔ K i from hk i g le_rfl hi]
    constructor
    · intro hK
      exact ⟨i, ⟨rfl, hi⟩, hK⟩
    · rintro ⟨j, ⟨rfl, -⟩, hK⟩
      exact hK
  | succ n ih =>
    refine ⟨fun {i k K} hi hk => ?_⟩
    have hround := h.isSome_iff hi (K := fun j => ∃ l, Rounds r t n j l ∧ K l)
      (k := fun q g' => Regex.due round n q (renewed g g') k) fun j g' hij hj =>
        ih.isSome_iff hj fun l g hjl hl => hk l g (Nat.le_trans hij hjl) hl
    refine hround.trans ?_
    constructor
    · rintro ⟨j, hfirst, l, hrest, hK⟩
      exact ⟨l, ⟨j, hfirst, hrest⟩, hK⟩
    · rintro ⟨l, ⟨j, hfirst, hrest⟩, hK⟩
      exact ⟨j, hfirst, l, hrest, hK⟩

/-- At most `n` rounds, any of which may read nothing. -/
theorem Finds.further (h : Finds t (Spans r t) round) {greedy : Bool} {g : Groups} :
    Finds t (fun i j => ∃ m, m ≤ n ∧ Rounds r t m i j)
      fun p k => further round greedy false n p g k := by
  induction n generalizing g with
  | zero =>
    refine ⟨fun {i k K} hi hk => ?_⟩
    rw [show (Regex.further round greedy false 0 (Place.of t i) g k).isSome = true ↔ K i
      from hk i g le_rfl hi]
    constructor
    · intro hK
      exact ⟨i, ⟨0, le_rfl, rfl, hi⟩, hK⟩
    · rintro ⟨j, ⟨m, hm, hrounds⟩, hK⟩
      obtain rfl := Nat.le_zero.mp hm
      exact hrounds.1 ▸ hK
  | succ n ih =>
    refine ⟨fun {i k K} hi hk => ?_⟩
    have hround : (another round greedy false n (Place.of t i) g k).isSome = true ↔ _ :=
      h.isSome_iff hi fun j g' hij hj => ih.isSome_iff hj fun l g hjl hl =>
        hk l g (Nat.le_trans hij hjl) hl
    refine further_isSome_iff.trans ?_
    rw [hround, hk i g le_rfl hi]
    constructor
    · rintro (⟨j, hfirst, l, ⟨m, hm, hrest⟩, hK⟩ | hK)
      · exact ⟨l, ⟨m + 1, Nat.succ_le_succ hm, j, hfirst, hrest⟩, hK⟩
      · exact ⟨i, ⟨0, Nat.zero_le _, rfl, hi⟩, hK⟩
    · rintro ⟨l, ⟨m, hm, hrounds⟩, hK⟩
      cases m with
      | zero => exact .inr (hrounds.1 ▸ hK)
      | succ m =>
        obtain ⟨j, hfirst, hrest⟩ := hrounds
        exact .inl ⟨j, hfirst, l, ⟨m, Nat.le_of_succ_le_succ hm, hrest⟩, hK⟩

/-- Rounds without end: behind one that reads nothing there is no other, and behind the others there
are fewer characters left each time. -/
theorem Finds.endless (h : Finds t (Spans r t) round) {greedy : Bool} {g : Groups} :
    ∀ {i k} {K : Nat → Prop}, i ≤ t.length → t.length - i ≤ n →
      (∀ j g, i ≤ j → j ≤ t.length → ((k (Place.of t j) g).isSome = true ↔ K j)) →
      ((Regex.further round greedy true n (Place.of t i) g k).isSome = true ↔
        ∃ j, (∃ m, Rounds r t m i j) ∧ K j) := by
  induction n generalizing g with
  | zero =>
    intro i k K hi hn hk
    rw [show (Regex.further round greedy true 0 (Place.of t i) g k).isSome = true ↔ K i
      from hk i g le_rfl hi]
    constructor
    · intro hK
      exact ⟨i, ⟨0, rfl, hi⟩, hK⟩
    · rintro ⟨j, ⟨m, hrounds⟩, hK⟩
      have hbounds := hrounds.bounds
      obtain rfl : i = j := by omega
      exact hK
  | succ n ih =>
    intro i k K hi hn hk
    -- behind a round that reads something the induction goes on, behind any other it is over
    have hround : (another round greedy true n (Place.of t i) g k).isSome = true ↔
        ∃ j, Spans r t i j ∧ if i = j then K j else ∃ l, (∃ m, Rounds r t m j l) ∧ K l := by
      refine h.isSome_iff hi fun j g' hij hj => ?_
      by_cases hsame : i = j
      · subst hsame
        simpa [Place.of] using hk i (renewed g g') le_rfl hi
      · have hne : (j == i) = false := beq_eq_false_iff_ne.mpr (Ne.symm hsame)
        simp only [Place.of, Bool.true_and, hne, Bool.false_eq_true, if_false, hsame]
        exact ih hj (by omega) fun l g hjl hl => hk l g (Nat.le_trans hij hjl) hl
    rw [further_isSome_iff, hround, hk i g le_rfl hi]
    constructor
    · rintro (⟨j, hfirst, hrest⟩ | hK)
      · split at hrest
        case isTrue hsame => exact ⟨i, ⟨0, rfl, hi⟩, hsame ▸ hrest⟩
        case isFalse =>
          obtain ⟨l, ⟨m, hrounds⟩, hK⟩ := hrest
          exact ⟨l, ⟨m + 1, j, hfirst, hrounds⟩, hK⟩
      · exact ⟨i, ⟨0, rfl, hi⟩, hK⟩
    · rintro ⟨l, ⟨m, hrounds⟩, hK⟩
      by_cases hl : i = l
      · exact .inr (hl ▸ hK)
      · obtain ⟨j, m, hj, hfirst, hrest⟩ := hrounds.progress hl
        exact .inl ⟨j, hfirst, by rw [if_neg hj]; exact ⟨l, ⟨m, hrest⟩, hK⟩⟩

/-! ## The ways of an expression -/

variable {a b : Regex}

theorem finds_empty : Finds t (Spans .empty t) (run .empty : Way α) := by
  refine ⟨fun {i k K} hi hk => ?_⟩
  refine (hk i [] le_rfl hi).trans ?_
  constructor
  · intro hK
    exact ⟨i, .empty hi, hK⟩
  · rintro ⟨j, hspans, hK⟩
    cases hspans with
    | empty _ => exact hK

theorem run_set_of (s : Charset) {c : Char} (hget : t[i]? = some c)
    (k : Place → Groups → Option α) :
    run (.set s) (Place.of t i) k =
      if s.contains c then k (Place.of t (i + 1)) [] else none := by
  obtain ⟨hlt, hc⟩ := List.getElem?_eq_some_iff.mp hget
  have hdrop : t.drop i = c :: t.drop (i + 1) := by rw [List.drop_eq_getElem_cons hlt, hc]
  have hnext : (⟨i + 1, some c, t.drop (i + 1)⟩ : Place) = Place.of t (i + 1) := by
    rw [Place.of, before?, hget]
  rw [← hnext]
  simp only [run, Place.of, hdrop]

theorem finds_set (s : Charset) : Finds t (Spans (.set s) t) (run (.set s) : Way α) := by
  refine ⟨fun {i k K} hi hk => ?_⟩
  cases hget : t[i]? with
  | none =>
    have hdrop : t.drop i = [] := List.drop_eq_nil_iff.mpr (List.getElem?_eq_none_iff.mp hget)
    constructor
    · intro hsome
      simp [run, Place.of, hdrop] at hsome
    · rintro ⟨j, hspans, -⟩
      cases hspans with
      | set hc _ => rw [hget] at hc; cases hc
  | some c =>
    have hlt := (List.getElem?_eq_some_iff.mp hget).1
    rw [run_set_of s hget]
    constructor
    · intro hsome
      split at hsome
      case isTrue hs =>
        exact ⟨i + 1, .set hget hs, (hk (i + 1) [] (Nat.le_succ i) hlt).mp hsome⟩
      case isFalse => cases hsome
    · rintro ⟨j, hspans, hK⟩
      cases hspans with
      | set hc hs =>
        obtain rfl := Option.some.inj (hget.symm.trans hc)
        rw [if_pos hs]
        exact (hk (i + 1) [] (Nat.le_succ i) hlt).mpr hK

theorem finds_look (l : Look) : Finds t (Spans (.look l) t) (run (.look l) : Way α) := by
  refine ⟨fun {i k K} hi hk => ?_⟩
  have hrun : run (.look l) (Place.of t i) k =
      if l.holds (before? t i) t[i]? then k (Place.of t i) [] else none := by
    simp only [run, Place.of, List.head?_drop]
  rw [hrun]
  constructor
  · intro hsome
    split at hsome
    case isTrue hl => exact ⟨i, .look hi hl, (hk i [] le_rfl hi).mp hsome⟩
    case isFalse => cases hsome
  · rintro ⟨j, hspans, hK⟩
    cases hspans with
    | look _ hl =>
      rw [if_pos hl]
      exact (hk i [] le_rfl hi).mpr hK

theorem Finds.cat (ha : Finds t (Spans a t) (run a : Way α))
    (hb : Finds t (Spans b t) (run b : Way α)) :
    Finds t (Spans (.cat a b) t) (run (.cat a b) : Way α) := by
  refine ⟨fun {i k K} hi hk => ?_⟩
  have hboth := ha.isSome_iff hi (K := fun j => ∃ l, Spans b t j l ∧ K l)
    (k := fun q g => run b q fun q' g' => k q' (g ++ g')) fun j g hij hj =>
      hb.isSome_iff hj fun l g' hjl hl => hk l (g ++ g') (Nat.le_trans hij hjl) hl
  refine hboth.trans ?_
  constructor
  · rintro ⟨j, hfirst, l, hsecond, hK⟩
    exact ⟨l, .cat hfirst hsecond, hK⟩
  · rintro ⟨l, hspans, hK⟩
    cases hspans with
    | cat hfirst hsecond => exact ⟨_, hfirst, l, hsecond, hK⟩

theorem Finds.alt (ha : Finds t (Spans a t) (run a : Way α))
    (hb : Finds t (Spans b t) (run b : Way α)) :
    Finds t (Spans (.alt a b) t) (run (.alt a b) : Way α) := by
  refine ⟨fun {i k K} hi hk => ?_⟩
  have hleft := ha.isSome_iff hi
    (k := fun q g => k q (g ++ List.replicate b.groupCount none)) fun j g => hk j _
  have hright := hb.isSome_iff hi
    (k := fun q g => k q (List.replicate a.groupCount none ++ g)) fun j g => hk j _
  rw [run_alt, Option.isSome_or, Bool.or_eq_true, hleft, hright]
  constructor
  · rintro (⟨j, hspans, hK⟩ | ⟨j, hspans, hK⟩)
    · exact ⟨j, .altLeft hspans, hK⟩
    · exact ⟨j, .altRight hspans, hK⟩
  · rintro ⟨j, hspans, hK⟩
    cases hspans with
    | altLeft hspans => exact .inl ⟨j, hspans, hK⟩
    | altRight hspans => exact .inr ⟨j, hspans, hK⟩

/-- The rounds that are due and those that may follow are the rounds of the repetition. -/
theorem Finds.times {greedy : Bool} {least : Nat} {most : Option Nat}
    (h : Finds t (Spans r t) (run r : Way α)) (hmost : ∀ bound, most = some bound → least ≤ bound) :
    Finds t (Spans (.times greedy r least most) t) (run (.times greedy r least most) : Way α) := by
  refine ⟨fun {i k K} hi hk => ?_⟩
  cases most with
  | none =>
    refine ((Finds.due h).isSome_iff hi fun j g hij hj =>
      Finds.endless h hj ?_ fun l g hjl hl => hk l g (Nat.le_trans hij hjl) hl).trans ?_
    · simp [Place.of]
    · simp only [spans_times_iff]
      constructor
      · rintro ⟨j, hdue, l, ⟨m, hmore⟩, hK⟩
        exact ⟨l, ⟨least + m, by omega, by simp, rounds_add_iff.mpr ⟨j, hdue, hmore⟩⟩, hK⟩
      · rintro ⟨l, ⟨n, hleast, -, hrounds⟩, hK⟩
        obtain ⟨m, rfl⟩ := Nat.exists_eq_add_of_le hleast
        obtain ⟨j, hdue, hmore⟩ := rounds_add_iff.mp hrounds
        exact ⟨j, hdue, l, ⟨m, hmore⟩, hK⟩
  | some most =>
    have hle : least ≤ most := hmost most rfl
    refine ((Finds.due h).isSome_iff hi fun j g hij hj =>
      (Finds.further h).isSome_iff hj fun l g hjl hl =>
        hk l g (Nat.le_trans hij hjl) hl).trans ?_
    simp only [spans_times_iff]
    constructor
    · rintro ⟨j, hdue, l, ⟨m, hm, hmore⟩, hK⟩
      refine ⟨l, ⟨least + m, by omega, ?_, rounds_add_iff.mpr ⟨j, hdue, hmore⟩⟩, hK⟩
      intro bound hb
      obtain rfl := Option.some.inj hb
      omega
    · rintro ⟨l, ⟨n, hleast, hmost, hrounds⟩, hK⟩
      have hn := hmost most rfl
      obtain ⟨m, rfl⟩ := Nat.exists_eq_add_of_le hleast
      obtain ⟨j, hdue, hmore⟩ := rounds_add_iff.mp hrounds
      exact ⟨j, hdue, l, ⟨m, by omega, hmore⟩, hK⟩

theorem Finds.group {capturing : Bool} (h : Finds t (Spans r t) (run r : Way α)) :
    Finds t (Spans (.group capturing r) t) (run (.group capturing r) : Way α) := by
  refine ⟨fun {i k K} hi hk => ?_⟩
  have hgroup := h.isSome_iff hi (K := K) (k := fun q g =>
    k q (if capturing then some ((Place.of t i).upTo q) :: g else g)) fun j g => hk j _
  refine hgroup.trans (exists_congr fun j => and_congr_left fun _ => ?_)
  exact spans_group_iff.symm

/-- **Reading from a place leads on exactly if the expression reads to a place that is accepted.** -/
theorem run_finds (hr : IsBounded r) : Finds t (Spans r t) (run r : Way α) := by
  induction r with
  | empty => exact finds_empty
  | set s => exact finds_set s
  | look l => exact finds_look l
  | cat a b iha ihb => exact (iha hr.1).cat (ihb hr.2)
  | alt a b iha ihb => exact (iha hr.1).alt (ihb hr.2)
  | times greedy r least most ih => exact (ih hr.1).times hr.2
  | group capturing r ih => exact (ih hr).group

/-! ## The places of a text -/

theorem run_isSome_iff (hr : IsBounded r) (hi : i ≤ t.length) :
    (run r (Place.of t i) fun _ g => some g).isSome = true ↔ ∃ j, Spans r t i j := by
  simpa using (run_finds hr).isSome_iff hi (K := fun _ => True) (k := fun _ g => some g) (by simp)

/-- The places from `i` on are tried one after the other. -/
theorem capturesFrom_isSome_iff (hr : IsBounded r) (hi : i ≤ t.length) :
    (capturesFrom r i (before? t i) (t.drop i)).isSome = true ↔
      ∃ j l, i ≤ j ∧ Spans r t j l := by
  have hrun := run_isSome_iff hr hi
  generalize hrest : t.drop i = rest
  induction rest generalizing i with
  | nil =>
    have hend : t.length ≤ i := List.drop_eq_nil_iff.mp hrest
    rw [Place.of, hrest] at hrun
    refine hrun.trans ⟨fun ⟨l, h⟩ => ⟨i, l, le_rfl, h⟩, ?_⟩
    rintro ⟨j, l, hij, hspans⟩
    have hbounds := hspans.bounds
    obtain rfl : i = j := by omega
    exact ⟨l, hspans⟩
  | cons c rest ih =>
    have hget : t[i]? = some c := by rw [← List.head?_drop, hrest, List.head?_cons]
    have hnext : t.drop (i + 1) = rest := by rw [← List.drop_drop, hrest]; rfl
    have hlt : i < t.length := (List.getElem?_eq_some_iff.mp hget).1
    have hbefore : before? t (i + 1) = some c := hget
    have hbehind : (capturesFrom r (i + 1) (some c) rest).isSome = true ↔
        ∃ j l, i + 1 ≤ j ∧ Spans r t j l :=
      hbefore ▸ ih (i := i + 1) hlt (run_isSome_iff hr hlt) hnext
    rw [Place.of, hrest] at hrun
    rw [capturesFrom_cons, Option.isSome_or, Bool.or_eq_true, hrun, hbehind]
    constructor
    · rintro (⟨l, hspans⟩ | ⟨j, l, hij, hspans⟩)
      · exact ⟨i, l, le_rfl, hspans⟩
      · exact ⟨j, l, by omega, hspans⟩
    · rintro ⟨j, l, hij, hspans⟩
      by_cases hj : i = j
      · subst hj
        exact .inl ⟨l, hspans⟩
      · exact .inr ⟨j, l, by omega, hspans⟩

/-- Where there is no match, trying all ways finds none either. -/
theorem captures_eq_capturesFrom (hr : IsBounded r) : captures r t = capturesFrom r 0 none t := by
  unfold captures
  split
  case isTrue => rfl
  case isFalse hmatch =>
    have hnone : (capturesFrom r 0 (before? t 0) (t.drop 0)).isSome ≠ true := by
      rw [ne_eq, capturesFrom_isSome_iff hr (Nat.zero_le _)]
      rintro ⟨i, j, -, hspans⟩
      exact hmatch ((isMatch_iff hr).mpr ⟨i, j, hspans⟩)
    exact (Option.not_isSome_iff_eq_none.mp hnone).symm

/-- **The search with captures finds a match exactly where there is one.** -/
theorem captures_isSome_iff (hr : IsBounded r) :
    (captures r t).isSome = true ↔ Matches r t := by
  rw [captures_eq_capturesFrom hr]
  refine (capturesFrom_isSome_iff hr (Nat.zero_le _)).trans ?_
  simp [Matches]

end UriRouting.Regex
