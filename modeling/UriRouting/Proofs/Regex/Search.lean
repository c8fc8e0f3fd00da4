/-
# UriRouting.Proofs.Regex.Search — the search finds what an expression matches

An expression is run over all places of a text at once, with sets of places as the bits of numbers.
What it does to such a set is given by its spans: a place is in the result if the expression reads the
text from a place of the set to it (`testBit_advance_iff`).  For a repetition the spans are chains of
rounds.  The search stops looking for longer chains after as many rounds as the text has characters;
nothing is lost, since a round that reads nothing can be left out (`Rounds.shorten`).

A repetition that asks for more rounds than it allows has no spans, and the search knows nothing of
this.  The reader accepts none, so what it reads is searched for faithfully (`isMatch_iff`).
-/
import UriRouting.Proofs.FirstFault
import UriRouting.Proofs.Regex.Spans
import UriRouting.Regex.Search
import Mathlib.Data.Nat.Bitwise
import Mathlib.Logic.Function.Iterate

namespace UriRouting.Regex

variable {r : Regex} {t : Text} {i j k m n : Nat}

/-! ## Rounds of a repetition -/

section Rounds

variable [Unicode]

/-- **`Rounds r t n i k`** — `n` rounds of `r`, one after the other, read `t` from `i` to `k`. -/
def Rounds (r : Regex) (t : Text) : Nat → Nat → Nat → Prop
  | 0, i, k => i = k ∧ i ≤ t.length
  | n + 1, i, k => ∃ j, Spans r t i j ∧ Rounds r t n j k

theorem Rounds.bounds (h : Rounds r t n i k) : i ≤ k ∧ k ≤ t.length := by
  induction n generalizing i with
  | zero =>
    obtain ⟨rfl, hle⟩ := h
    exact ⟨Nat.le_refl i, hle⟩
  | succ n ih =>
    obtain ⟨j, hfirst, hrest⟩ := h
    exact ⟨Nat.le_trans hfirst.bounds.1 (ih hrest).1, (ih hrest).2⟩

theorem rounds_add_iff : Rounds r t (m + n) i k ↔ ∃ j, Rounds r t m i j ∧ Rounds r t n j k := by
  induction m generalizing i with
  | zero =>
    rw [Nat.zero_add]
    constructor
    · intro h
      exact ⟨i, ⟨rfl, Nat.le_trans h.bounds.1 h.bounds.2⟩, h⟩
    · rintro ⟨j, ⟨rfl, -⟩, h⟩
      exact h
  | succ m ih =>
    rw [Nat.succ_add]
    constructor
    · rintro ⟨j, hfirst, hrest⟩
      obtain ⟨l, hm, hn⟩ := ih.mp hrest
      exact ⟨l, ⟨j, hfirst, hm⟩, hn⟩
    · rintro ⟨l, ⟨j, hfirst, hm⟩, hn⟩
      exact ⟨j, hfirst, ih.mpr ⟨l, hm, hn⟩⟩

/-- **A repetition reads what a number of rounds reads** that is within its bounds. -/
theorem spans_times_iff {greedy : Bool} {least : Nat} {most : Option Nat} :
    Spans (.times greedy r least most) t i k ↔
      ∃ n, least ≤ n ∧ (∀ bound ∈ most, n ≤ bound) ∧ Rounds r t n i k := by
  constructor
  · intro h
    generalize hr : Regex.times greedy r least most = repetition at h
    induction h generalizing least most with
    | timesNone h =>
      cases hr
      exact ⟨0, Nat.le_refl 0, fun _ _ => Nat.zero_le _, rfl, h⟩
    | timesMust hfirst _ hmost _ ih =>
      cases hr
      obtain ⟨n, hleast, hbound, hrounds⟩ := ih rfl
      refine ⟨n + 1, Nat.succ_le_succ hleast, fun bound hb => ?_, _, hfirst, hrounds⟩
      cases hb
      have hpos : bound ≠ 0 := fun h => hmost (congrArg some h)
      have hle : n ≤ bound - 1 := hbound (bound - 1) rfl
      omega
    | timesMay hfirst _ hmost _ ih =>
      cases hr
      obtain ⟨n, -, hbound, hrounds⟩ := ih rfl
      refine ⟨n + 1, Nat.zero_le _, fun bound hb => ?_, _, hfirst, hrounds⟩
      cases hb
      have hpos : bound ≠ 0 := fun h => hmost (congrArg some h)
      have hle : n ≤ bound - 1 := hbound (bound - 1) rfl
      omega
    | _ => cases hr
  · rintro ⟨n, hleast, hbound, hrounds⟩
    induction n generalizing least most i with
    | zero =>
      obtain ⟨rfl, hle⟩ := hrounds
      obtain rfl := Nat.le_zero.mp hleast
      exact .timesNone hle
    | succ n ih =>
      obtain ⟨j, hfirst, hrest⟩ := hrounds
      have hmost : most ≠ some 0 := by
        rintro rfl
        exact absurd (hbound 0 rfl) (by omega)
      have hfewer : ∀ bound ∈ most.map (· - 1), n ≤ bound := by
        intro bound hb
        obtain ⟨old, hold, rfl⟩ := Option.mem_map.mp hb
        have := hbound old hold
        omega
      cases least with
      | zero => exact .timesMay hfirst (ih (Nat.zero_le n) hfewer hrest) hmost
      | succ least =>
        exact .timesMust hfirst (ih (Nat.le_of_succ_le_succ hleast) hfewer hrest) hmost

/-- Rounds that read nothing can be left out, and every other takes a character. -/
theorem Rounds.shorten (h : Rounds r t n i k) : ∃ m, m ≤ k - i ∧ Rounds r t m i k := by
  induction n generalizing i with
  | zero => exact ⟨0, Nat.zero_le _, h⟩
  | succ n ih =>
    obtain ⟨j, hfirst, hrest⟩ := h
    obtain ⟨m, hm, hrounds⟩ := ih hrest
    have hle := hfirst.bounds.1
    have hrest := hrounds.bounds.1
    by_cases hsame : i = j
    · subst hsame
      exact ⟨m, hm, hrounds⟩
    · exact ⟨m + 1, by omega, j, hfirst, hrounds⟩

end Rounds

/-! ## Sets of places -/

/-- The lowest bit and the others. -/
theorem testBit_bit_add (b : Bool) (rest i : Nat) :
    ((if b then 1 else 0) + 2 * rest).testBit i =
      match i with
      | 0 => b
      | i + 1 => rest.testBit i := by
  cases i with
  | zero => cases b <;> simp [Nat.testBit_zero]
  | succ i =>
    have hhalf : ((if b then 1 else 0) + 2 * rest) / 2 = rest := by split <;> omega
    rw [Nat.testBit_succ, hhalf]

theorem testBit_before_iff {p : Char → Bool} :
    (Places.before p t).testBit i = true ↔ ∃ c, t[i]? = some c ∧ p c = true := by
  induction t generalizing i with
  | nil => simp [Places.before]
  | cons c t ih =>
    rw [Places.before, testBit_bit_add]
    cases i with
    | zero => simp
    | succ i => exact ih

/-- The character before a place, in a text that stands behind the character `b`. -/
def neighbour? (b : Option Char) (t : Text) : Nat → Option Char
  | 0 => b
  | i + 1 => t[i]?

theorem testBit_looking_iff {q : Option Char → Option Char → Bool} {b : Option Char} :
    (Places.looking q b t).testBit i = true ↔
      i ≤ t.length ∧ q (neighbour? b t i) t[i]? = true := by
  induction t generalizing i b with
  | nil =>
    have hempty : Places.looking q b [] = (if q b none then 1 else 0) + 2 * 0 := rfl
    rw [hempty, testBit_bit_add]
    cases i <;> simp [neighbour?]
  | cons c t ih =>
    rw [Places.looking, testBit_bit_add]
    cases i with
    | zero => simp [neighbour?]
    | succ i =>
      have hneighbour : neighbour? b (c :: t) (i + 1) = neighbour? (some c) t i := by
        cases i <;> rfl
      show (Places.looking q (some c) t).testBit i = true ↔ _
      rw [ih, hneighbour, List.length_cons, Nat.succ_le_succ_iff, List.getElem?_cons_succ]

theorem testBit_upToLength_iff : (Places.upToLength n).testBit i = true ↔ i ≤ n := by
  show (2 ^ (n + 1) - 1).testBit i = true ↔ i ≤ n
  rw [Nat.testBit_two_pow_sub_one, decide_eq_true_iff, Nat.lt_succ_iff]

/-! ## What an expression does to a set of places -/

/-- The places of the set lie in the text. -/
def Within (t : Text) (p : Places) : Prop := ∀ i, p.testBit i = true → i ≤ t.length

/-- **`Follows t R f`** — from a set of places in the text, `f` makes the set of those to which the
relation leads. -/
def Follows (t : Text) (R : Nat → Nat → Prop) (f : Places → Places) : Prop :=
  ∀ p, Within t p → ∀ k, (f p).testBit k = true ↔ ∃ i, p.testBit i = true ∧ R i k

/-- Going on until nothing changes is going on all the way. -/
theorem exactly_eq_iterate (f : Places → Places) (n : Nat) (p : Places) :
    exactly f n p = f^[n] p := by
  induction n generalizing p with
  | zero => rfl
  | succ n ih =>
    rw [exactly, Function.iterate_succ_apply]
    by_cases hfixed : f p = p
    · rw [if_pos hfixed, hfixed, Function.iterate_fixed hfixed]
    · rw [if_neg hfixed, ih]

theorem atMost_eq_exactly (f : Places → Places) (n : Nat) (p : Places) :
    atMost f n p = exactly (fun q => q ||| f q) n p := by
  induction n generalizing p with
  | zero => rfl
  | succ n ih => rw [atMost, exactly, ih]

variable [Unicode]

section

variable {f : Places → Places}

/-- What an expression reads ends in the text. -/
theorem Follows.within (h : Follows t (Spans r t) f) {p : Places} (hp : Within t p) :
    Within t (f p) := by
  intro k hk
  obtain ⟨i, -, hspans⟩ := (h p hp k).mp hk
  exact hspans.bounds.2

theorem Follows.exactly (h : Follows t (Spans r t) f) (n : Nat) :
    Follows t (Rounds r t n) (Regex.exactly f n) := by
  intro p hp k
  rw [exactly_eq_iterate]
  induction n generalizing p with
  | zero =>
    constructor
    · intro hk
      exact ⟨k, hk, rfl, hp k hk⟩
    · rintro ⟨i, hi, rfl, -⟩
      exact hi
  | succ n ih =>
    rw [Function.iterate_succ_apply, ih (f p) (h.within hp)]
    constructor
    · rintro ⟨j, hj, hrest⟩
      obtain ⟨i, hi, hfirst⟩ := (h p hp j).mp hj
      exact ⟨i, hi, j, hfirst, hrest⟩
    · rintro ⟨i, hi, j, hfirst, hrest⟩
      exact ⟨j, (h p hp j).mpr ⟨i, hi, hfirst⟩, hrest⟩

theorem Follows.atMost (h : Follows t (Spans r t) f) (n : Nat) :
    Follows t (fun i k => ∃ m, m ≤ n ∧ Rounds r t m i k) (Regex.atMost f n) := by
  intro p hp k
  rw [atMost_eq_exactly, exactly_eq_iterate]
  induction n generalizing p with
  | zero =>
    constructor
    · intro hk
      exact ⟨k, hk, 0, Nat.le_refl 0, rfl, hp k hk⟩
    · rintro ⟨i, hi, m, hm, hrounds⟩
      obtain rfl := Nat.le_zero.mp hm
      obtain ⟨rfl, -⟩ := hrounds
      exact hi
  | succ n ih =>
    have hnext : Within t (p ||| f p) := by
      intro j hj
      rw [Nat.testBit_or, Bool.or_eq_true] at hj
      exact hj.elim (hp j) (h.within hp j)
    rw [Function.iterate_succ_apply, ih _ hnext]
    constructor
    · rintro ⟨j, hj, m, hm, hrest⟩
      rw [Nat.testBit_or, Bool.or_eq_true] at hj
      rcases hj with hj | hj
      · exact ⟨j, hj, m, Nat.le_succ_of_le hm, hrest⟩
      · obtain ⟨i, hi, hfirst⟩ := (h p hp j).mp hj
        exact ⟨i, hi, m + 1, Nat.succ_le_succ hm, j, hfirst, hrest⟩
    · rintro ⟨i, hi, m, hm, hrounds⟩
      cases m with
      | zero =>
        refine ⟨i, ?_, 0, Nat.zero_le n, hrounds⟩
        rw [Nat.testBit_or, hi, Bool.true_or]
      | succ m =>
        obtain ⟨j, hfirst, hrest⟩ := hrounds
        refine ⟨j, ?_, m, Nat.le_of_succ_le_succ hm, hrest⟩
        rw [Nat.testBit_or, (h p hp j).mpr ⟨i, hi, hfirst⟩, Bool.or_true]

/-- Some rounds that are due, and then some more. -/
theorem Follows.times (h : Follows t (Spans r t) f) (least extra : Nat) :
    Follows t (fun i k => ∃ n, least ≤ n ∧ n ≤ least + extra ∧ Rounds r t n i k)
      fun p => Regex.atMost f extra (Regex.exactly f least p) := by
  intro p hp k
  have hdue := h.exactly least p hp
  have hwithin : Within t (Regex.exactly f least p) := by
    intro j hj
    obtain ⟨i, -, hrounds⟩ := (hdue j).mp hj
    exact hrounds.bounds.2
  rw [h.atMost extra _ hwithin k]
  constructor
  · rintro ⟨j, hj, m, hm, hmore⟩
    obtain ⟨i, hi, hrounds⟩ := (hdue j).mp hj
    exact ⟨i, hi, least + m, by omega, by omega, rounds_add_iff.mpr ⟨j, hrounds, hmore⟩⟩
  · rintro ⟨i, hi, n, hleast, hn, hrounds⟩
    obtain ⟨m, rfl⟩ := Nat.exists_eq_add_of_le hleast
    obtain ⟨j, hrounds, hmore⟩ := rounds_add_iff.mp hrounds
    exact ⟨j, (hdue j).mpr ⟨i, hi, hrounds⟩, m, by omega, hmore⟩

end

/-! ## The parts of an expression -/

theorem follows_empty : Follows t (Spans .empty t) (advance t .empty).apply := by
  intro p hp k
  constructor
  · intro hk
    exact ⟨k, hk, .empty (hp k hk)⟩
  · rintro ⟨i, hi, hspans⟩
    cases hspans with
    | empty _ => exact hi

theorem follows_set (s : Charset) : Follows t (Spans (.set s) t) (advance t (.set s)).apply := by
  intro p hp k
  show ((p &&& Places.before s.contains t) <<< 1).testBit k = true ↔ _
  rw [Nat.testBit_shiftLeft, Bool.and_eq_true, decide_eq_true_iff, Nat.testBit_and,
    Bool.and_eq_true, testBit_before_iff]
  constructor
  · rintro ⟨hk, hi, c, hget, hc⟩
    obtain ⟨i, rfl⟩ : ∃ i, k = i + 1 := ⟨k - 1, by omega⟩
    exact ⟨i, hi, .set hget hc⟩
  · rintro ⟨i, hi, hspans⟩
    cases hspans with
    | set hget hc => exact ⟨Nat.succ_pos i, hi, _, hget, hc⟩

theorem follows_look (l : Look) : Follows t (Spans (.look l) t) (advance t (.look l)).apply := by
  intro p hp k
  have hneighbour : neighbour? none t k = before? t k := by cases k <;> rfl
  show (p &&& Places.looking l.holds none t).testBit k = true ↔ _
  rw [Nat.testBit_and, Bool.and_eq_true, testBit_looking_iff, hneighbour]
  constructor
  · rintro ⟨hk, hle, hl⟩
    exact ⟨k, hk, .look hle hl⟩
  · rintro ⟨i, hi, hspans⟩
    cases hspans with
    | look hle hl => exact ⟨hi, hle, hl⟩

section

variable {a b : Regex}

theorem Follows.cat (ha : Follows t (Spans a t) (advance t a).apply)
    (hb : Follows t (Spans b t) (advance t b).apply) :
    Follows t (Spans (.cat a b) t) (advance t (.cat a b)).apply := by
  intro p hp k
  show ((advance t b).apply ((advance t a).apply p)).testBit k = true ↔ _
  rw [hb _ (ha.within hp) k]
  constructor
  · rintro ⟨j, hj, hsecond⟩
    obtain ⟨i, hi, hfirst⟩ := (ha p hp j).mp hj
    exact ⟨i, hi, .cat hfirst hsecond⟩
  · rintro ⟨i, hi, hspans⟩
    cases hspans with
    | cat hfirst hsecond => exact ⟨_, (ha p hp _).mpr ⟨i, hi, hfirst⟩, hsecond⟩

theorem Follows.alt (ha : Follows t (Spans a t) (advance t a).apply)
    (hb : Follows t (Spans b t) (advance t b).apply) :
    Follows t (Spans (.alt a b) t) (advance t (.alt a b)).apply := by
  intro p hp k
  show ((advance t a).apply p ||| (advance t b).apply p).testBit k = true ↔ _
  rw [Nat.testBit_or, Bool.or_eq_true, ha p hp k, hb p hp k]
  constructor
  · rintro (⟨i, hi, hspans⟩ | ⟨i, hi, hspans⟩)
    · exact ⟨i, hi, .altLeft hspans⟩
    · exact ⟨i, hi, .altRight hspans⟩
  · rintro ⟨i, hi, hspans⟩
    cases hspans with
    | altLeft hspans => exact .inl ⟨i, hi, hspans⟩
    | altRight hspans => exact .inr ⟨i, hi, hspans⟩

end

theorem Follows.advance_times (h : Follows t (Spans r t) (advance t r).apply) {greedy : Bool}
    {least : Nat} {most : Option Nat} (hmost : ∀ bound ∈ most, least ≤ bound) :
    Follows t (Spans (.times greedy r least most) t)
      (advance t (.times greedy r least most)).apply := by
  intro p hp k
  cases most with
  | none =>
    refine (h.times least (t.length + 1) p hp k).trans
      (exists_congr fun i => and_congr_right fun _ => ?_)
    rw [spans_times_iff]
    constructor
    · rintro ⟨n, hleast, -, hrounds⟩
      exact ⟨n, hleast, by simp, hrounds⟩
    · rintro ⟨n, hleast, -, hrounds⟩
      -- the rounds behind those that are due are shortened
      obtain ⟨extra, rfl⟩ := Nat.exists_eq_add_of_le hleast
      obtain ⟨j, hdue, hmore⟩ := rounds_add_iff.mp hrounds
      obtain ⟨m, hm, hmore⟩ := hmore.shorten
      have hend := hmore.bounds.2
      exact ⟨least + m, by omega, by omega, rounds_add_iff.mpr ⟨j, hdue, hmore⟩⟩
  | some most =>
    have hle : least ≤ most := hmost most rfl
    refine (h.times least (most - least) p hp k).trans
      (exists_congr fun i => and_congr_right fun _ => ?_)
    rw [spans_times_iff, Nat.add_sub_cancel' hle]
    simp

theorem Follows.group {capturing : Bool} (h : Follows t (Spans r t) (advance t r).apply) :
    Follows t (Spans (.group capturing r) t) (advance t (.group capturing r)).apply := by
  intro p hp k
  refine (h p hp k).trans (exists_congr fun i => and_congr_right fun _ => ?_)
  exact spans_group_iff.symm

/-- **`IsBounded r`** — no repetition in the expression asks for more rounds than it allows. -/
def IsBounded : Regex → Prop
  | empty | set _ | look _ => True
  | cat a b | alt a b => IsBounded a ∧ IsBounded b
  | times _ r least most => IsBounded r ∧ ∀ bound ∈ most, least ≤ bound
  | group _ r => IsBounded r

/-- **What an expression does to a set of places** is what its spans say. -/
theorem testBit_advance_iff (hr : IsBounded r) : Follows t (Spans r t) (advance t r).apply := by
  induction r with
  | empty => exact follows_empty
  | set s => exact follows_set s
  | look l => exact follows_look l
  | cat a b iha ihb => exact (iha hr.1).cat (ihb hr.2)
  | alt a b iha ihb => exact (iha hr.1).alt (ihb hr.2)
  | times greedy r least most ih => exact (ih hr.1).advance_times hr.2
  | group capturing r ih => exact (ih hr).group

/-! ## Matches -/

/-- **The search finds a match exactly where there is one.** -/
theorem isMatch_iff (hr : IsBounded r) : isMatch r t = true ↔ Matches r t := by
  have hall : Within t (Places.upToLength t.length) := fun i => testBit_upToLength_iff.mp
  have hrun := testBit_advance_iff hr (Places.upToLength t.length) hall
  unfold isMatch
  rw [bne_iff_ne]
  constructor
  · intro hne
    obtain ⟨k, hk⟩ := Nat.exists_testBit_of_ne_zero hne
    obtain ⟨i, -, hspans⟩ := (hrun k).mp hk
    exact ⟨i, k, hspans⟩
  · rintro ⟨i, k, hspans⟩ hzero
    have hi : i ≤ t.length := Nat.le_trans hspans.bounds.1 hspans.bounds.2
    have hk := (hrun k).mpr ⟨i, testBit_upToLength_iff.mpr hi, hspans⟩
    rw [hzero, Nat.zero_testBit] at hk
    cases hk

/-! ## Size -/

theorem compile_eq_ok_iff : compile t = .ok r ↔ read t = .ok r ∧ copies r ≤ copyLimit := by
  unfold compile
  rw [bind_eq_ok_iff]
  constructor
  · rintro ⟨w, hread, h⟩
    split at h
    · cases h
      exact ⟨hread, by assumption⟩
    · cases h
  · rintro ⟨hread, hcopies⟩
    exact ⟨r, hread, if_pos hcopies⟩

end UriRouting.Regex
