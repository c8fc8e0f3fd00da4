/-
# UriRouting.Proofs.Regex.Moves — the reader of expressions, move by move

A step of the reader does two things: it reads what to do next, for which it needs only the flags and
the names in use, and it does it to the state, for which it needs no text.  `Move` is what there is to
do, `moveOf` reads it and `Move.apply` does it (`readerStep_eq`).  So a statement about what is read is
proved for the moves, and a statement about the text for `moveOf`.

The first such statement is that the reader accepts no repetition whose bounds contradict each other
(`isBounded_of_read`).
-/
import UriRouting.Proofs.Regex.Combinators
import UriRouting.Proofs.Regex.Search

namespace UriRouting.Regex

/-- **`Move`** — what a step of the reader can do. -/
inductive Move
  | push (r : Regex)
  /-- sets the flags for the rest of the group -/
  | switch (f : Flags)
  | enter (capturing : Bool) (f : Flags) (names : List Text)
  | leave
  | branch
  | again (b : Bounds)

/-- **`Move.apply m st`** — does the move. -/
def Move.apply (m : Move) (st : ReaderState) : Except RegexError ReaderState :=
  match m with
  | push r => .ok (st.push r)
  | switch f => .ok { st.push .empty with flags := f }
  | enter capturing f names => .ok { st.openGroup capturing f with names := names }
  | leave => st.closeGroup
  | branch => .ok st.nextBranch
  | again b => st.repeated b.greedy b.least b.most

/-- Does a move that has been read. -/
def thenApply (st : ReaderState) (read : Except RegexError (Move × Text)) :
    Except RegexError (ReaderState × Text) :=
  read >>= fun (m, r) => m.apply st >>= fun st => .ok (st, r)

variable {st st' : ReaderState} {c : Char} {f : Flags} {names : List Text} {s t : Text}

/-- Flags, for the rest of the group or for a group of their own. -/
def flagMove (f : Flags) (names : List Text) : Reading Move :=
  andThen (flagLetters f true []) fun x =>
    if x.2.2 = ')' then
      if x.2.1 = [] then refuse .nothingToRepeat else give (.switch x.1)
    else give (.enter false x.1 names)

theorem flagMove_eq (st : ReaderState) (r : Text) :
    (flagLetters st.flags true [] r >>= fun ((f, seen, last), r) =>
      if last = ')' then
        if seen = [] then .error .nothingToRepeat
        else .ok ({ st.push .empty with flags := f }, r)
      else .ok (st.openGroup false f, r)) = thenApply st (flagMove st.flags st.names r) := by
  unfold flagMove andThen
  cases flagLetters st.flags true [] r with
  | error e => rfl
  | ok x =>
    obtain ⟨⟨f, seen, last⟩, rest⟩ := x
    show (if last = ')' then _ else _) =
      thenApply st ((if last = ')' then _ else _ : Reading Move) rest)
    split
    · split <;> rfl
    · rfl

/-- A repetition whose bounds are known, with the mark behind it. -/
def boundedReading (f : Flags) (least : Nat) (most : Option Nat) : Reading Bounds :=
  ifNext (· == '?') (fun _ => give ⟨least, most, f.swapGreed⟩) (give ⟨least, most, !f.swapGreed⟩)

theorem greed_of_ne {c : Char} (hc : c ≠ '?') (f : Flags) (r : Text) :
    greed f (c :: r) = (!f.swapGreed, c :: r) := by
  unfold greed
  split
  case h_1 h => exact absurd (List.cons.inj h).1 hc
  case h_2 => rfl

theorem boundedReading_eq (f : Flags) (least : Nat) (most : Option Nat) (s : Text) :
    boundedReading f least most s = .ok (bounded f least most s) := by
  cases s with
  | nil => rfl
  | cons c r =>
    by_cases hc : c = '?'
    · subst hc
      rfl
    · rw [boundedReading, ifNext_cons_of_ne hc, bounded, greed_of_ne hc]
      rfl

/-- A move that repeats the last item. -/
def againMove (f : Flags) (least : Nat) (most : Option Nat) : Reading Move :=
  andThen (boundedReading f least most) fun b => give (.again b)

theorem repeatedBy_eq (st : ReaderState) (least : Nat) (most : Option Nat) (r : Text) :
    st.repeatedBy (bounded st.flags least most r) =
      thenApply st (againMove st.flags least most r) := by
  rw [againMove, andThen, boundedReading_eq]
  rfl

/-! ## Repetitions that can be made -/

theorem isBounded_catAll {rs : List Regex} (h : ∀ r ∈ rs, IsBounded r) :
    IsBounded (catAll rs) := by
  induction rs with
  | nil => trivial
  | cons r rs ih =>
    have hr := h r List.mem_cons_self
    have hrs := ih fun s hs => h s (List.mem_cons_of_mem r hs)
    cases rs with
    | nil => exact hr
    | cons s rs => exact ⟨hr, hrs⟩

theorem isBounded_altAll {rs : List Regex} (h : ∀ r ∈ rs, IsBounded r) :
    IsBounded (altAll rs) := by
  induction rs with
  | nil => trivial
  | cons r rs ih =>
    have hr := h r List.mem_cons_self
    have hrs := ih fun s hs => h s (List.mem_cons_of_mem r hs)
    cases rs with
    | nil => exact hr
    | cons s rs => exact ⟨hr, hrs⟩

theorem isBounded_folded {items branches : List Regex} (hitems : ∀ r ∈ items, IsBounded r)
    (hbranches : ∀ r ∈ branches, IsBounded r) :
    IsBounded (ReaderState.folded items branches) := by
  apply isBounded_altAll
  intro r hr
  rcases List.mem_cons.mp (List.mem_reverse.mp hr) with rfl | hr
  · exact isBounded_catAll fun s hs => hitems s (List.mem_reverse.mp hs)
  · exact hbranches r hr

/-- A move repeats something only within bounds that can be kept. -/
def Move.IsBounded : Move → Prop
  | push r => Regex.IsBounded r
  | again b => ∀ bound ∈ b.most, b.least ≤ bound
  | _ => True

/-- **`ReaderState.IsBounded st`** — everything that has been read is bounded. -/
structure ReaderState.IsBounded (st : ReaderState) : Prop where
  items : ∀ r ∈ st.items, Regex.IsBounded r
  branches : ∀ r ∈ st.branches, Regex.IsBounded r
  frames : ∀ frame ∈ st.frames,
    (∀ r ∈ frame.items, Regex.IsBounded r) ∧ ∀ r ∈ frame.branches, Regex.IsBounded r

theorem bounds_le {b : Bounds} (h : bounds f s = .ok (b, t)) :
    ∀ bound ∈ b.most, b.least ≤ bound := by
  unfold bounds at h
  split at h
  · cases h
  · split at h
    · cases h
      intro bound hb
      cases hb
      exact Nat.le_refl _
    · split at h
      · cases h
        simp
      · split at h
        · split at h
          case isTrue hle =>
            cases h
            intro bound hb
            cases hb
            exact hle
          case isFalse => cases h
        · cases h
    · cases h

theorem isBounded_bounds : Gives (fun b => ∀ bound ∈ b.most, b.least ≤ bound) (bounds f) :=
  ⟨fun h => bounds_le h⟩

theorem isBounded_dot {d : Regex} (h : dot f = .ok d) : Regex.IsBounded d := by
  unfold dot at h
  split at h
  · cases h
  · split at h
    · cases h
      trivial
    · split at h <;> cases h <;> trivial

/-- A move leaves everything bounded. -/
theorem Move.IsBounded.apply {m : Move} (hm : m.IsBounded) (hst : st.IsBounded)
    (h : m.apply st = .ok st') : st'.IsBounded := by
  have hpush : ∀ {r}, Regex.IsBounded r → ∀ s ∈ r :: st.items, Regex.IsBounded s := by
    intro r hr s hs
    rcases List.mem_cons.mp hs with rfl | hs
    · exact hr
    · exact hst.items s hs
  cases m with
  | push r =>
    cases h
    exact ⟨hpush hm, hst.branches, hst.frames⟩
  | switch f =>
    cases h
    exact ⟨hpush trivial, hst.branches, hst.frames⟩
  | enter capturing f names =>
    cases h
    refine ⟨by simp [ReaderState.openGroup], by simp [ReaderState.openGroup], ?_⟩
    intro frame hframe
    rcases List.mem_cons.mp hframe with rfl | hframe
    · exact ⟨hst.items, hst.branches⟩
    · exact hst.frames frame hframe
  | leave =>
    simp only [Move.apply, ReaderState.closeGroup] at h
    split at h
    · cases h
    case h_2 frame frames hframes =>
      cases h
      have hframe := hst.frames frame (by rw [hframes]; exact List.mem_cons_self)
      refine ⟨?_, hframe.2, ?_⟩
      · intro r hr
        rcases List.mem_cons.mp hr with rfl | hr
        · exact isBounded_folded hst.items hst.branches
        · exact hframe.1 r hr
      · intro other hother
        exact hst.frames other (by rw [hframes]; exact List.mem_cons_of_mem frame hother)
  | branch =>
    cases h
    refine ⟨by simp [ReaderState.nextBranch], ?_, hst.frames⟩
    intro r hr
    rcases List.mem_cons.mp hr with rfl | hr
    · exact isBounded_catAll fun s hs => hst.items s (List.mem_reverse.mp hs)
    · exact hst.branches r hr
  | again b =>
    simp only [Move.apply, ReaderState.repeated] at h
    split at h
    · cases h
    · cases h
    case h_3 r items _ hitems =>
      cases h
      have hall : ∀ s ∈ r :: items, Regex.IsBounded s := hitems ▸ hst.items
      refine ⟨?_, hst.branches, hst.frames⟩
      intro s hs
      rcases List.mem_cons.mp hs with rfl | hs
      · exact ⟨hall r List.mem_cons_self, hm⟩
      · exact hall s (List.mem_cons_of_mem r hs)

/-! ## Reading a move -/

variable [Unicode]

/-- A group with a name. -/
def namedMove (f : Flags) (names : List Text) : Reading Move :=
  andThen groupName fun n =>
    if names.contains n then refuse .repeatedGroupName else give (.enter true f (n :: names))

/-- What a question mark behind the opening parenthesis can mean. -/
def queriedMove (f : Flags) (names : List Text) : Reading Move :=
  let look : Char → Reading Move := fun _ => refuse .lookAround
  ifNext (· == '=') look <| ifNext (· == '!') look <|
    ifNext (· == '<') (fun _ => ifNext (· == '=') look <| ifNext (· == '!') look <|
      namedMove f names) <|
    ifNext (· == 'P') (fun _ => ifNext (· == '<') (fun _ => namedMove f names)
      (refuse .badFlags)) <|
    flagMove f names

/-- What an opening parenthesis does. -/
def groupMove (f : Flags) (names : List Text) : Reading Move :=
  skipping f (ifNext (· == '?') (fun _ => queriedMove f names) (give (.enter true f names)))

/-- **`moveOf f names c`** — the move that begins with `c`, and the text behind it. -/
def moveOf (f : Flags) (names : List Text) (c : Char) : Reading Move :=
  match c with
  | '(' => groupMove f names
  | ')' => give .leave
  | '|' => give .branch
  | '[' => andThen (ClassReader.read f) fun s => give (.push (.set s))
  | '?' => againMove f 0 (some 1)
  | '*' => againMove f 0 none
  | '+' => againMove f 1 none
  | '{' => andThen (bounds f) fun b => give (.again b)
  | '\\' => andThen (escape f) fun a => give (.push (ofAtom f a))
  | '.' => checking (dot f) fun d => give (.push d)
  | '^' => give (.push (.look (if f.multiLine then .lineStart f.crlf else .textStart)))
  | '$' => give (.push (.look (if f.multiLine then .lineEnd f.crlf else .textEnd)))
  | c => give (.push (ofAtom f (.char c)))

theorem parenthesis_named_eq (st : ReaderState) (r : Text) :
    parenthesis.named st r = thenApply st (namedMove st.flags st.names r) := by
  unfold parenthesis.named namedMove andThen
  cases groupName r with
  | error e => rfl
  | ok x =>
    show (if x.1 ∈ st.names then _ else _) =
      thenApply st ((if st.names.contains x.1 then _ else _ : Reading Move) x.2)
    by_cases hused : x.1 ∈ st.names
    · rw [if_pos hused, if_pos (List.contains_iff_mem.mpr hused)]
      rfl
    · rw [if_neg hused, if_neg (mt List.contains_iff_mem.mp hused)]
      rfl

/-- An opening parenthesis reads and does its move. -/
theorem parenthesis_eq (st : ReaderState) (s : Text) :
    parenthesis st s = thenApply st (groupMove st.flags st.names s) := by
  unfold parenthesis groupMove skipping
  generalize st.flags.skip s = u
  split
  case h_1 | h_2 | h_3 | h_4 => rfl
  case h_5 r => exact parenthesis_named_eq st r
  case h_6 r hequals hbang =>
    show _ = thenApply st (ifNext (· == '=') _ (ifNext (· == '!') _ (namedMove _ _)) r)
    rw [ifNext_eq_of_not_starts hequals, ifNext_eq_of_not_starts hbang]
    exact parenthesis_named_eq st r
  case h_7 r hequals hbang _ _ hname hless =>
    show _ = thenApply st (queriedMove _ _ r)
    unfold queriedMove
    rw [ifNext_eq_of_not_starts hequals, ifNext_eq_of_not_starts hbang,
      ifNext_eq_of_not_starts hless]
    have hflags : ifNext (· == 'P') (fun _ => ifNext (· == '<')
        (fun _ => namedMove st.flags st.names) (refuse .badFlags))
        (flagMove st.flags st.names) r = flagMove st.flags st.names r := by
      cases r with
      | nil => rfl
      | cons c r =>
        by_cases hc : c = 'P'
        · -- no flag is written so
          subst hc
          show ifNext (· == '<') _ (refuse .badFlags) r = _
          rw [ifNext_eq_of_not_starts fun rest heq => hname rest (by rw [heq])]
          rfl
        · exact ifNext_cons_of_ne hc r
    rw [hflags]
    exact flagMove_eq st r
  case h_8 hquestion =>
    rw [ifNext_eq_of_not_starts hquestion]
    rfl

/-- **A step of the reader** reads a move and does it. -/
theorem readerStep_eq (st : ReaderState) (c : Char) (r : Text) :
    readerStep st c r = thenApply st (moveOf st.flags st.names c r) := by
  unfold readerStep moveOf
  split
  case h_1 => exact parenthesis_eq st r
  case h_4 =>
    show _ = thenApply st (ClassReader.read st.flags r >>= _)
    cases ClassReader.read st.flags r <;> rfl
  case h_5 | h_6 | h_7 => exact repeatedBy_eq st _ _ r
  case h_8 =>
    show _ = thenApply st (bounds st.flags r >>= _)
    cases bounds st.flags r <;> rfl
  case h_9 =>
    show _ = thenApply st (escape st.flags r >>= _)
    cases escape st.flags r <;> rfl
  case h_10 =>
    show _ = thenApply st (dot st.flags >>= _)
    cases dot st.flags <;> rfl
  case h_13 =>
    -- `c` is none of the characters that are named
    try simp only [*]
    rfl
  all_goals rfl

/-- An opening parenthesis enters a group or sets flags. -/
theorem gives_groupMove {P : Move → Prop}
    (henter : ∀ capturing f names, P (.enter capturing f names))
    (hswitch : ∀ f, P (.switch f)) : Gives P (groupMove f names) := by
  have hlook : ∀ _ : Char, Gives P (refuse .lookAround) := fun _ => .refuse _
  have hnamed : Gives P (namedMove f names) := by
    apply Gives.anyThen
    intro n
    split
    · exact .refuse _
    · exact .give (henter _ _ _)
  have hflags : Gives P (flagMove f names) := by
    apply Gives.anyThen
    intro x
    split
    · split
      · exact .refuse _
      · exact .give (hswitch _)
    · exact .give (henter _ _ _)
  apply Gives.skipping
  apply Gives.ifNext _ (.give (henter _ _ _))
  intro _
  apply Gives.ifNext hlook
  apply Gives.ifNext hlook
  apply Gives.ifNext (fun _ => .ifNext hlook (.ifNext hlook hnamed))
  exact .ifNext (fun _ => .ifNext (fun _ => hnamed) (.refuse _)) hflags

/-- **A closing parenthesis** is the only move that leaves a group. -/
theorem eq_of_moveOf_leave (h : moveOf f names c s = .ok (.leave, t)) : c = ')' ∧ t = s := by
  have hnot : ∀ {g : Reading Move}, Gives (· ≠ .leave) g → g s ≠ .ok (.leave, t) :=
    fun hg hok => hg.holds hok rfl
  unfold moveOf at h
  split at h
  case h_1 => exact absurd h (hnot (gives_groupMove (by simp) (by simp)))
  case h_2 =>
    cases h
    exact ⟨rfl, rfl⟩
  case h_4 | h_5 | h_6 | h_7 | h_8 | h_9 =>
    exact absurd h (hnot (.anyThen fun _ => .give (by simp)))
  case h_10 => exact absurd h (hnot (.checking fun _ _ => .give (by simp)))
  all_goals cases h

/-- A move that a step makes. -/
theorem readerStep_eq_ok_iff {r : Text} :
    readerStep st c s = .ok (st', r) ↔
      ∃ m, moveOf st.flags st.names c s = .ok (m, r) ∧ m.apply st = .ok st' := by
  rw [readerStep_eq, thenApply, bind_eq_ok_iff]
  constructor
  · rintro ⟨⟨m, r'⟩, hm, hrest⟩
    obtain ⟨next, happly, heq⟩ := bind_eq_ok_iff.mp hrest
    cases heq
    exact ⟨m, hm, happly⟩
  · rintro ⟨m, hm, happly⟩
    exact ⟨(m, r), hm, bind_eq_ok_iff.mpr ⟨st', happly, rfl⟩⟩

/-- **The run of the reader** ends where nothing but what verbose mode skips is left. -/
theorem readerRun_of_skip_eq_nil {fuel : Nat} (h : st.flags.skip s = []) :
    readerRun fuel st s = .ok st := by
  unfold readerRun
  rw [h]

/-- Otherwise it makes a step and goes on. -/
theorem readerRun_of_skip_eq_cons {fuel : Nat} {r : Text} (h : st.flags.skip s = c :: r) :
    readerRun (fuel + 1) st s = readerStep st c r >>= fun (st, r) => readerRun fuel st r := by
  rw [readerRun, h]

/-! ## What is read is bounded -/

theorem isBounded_moveOf (c : Char) : Gives Move.IsBounded (moveOf f names c) := by
  have hagain : ∀ {least : Nat} {most : Option Nat}, (∀ bound ∈ most, least ≤ bound) →
      Gives Move.IsBounded (againMove f least most) := by
    intro least most hle
    have hbounded : Gives (fun b => ∀ bound ∈ b.most, b.least ≤ bound)
        (boundedReading f least most) := .ifNext (fun _ => .give hle) (.give hle)
    exact hbounded.andThen fun b hb => .give hb
  unfold moveOf
  split
  case h_1 => exact gives_groupMove (fun _ _ _ => trivial) fun _ => trivial
  case h_4 => exact .anyThen fun s => .give trivial
  case h_5 | h_6 | h_7 => exact hagain (by simp)
  case h_8 => exact isBounded_bounds.andThen fun b hb => .give hb
  case h_9 =>
    apply Gives.anyThen
    intro a
    cases a <;> exact .give trivial
  case h_10 => exact .checking fun d hd => .give (isBounded_dot hd)
  all_goals exact .give trivial

theorem isBounded_readerRun {fuel : Nat} (hst : st.IsBounded)
    (h : readerRun fuel st s = .ok st') : st'.IsBounded := by
  induction fuel generalizing st s with
  | zero =>
    unfold readerRun at h
    split at h <;> cases h <;> exact hst
  | succ fuel ih =>
    cases hskip : st.flags.skip s with
    | nil =>
      rw [readerRun_of_skip_eq_nil hskip] at h
      cases h
      exact hst
    | cons c r =>
      rw [readerRun_of_skip_eq_cons hskip] at h
      obtain ⟨⟨next, rest⟩, hstep, hrun⟩ := bind_eq_ok_iff.mp h
      obtain ⟨m, hm, happly⟩ := readerStep_eq_ok_iff.mp hstep
      exact ih (((isBounded_moveOf c).holds hm).apply hst happly) hrun

/-- **What the reader reads is bounded.** -/
theorem isBounded_of_read {r : Regex} (h : read t = .ok r) : IsBounded r := by
  obtain ⟨st, hrun, h⟩ := bind_eq_ok_iff.mp h
  obtain ⟨folded, hclose, h⟩ := bind_eq_ok_iff.mp h
  have hstart : ReaderState.start.IsBounded := by
    constructor <;> simp [ReaderState.start]
  have hst := isBounded_readerRun hstart hrun
  have hfolded : IsBounded folded := by
    unfold ReaderState.close at hclose
    split at hclose
    · cases hclose
      exact isBounded_folded hst.items hst.branches
    · cases hclose
  split at h
  · cases h
    exact hfolded
  · cases h

end UriRouting.Regex
