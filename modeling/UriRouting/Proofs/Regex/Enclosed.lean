/-
# UriRouting.Proofs.Regex.Enclosed — expressions that are put into a group

A text that is to match as a whole is put into a group between a start and an end of text, and read
together with them.  That is not always the expression of the text in a group: a closing parenthesis
in the text may close the group too early, and the one behind it may be taken for something else.  The
moves of the reader are local, so the second makes the whole a text with an open group, which is
refused, and the first is the only way in which a text can be read so that is none by itself
(`read_enclosed`).
-/
import UriRouting.Proofs.Regex.ClassLocality

namespace UriRouting.Regex

variable {α : Type} {f : Flags} {names : List Text} {s t : Text}

/-! ## Flags -/

theorem flagLetters_suffix {on : Bool} {seen : List Char} {x : Flags × List Char × Char}
    (h : flagLetters f on seen s = .ok (x, t)) : t <:+ s := by
  induction s generalizing f on seen with
  | nil => cases h
  | cons c r ih =>
    unfold flagLetters at h
    split at h
    · split at h
      · cases h
      · cases h
        exact List.suffix_cons c t
    · split at h
      · cases h
      · split at h
        · exact (ih h).trans (List.suffix_cons c r)
        · split at h
          · exact (ih h).trans (List.suffix_cons c r)
          · cases h

theorem local_flagLetters (f : Flags) (on : Bool) (seen : List Char) :
    Local (flagLetters f on seen) where
  suffix := flagLetters_suffix
  cut {s x t} h := by
    induction s generalizing f on seen with
    | nil =>
      -- the closing parenthesis ends the flags
      left
      change (if ')' = ':' ∨ ')' = ')' then _ else _) = _ at h
      rw [if_pos (.inr rfl)] at h
      split at h
      · cases h
      · cases h
        exact List.suffix_refl _
    | cons c r ih =>
      rw [List.cons_append, flagLetters] at h
      rw [flagLetters]
      split at h
      case isTrue hend =>
        rw [if_pos hend]
        split at h
        · cases h
        case isFalse hminus =>
          rw [if_neg hminus]
          cases h
          exact .inr (.inr ⟨r, rfl, rfl⟩)
      case isFalse hend =>
        rw [if_neg hend]
        split at h
        · cases h
        case isFalse hseen =>
          rw [if_neg hseen]
          split at h
          case isTrue hminus =>
            rw [if_pos hminus]
            exact ih _ _ _ h
          case isFalse hminus =>
            rw [if_neg hminus]
            cases hswitch : f.switch on c with
            | none =>
              rw [hswitch] at h
              cases h
            | some f' =>
              rw [hswitch] at h
              exact ih _ _ _ h

theorem local_flagMove (f : Flags) (names : List Text) : Local (flagMove f names) := by
  apply Local.andThen (local_flagLetters f true [])
  intro x
  split
  · split
    · exact .refuse _
    · exact .give _
  · exact .give _

/-! ## Repetition -/

theorem dropBlank_suffix (s : Text) : Text.dropBlank s <:+ s := List.dropWhile_suffix _

theorem dropBlank_append_closing (s : Text) :
    Text.dropBlank (s ++ closing) = Text.dropBlank s ++ closing := by
  unfold Text.dropBlank
  rw [List.dropWhile_append]
  split
  case isTrue hnil =>
    rw [List.isEmpty_iff.mp hnil]
    rfl
  case isFalse => rfl

theorem digits_eq (f : Flags) (n : Nat) (s : Text) :
    runReading f Char.isDigit n s = .ok (count.run f n s) := by
  induction n generalizing s with
  | zero => rfl
  | succ n ih =>
    cases s with
    | nil => rfl
    | cons c r =>
      simp only [runReading, ifNext, count.run]
      split
      · rw [andThen, skipping, ih]
        rfl
      · rfl

/-- The count behind digits that were read. -/
def countOf (f : Flags) (ds : Text) : Reading Nat :=
  if ds = [] then refuse .badRepetition
  else if Text.Decimal.value 0 ds < 0x100000000 then
    fun s => skipping f (give (Text.Decimal.value 0 ds)) (Text.dropBlank s)
  else refuse .badRepetition

/-- The reader of counts, as one that may fail. -/
def countReading (f : Flags) : Reading Nat := fun s =>
  andThen (fun s => runReading f Char.isDigit (s.length + 1) s) (countOf f) (Text.dropBlank s)

theorem countReading_eq (f : Flags) (s : Text) :
    countReading f s = match count f s with
      | some x => .ok x
      | none => .error .badRepetition := by
  let read := count.run f ((Text.dropBlank s).length + 1) (Text.dropBlank s)
  have hcount : count f s = if read.1 = [] then none
      else if Text.Decimal.value 0 read.1 < 0x100000000 then
        some (Text.Decimal.value 0 read.1, f.skip (Text.dropBlank read.2))
      else none := rfl
  rw [hcount, countReading, andThen, digits_eq]
  show countOf f read.1 read.2 = _
  unfold countOf
  split
  · rfl
  · split <;> rfl

theorem local_countOf (f : Flags) (ds : Text) : Local (countOf f ds) := by
  unfold countOf
  split
  · exact .refuse _
  · split
    · exact .through (.skipping f (.give _)) dropBlank_suffix dropBlank_append_closing
    · exact .refuse _

theorem local_countReading (f : Flags) : Local (countReading f) := by
  apply LocalBut.through _ dropBlank_suffix dropBlank_append_closing
  exact Local.andThen (local_run (by decide) f) (local_countOf f)

/-- What may stand behind the closing brace. -/
def boundsEnd (f : Flags) (least : Nat) (most : Option Nat) : Reading Bounds :=
  skipping f (boundedReading f least most)

theorem boundsEnd_eq (f : Flags) (least : Nat) (most : Option Nat) (r : Text) :
    boundsEnd f least most r = .ok (bounded f least most (f.skip r)) :=
  boundedReading_eq f least most (f.skip r)

/-- The upper bound and the closing brace. -/
def upperBound (f : Flags) (least : Nat) : Reading Bounds :=
  skipping f (ifNext (· == '}') (fun _ => boundsEnd f least none)
    (andThen (countReading f) fun most => ifNext (· == '}')
      (fun _ => if least ≤ most then boundsEnd f least (some most) else refuse .badRepetition)
      (refuse .badRepetition)))

theorem local_boundedReading (f : Flags) (least : Nat) (most : Option Nat) :
    Local (boundedReading f least most) := .ifNext rfl (fun _ => .give _) (.give _)

theorem local_boundsEnd (f : Flags) (least : Nat) (most : Option Nat) :
    Local (boundsEnd f least most) := .skipping f (local_boundedReading f least most)

theorem local_upperBound (f : Flags) (least : Nat) : Local (upperBound f least) := by
  apply LocalBut.skipping
  apply LocalBut.ifNext rfl (fun _ => local_boundsEnd f _ _)
  apply Local.andThen (local_countReading f)
  intro most
  apply LocalBut.ifNext rfl _ (.refuse _)
  intro _
  split
  · exact local_boundsEnd f _ _
  · exact .refuse _

/-- The upper bound, behind what verbose mode skips. -/
theorem upperBound_eq_count (f : Flags) (least : Nat) (u : Text) :
    (andThen (countReading f) fun most => ifNext (· == '}')
      (fun _ => if least ≤ most then boundsEnd f least (some most) else refuse .badRepetition)
      (refuse .badRepetition)) u =
      match count f u with
      | some (most, '}' :: r) =>
        if least ≤ most then .ok (bounded f least (some most) (f.skip r))
        else .error .badRepetition
      | _ => .error .badRepetition := by
  rw [andThen, countReading_eq]
  cases count f u with
  | none => rfl
  | some x =>
    obtain ⟨most, rest⟩ := x
    show ifNext (· == '}') _ (refuse .badRepetition) rest = _
    cases rest with
    | nil => rfl
    | cons c r =>
      by_cases hc : c = '}'
      · subst hc
        show (if least ≤ most then _ else _ : Reading Bounds) r = if least ≤ most then _ else _
        split
        · exact boundsEnd_eq f least (some most) r
        · rfl
      · rw [ifNext_of_neg (by simpa using hc)]
        split
        case h_1 h =>
          cases h
          exact absurd rfl hc
        case h_2 => rfl

theorem upperBound_eq (f : Flags) (least : Nat) (r : Text) :
    upperBound f least r = match f.skip r with
      | '}' :: r => .ok (bounded f least none (f.skip r))
      | r =>
        match count f r with
        | some (most, '}' :: r) =>
          if least ≤ most then .ok (bounded f least (some most) (f.skip r))
          else .error .badRepetition
        | _ => .error .badRepetition := by
  unfold upperBound skipping
  cases f.skip r with
  | nil => exact upperBound_eq_count f least []
  | cons c u =>
    by_cases hc : c = '}'
    · subst hc
      exact boundsEnd_eq f least none u
    · rw [ifNext_of_neg (by simpa using hc), upperBound_eq_count]
      symm
      split
      case h_1 h => exact absurd (List.cons.inj h).1 hc
      case h_2 => rfl

theorem bounds_eq (f : Flags) :
    bounds f = skipping f (andThen (countReading f) fun least =>
      ifNext (· == '}') (fun _ => boundsEnd f least (some least)) <|
        ifNext (· == ',') (fun _ => upperBound f least) <| refuse .badRepetition) := by
  funext s
  unfold bounds skipping andThen
  rw [countReading_eq]
  cases count f (f.skip s) with
  | none => rfl
  | some x =>
    obtain ⟨least, rest⟩ := x
    show _ = ifNext (· == '}') _ (ifNext (· == ',') _ _) rest
    cases rest with
    | nil => rfl
    | cons c r =>
      by_cases hclose : c = '}'
      · subst hclose
        exact (boundsEnd_eq f least (some least) r).symm
      · rw [ifNext_of_neg (by simpa using hclose)]
        by_cases hcomma : c = ','
        · subst hcomma
          rw [ifNext_of_pos rfl, upperBound_eq]
          rfl
        · rw [ifNext_of_neg (by simpa using hcomma)]
          simp only
          split
          case h_1 h => exact absurd (List.cons.inj h).1 hclose
          case h_2 h => exact absurd (List.cons.inj h).1 hcomma
          case h_3 => rfl

theorem local_bounds (f : Flags) : Local (bounds f) := by
  rw [bounds_eq]
  apply LocalBut.skipping
  apply Local.andThen (local_countReading f)
  intro least
  apply LocalBut.ifNext rfl (fun _ => local_boundsEnd f _ _)
  exact .ifNext rfl (fun _ => local_upperBound f least) (.refuse _)

theorem count_closing (f : Flags) : count f closing = none := by
  unfold count
  rfl

/-! ## A group around everything -/

/-- **`within st base`** — the state inside one more group. -/
def ReaderState.within (st : ReaderState) (base : Frame) : ReaderState :=
  { st with frames := st.frames ++ [base] }

variable {st : ReaderState} {base : Frame}

theorem frames_within (st : ReaderState) (base : Frame) : (st.within base).frames ≠ [] := by
  simp [ReaderState.within]

/-- A move does inside one more group what it does without, unless it closes that group. -/
theorem Move.apply_within {m : Move} (h : m = .leave → st.frames ≠ []) :
    m.apply (st.within base) = (m.apply st).map (·.within base) := by
  obtain ⟨items, branches, flags, frames, names⟩ := st
  cases m with
  | leave =>
    cases frames with
    | nil => exact absurd rfl (h rfl)
    | cons frame frames => rfl
  | again b =>
    cases items with
    | nil => rfl
    | cons r items => cases r <;> rfl
  | _ => rfl

/-- The group between a start and an end of text, while it is open. -/
def enclosing : Frame := ⟨[.look .textStart], [], {}, false⟩

/-- **`enclosed r`** — the expression between a start and an end of text. -/
def enclosed (r : Regex) : Regex :=
  catAll [.look .textStart, .group false r, .look .textEnd]

theorem depth_enclosed (r : Regex) : depth (enclosed r) = depth r + 2 := by
  show max (0 + 1) (max (depth r + 1 + 1) (0 + 1)) = depth r + 2
  omega

/-! ## Groups -/

theorem cutAt_suffix {sep : Char} {a : Text} (h : Text.cutAt sep s = some (a, t)) : t <:+ s := by
  induction s generalizing a with
  | nil => cases h
  | cons c r ih =>
    unfold Text.cutAt at h
    split at h
    · cases h
      exact List.suffix_cons c t
    · obtain ⟨⟨b, rest⟩, hrest, heq⟩ := Option.map_eq_some_iff.mp h
      cases heq
      exact (ih hrest).trans (List.suffix_cons c r)

theorem cutAt_append {sep : Char} (hsep : sep ∉ closing) (s : Text) :
    Text.cutAt sep (s ++ closing) =
      (Text.cutAt sep s).map fun x => (x.1, x.2 ++ closing) := by
  induction s with
  | nil =>
    simp only [closing, List.mem_cons, List.not_mem_nil, or_false, not_or] at hsep
    simp [closing, Text.cutAt, Ne.symm hsep.1, Ne.symm hsep.2]
  | cons c r ih =>
    rw [List.cons_append, Text.cutAt, Text.cutAt]
    split
    · rfl
    · rw [ih]
      cases Text.cutAt sep r <;> rfl

variable [Unicode]

/-- The name of a group, if it is one. -/
def nameOf (n : Text) : Except RegexError Text :=
  match n with
  | [] => .error .badGroupName
  | c :: r => if isNameStart c && r.all isNameRest then .ok (c :: r) else .error .badGroupName

theorem groupName_eq : groupName = optional (Text.cutAt '>')
    (fun n => checking (nameOf n) give) (refuse .badGroupName) := by
  funext s
  unfold groupName optional
  cases Text.cutAt '>' s with
  | none => rfl
  | some x =>
    obtain ⟨n, rest⟩ := x
    cases n with
    | nil => rfl
    | cons c r =>
      show (if _ then _ else _) = (if _ then _ else _) >>= _
      split <;> rfl

theorem local_groupName : Local groupName := by
  rw [groupName_eq]
  exact .optional (cutAt_append (by decide)) cutAt_suffix (fun n => .checking .give) (.refuse _)

theorem local_namedMove (f : Flags) (names : List Text) : Local (namedMove f names) := by
  apply Local.andThen local_groupName
  intro n
  split
  · exact .refuse _
  · exact .give _

theorem local_queriedMove (f : Flags) (names : List Text) : Local (queriedMove f names) := by
  have hlook : ∀ _ : Char, Local (refuse .lookAround : Reading Move) := fun _ => .refuse _
  apply LocalBut.ifNext rfl hlook
  apply LocalBut.ifNext rfl hlook
  apply LocalBut.ifNext rfl
  · intro _
    exact .ifNext rfl hlook (.ifNext rfl hlook (local_namedMove f names))
  · apply LocalBut.ifNext rfl
    · exact fun _ => .ifNext rfl (fun _ => local_namedMove f names) (.refuse _)
    · exact local_flagMove f names

theorem local_groupMove (f : Flags) (names : List Text) : Local (groupMove f names) := by
  apply LocalBut.skipping
  exact .ifNext rfl (fun _ => local_queriedMove f names) (.give _)

/-! ## Moves -/

/-- A move may leave off in front of a brace, behind an expression. -/
def PushesAhead (f : Flags) (m : Move) (t : Text) : Prop := (∃ r, m = .push r) ∧ IsBrace f t

/-- **The moves of the reader are local**, but for a word boundary in front of a brace. -/
theorem local_moveOf (f : Flags) (names : List Text) (c : Char) :
    LocalBut (PushesAhead f) (moveOf f names c) := by
  have hagain : ∀ (least : Nat) (most : Option Nat),
      LocalBut (PushesAhead f) (againMove f least most) :=
    fun least most => (local_boundedReading f least most).andThen fun b => .give _
  unfold moveOf
  split
  case h_1 => exact (local_groupMove f names).but
  case h_4 => exact Local.andThen (ClassReader.local_read f) fun s => .give _
  case h_5 | h_6 | h_7 => exact hagain _ _
  case h_8 => exact Local.andThen (local_bounds f) fun b => .give _
  case h_9 =>
    apply LocalBut.andThen (local_escape f)
    · exact fun a => .give _
    · rintro a t m u ⟨-, hbrace⟩ h
      cases h
      exact .inr ⟨⟨_, rfl⟩, hbrace⟩
  case h_10 => exact .checking fun d => .give _
  all_goals exact .give _

/-! ## The reader inside a group -/

/-- The reader looks at what it does not skip. -/
theorem readerRun_congr {fuel : Nat} (h : st.flags.skip s = st.flags.skip t) :
    readerRun fuel st s = readerRun fuel st t := by
  unfold readerRun
  rw [h]

/-- The look that a dollar sign is. -/
def ReaderState.atEnd (st : ReaderState) : ReaderState :=
  st.push (.look (if st.flags.multiLine then .lineEnd st.flags.crlf else .textEnd))

theorem readerRun_dollar (fuel : Nat) (st : ReaderState) :
    readerRun (fuel + 1) st ['$'] = .ok st.atEnd := by
  have hskip : st.flags.skip ['$'] = ['$'] := by
    unfold Flags.skip
    split <;> rfl
  have hnil : st.atEnd.flags.skip [] = [] := by
    unfold Flags.skip
    split <;> rfl
  rw [readerRun_of_skip_eq_cons hskip]
  exact readerRun_of_skip_eq_nil hnil

theorem readerRun_closing (fuel : Nat) (st : ReaderState) :
    readerRun (fuel + 2) st closing = st.closeGroup >>= fun st => .ok st.atEnd := by
  have hskip : st.flags.skip (')' :: ['$']) = ')' :: ['$'] := skip_closing st.flags
  rw [closing, readerRun_of_skip_eq_cons hskip]
  show (st.closeGroup >>= _) >>= _ = _
  cases st.closeGroup with
  | error e => rfl
  | ok st' => exact readerRun_dollar fuel st'

/-- With the closing parenthesis spent, a group that is open stays open. -/
theorem frames_of_spent {fuel : Nat} {final : ReaderState} (hst : st.frames ≠ [])
    (ht : t <:+ ['$']) (h : readerRun fuel st t = .ok final) : final.frames ≠ [] := by
  cases fuel with
  | zero =>
    unfold readerRun at h
    split at h <;> cases h <;> exact hst
  | succ fuel =>
    rcases List.suffix_cons_iff.mp ht with rfl | ht
    · rw [readerRun_dollar] at h
      cases h
      exact hst
    · obtain rfl := List.suffix_nil.mp ht
      have hnil : st.flags.skip [] = [] := List.suffix_nil.mp (skip_suffix st.flags [])
      rw [readerRun_of_skip_eq_nil hnil] at h
      cases h
      exact hst

/-- A brace in front of the closing is no repetition. -/
theorem frames_of_brace {fuel : Nat} {final : ReaderState} (hst : st.frames ≠ [])
    (ht : IsBrace st.flags t) (h : readerRun fuel st t = .ok final) : final.frames ≠ [] := by
  obtain ⟨r, rfl, hr⟩ := ht
  have hskip := skip_brace st.flags r
  cases fuel with
  | zero =>
    unfold readerRun at h
    rw [hskip] at h
    cases h
    exact hst
  | succ fuel =>
    have hbounds : bounds st.flags r = .error .badRepetition := by
      unfold bounds
      rw [hr, count_closing]
    rw [readerRun_of_skip_eq_cons hskip] at h
    obtain ⟨⟨next, rest⟩, hstep, -⟩ := bind_eq_ok_iff.mp h
    obtain ⟨m, hm, -⟩ := readerStep_eq_ok_iff.mp hstep
    change (bounds st.flags r >>= _) = _ at hm
    rw [hbounds] at hm
    cases hm

/-! ## The whole text -/

/-- The state after the closing, if the state before it has no group open but the enclosing one. -/
def ReaderState.closedWithin (st : ReaderState) : ReaderState :=
  ⟨[.look .textEnd, .group false (folded st.items st.branches), .look .textStart], [], {}, [],
    st.names⟩

/-- The closing, read behind a text that needs nothing more. -/
theorem readerRun_within_closing {fuel : Nat} {final : ReaderState} (hfuel : 2 ≤ fuel)
    (h : readerRun fuel (st.within enclosing) closing = .ok final) (hfinal : final.frames = []) :
    st.frames = [] ∧ final = st.closedWithin := by
  obtain ⟨items, branches, flags, frames, names⟩ := st
  obtain ⟨fuel, rfl⟩ := Nat.exists_eq_add_of_le' hfuel
  rw [readerRun_closing] at h
  cases frames with
  | nil =>
    cases h
    exact ⟨rfl, rfl⟩
  | cons frame frames =>
    -- the parenthesis closes a group of the text
    cases h
    exact absurd hfinal (by simp [ReaderState.atEnd, ReaderState.push])

/-- **Reading inside the enclosing group** is reading without it, or without it a parenthesis is
closed that is not open. -/
theorem readerRun_within {fuel : Nat} {final : ReaderState} (hfuel : s.length + 2 ≤ fuel)
    (h : readerRun fuel (st.within enclosing) (s ++ closing) = .ok final)
    (hfinal : final.frames = []) {n : Nat} (hn : s.length ≤ n) :
    readerRun n st s = .error .unopenedGroup ∨
      ∃ st', readerRun n st s = .ok st' ∧ st'.frames = [] ∧ final = st'.closedWithin := by
  induction fuel generalizing st s n with
  | zero => exact absurd hfuel (by omega)
  | succ fuel ih =>
    rcases skip_append st.flags s with hskip | hskip
    · cases hs : st.flags.skip s with
      | nil =>
        rw [hs, List.nil_append] at hskip
        have hclosing : (st.within enclosing).flags.skip (s ++ closing) =
            (st.within enclosing).flags.skip closing := hskip.trans (skip_closing _).symm
        rw [readerRun_congr hclosing] at h
        obtain ⟨hframes, hclosed⟩ := readerRun_within_closing (by omega) h hfinal
        exact .inr ⟨st, readerRun_of_skip_eq_nil hs, hframes, hclosed⟩
      | cons c r =>
        have hle := hs ▸ (skip_suffix st.flags s).length_le
        rw [List.length_cons] at hle
        obtain ⟨n, rfl⟩ : ∃ k, n = k + 1 := ⟨n - 1, by omega⟩
        rw [hs, List.cons_append] at hskip
        have hskip' : (st.within enclosing).flags.skip (s ++ closing) = c :: (r ++ closing) := hskip
        rw [readerRun_of_skip_eq_cons hskip'] at h
        rw [readerRun_of_skip_eq_cons hs]
        obtain ⟨⟨next, t⟩, hstep, hrest⟩ := bind_eq_ok_iff.mp h
        obtain ⟨m, hm, happly⟩ := readerStep_eq_ok_iff.mp hstep
        by_cases hleave : m = .leave ∧ st.frames = []
        · -- without the enclosing group the parenthesis closes nothing
          obtain ⟨rfl, hframes⟩ := hleave
          obtain ⟨rfl, -⟩ := eq_of_moveOf_leave hm
          left
          show (st.closeGroup >>= _) >>= _ = _
          unfold ReaderState.closeGroup
          rw [hframes]
          rfl
        · rw [Move.apply_within fun hm' hframes => hleave ⟨hm', hframes⟩] at happly
          obtain ⟨st', happly', rfl⟩ := map_eq_ok_iff.mp happly
          have hopen := frames_within st' enclosing
          rcases (local_moveOf _ _ c).cut hm with hspent | ⟨⟨e, rfl⟩, hbrace⟩ | ⟨t, rfl, hm'⟩
          · exact absurd hfinal (frames_of_spent hopen hspent hrest)
          · have hflags : (st'.within enclosing).flags = st.flags := by
              cases happly'
              rfl
            exact absurd hfinal (frames_of_brace hopen (hflags ▸ hbrace) hrest)
          · have hstep' : readerStep st c r = .ok (st', t) :=
              readerStep_eq_ok_iff.mpr ⟨m, hm', happly'⟩
            have hlt := ((local_moveOf _ _ c).suffix hm').length_le
            rw [hstep']
            exact ih (by omega) hrest (by omega)
    · -- the closing is swallowed, and the enclosing group stays open
      have hskip' : (st.within enclosing).flags.skip (s ++ closing) = [] := hskip
      rw [readerRun_of_skip_eq_nil hskip'] at h
      cases h
      exact absurd hfinal (frames_within st enclosing)

theorem read_eq_ok_iff {t : Text} {r : Regex} :
    read t = .ok r ↔ ∃ st, readerRun t.length .start t = .ok st ∧ st.frames = [] ∧
      r = ReaderState.folded st.items st.branches ∧ depth r ≤ nestingLimit := by
  unfold read
  rw [bind_eq_ok_iff]
  refine exists_congr fun st => and_congr_right fun _ => ?_
  obtain ⟨items, branches, flags, frames, names⟩ := st
  cases frames with
  | nil =>
    show (if depth (ReaderState.folded items branches) ≤ nestingLimit then _ else _) = _ ↔ _
    split
    case isTrue hdepth =>
      constructor
      · intro h
        cases h
        exact ⟨rfl, rfl, hdepth⟩
      · rintro ⟨-, rfl, -⟩
        rfl
    case isFalse hdepth =>
      constructor
      · intro h
        cases h
      · rintro ⟨-, rfl, hle⟩
        exact absurd hle hdepth
  | cons frame frames =>
    constructor
    · intro h
      cases h
    · rintro ⟨h, -⟩
      cases h

/-- What stands in front of the text opens the enclosing group. -/
theorem readerRun_opening (fuel : Nat) (t : Text) :
    readerRun (fuel + 2) .start (['^', '(', '?', ':'] ++ t) =
      readerRun fuel (ReaderState.start.within enclosing) t := rfl

/-- **A text that is enclosed** is read as the expression of the text, enclosed, unless the text
closes a parenthesis that it does not open. -/
theorem read_enclosed {t : Text} {w : Regex}
    (h : read (['^', '(', '?', ':'] ++ t ++ closing) = .ok w) :
    read t = .error .unopenedGroup ∨ ∃ r, read t = .ok r ∧ w = enclosed r := by
  obtain ⟨final, hrun, hfinal, rfl, hdepth⟩ := read_eq_ok_iff.mp h
  have hlength : (['^', '(', '?', ':'] ++ t ++ closing).length = (t.length + 4) + 2 := by
    simp [closing]
  rw [hlength, List.append_assoc, readerRun_opening] at hrun
  rcases readerRun_within (by omega) hrun hfinal (Nat.le_refl t.length) with
    hunopened | ⟨st, hst, hframes, rfl⟩
  · left
    unfold read
    rw [hunopened]
    rfl
  · right
    have henclosed : ReaderState.folded st.closedWithin.items st.closedWithin.branches =
        enclosed (ReaderState.folded st.items st.branches) := rfl
    rw [henclosed, depth_enclosed] at hdepth
    exact ⟨_, read_eq_ok_iff.mpr ⟨st, hst, hframes, rfl, by omega⟩, henclosed⟩

end UriRouting.Regex
