/-
# UriRouting.Proofs.Regex.ClassLocality — classes in front of a closing parenthesis

A class ends with its closing bracket, and there is none in the closing of a group.  So a reader that
has come to the closing inside a class fails sooner or later (`members_of_not_mem`), and the readers of
its parts may do there what they like (`AtClosing`).  The reader of whole classes is local.
-/
import UriRouting.Proofs.Regex.Locality
import UriRouting.Proofs.Text.Runs

namespace UriRouting.Regex

variable {α β : Type} {f : Flags} {s t : Text} {extra : α → Text → Prop}

/-! ## More ways of putting readers together -/

theorem LocalBut.nonEmpty {e : RegexError} {g : Reading α} (hg : LocalBut extra g)
    (hclosing : ∀ {a t}, g closing = .ok (a, t) → t <:+ ['$'] ∨ extra a t) :
    LocalBut extra (nonEmpty e g) where
  suffix {s a t} h := by
    cases s with
    | nil => cases h
    | cons c r => exact hg.suffix h
  cut {s a t} h := by
    cases s with
    | nil => exact (hclosing h).imp_right .inl
    | cons c r => exact hg.cut h

theorem LocalBut.optional {o : Text → Option (β × Text)} {g : β → Reading α} {k : Reading α}
    (ho : ∀ s, o (s ++ closing) = (o s).map fun x => (x.1, x.2 ++ closing))
    (hsuffix : ∀ {s b r}, o s = some (b, r) → r <:+ s) (hg : ∀ b, LocalBut extra (g b))
    (hk : LocalBut extra k) : LocalBut extra (optional o g k) where
  suffix {s a t} h := by
    unfold Regex.optional at h
    cases hs : o s with
    | none =>
      rw [hs] at h
      exact hk.suffix h
    | some x =>
      rw [hs] at h
      exact ((hg x.1).suffix h).trans (hsuffix hs)
  cut {s a t} h := by
    unfold Regex.optional at h ⊢
    rw [ho] at h
    cases hs : o s with
    | none =>
      rw [hs] at h
      exact hk.cut h
    | some x =>
      rw [hs] at h
      exact (hg x.1).cut h

namespace ClassReader

/-- The reader has come to the closing. -/
def AtClosing (_ : α) (t : Text) : Prop := t = closing

/-- What is read of the closing is spent, or nothing. -/
theorem spent_or_atClosing {a : α} (h : t <:+ closing) : t <:+ ['$'] ∨ AtClosing a t :=
  (eq_closing_or_of_suffix h).symm

/-! ## The parts of a class -/

/-- A named class, after its first colon and the sign of a complement. -/
def asciiNamed (negated : Bool) (r : Text) : Option ((Bool × Charset) × Text) :=
  match r.dropWhile (· ≠ ':') with
  | ':' :: ']' :: rest =>
    (Charset.ofAsciiName? (String.ofList (r.takeWhile (· ≠ ':')))).map fun s => ((negated, s), rest)
  | _ => none

/-- The sign of a complement, if there is one, and the text behind it. -/
def sign : Text → Bool × Text
  | '^' :: r => (true, r)
  | r => (false, r)

theorem ascii?_colon (r : Text) : ascii? (':' :: r) = asciiNamed (sign r).1 (sign r).2 := rfl

theorem ascii?_of_ne {c : Char} (hc : c ≠ ':') (r : Text) : ascii? (c :: r) = none := by
  unfold ascii?
  split
  case h_1 h => exact absurd (List.cons.inj h).1 hc
  case h_2 => rfl

theorem sign_suffix (r : Text) : (sign r).2 <:+ r := by
  unfold sign
  split
  · exact List.suffix_cons _ _
  · exact List.suffix_refl _

theorem sign_append (r : Text) : sign (r ++ closing) = ((sign r).1, (sign r).2 ++ closing) := by
  cases r with
  | nil => rfl
  | cons c r =>
    by_cases hc : c = '^'
    · subst hc
      rfl
    · simp [sign, hc]

/-- A text is cut at the first colon, or has none. -/
theorem dropWhile_colon (r : Text) :
    (∃ a rest, r = a ++ ':' :: rest ∧ ∀ c ∈ a, (decide (c ≠ ':')) = true) ∨
      r.dropWhile (· ≠ ':') = [] := by
  cases h : r.dropWhile (· ≠ ':') with
  | nil => exact .inr rfl
  | cons c rest =>
    left
    have hstart := Text.startsWith_dropWhile (p := fun c => decide (c ≠ ':')) r
    rw [h] at hstart
    obtain rfl : c = ':' := by simpa [Text.startsWith] using hstart
    refine ⟨r.takeWhile (· ≠ ':'), rest, ?_, fun d hd => ?_⟩
    · rw [← h, List.takeWhile_append_dropWhile]
    · exact List.mem_takeWhile_imp (p := fun c => decide (c ≠ ':')) hd

theorem asciiNamed_append (negated : Bool) (r : Text) :
    asciiNamed negated (r ++ closing) =
      (asciiNamed negated r).map fun x => (x.1, x.2 ++ closing) := by
  rcases dropWhile_colon r with ⟨a, rest, rfl, ha⟩ | hnil
  · have hdrop : ∀ u : Text, (a ++ ':' :: u).dropWhile (· ≠ ':') = ':' :: u :=
      fun u => Text.dropWhile_run ha rfl
    have htake : ∀ u : Text, (a ++ ':' :: u).takeWhile (· ≠ ':') = a :=
      fun u => Text.takeWhile_run ha rfl
    unfold asciiNamed
    rw [List.append_assoc, List.cons_append, hdrop, hdrop, htake, htake]
    rcases rest with _ | ⟨c, rest⟩
    · rfl
    · by_cases hc : c = ']'
      · subst hc
        simp only [List.cons_append, Option.map_map]
        rfl
      · simp [hc]
  · have hclosing : (r ++ closing).dropWhile (· ≠ ':') = [] := by
      rw [List.dropWhile_append, hnil]
      rfl
    unfold asciiNamed
    rw [hclosing, hnil]
    rfl

theorem asciiNamed_suffix {negated : Bool} {x : Bool × Charset}
    (h : asciiNamed negated s = some (x, t)) : t <:+ s := by
  unfold asciiNamed at h
  split at h
  case h_1 rest hdrop =>
    have hsuffix : ':' :: ']' :: rest <:+ s := hdrop ▸ List.dropWhile_suffix _
    obtain ⟨_, -, heq⟩ := Option.map_eq_some_iff.mp h
    cases heq
    exact ((List.suffix_cons _ t).trans (List.suffix_cons _ _)).trans hsuffix
  · cases h

theorem ascii?_append (s : Text) :
    ascii? (s ++ closing) = (ascii? s).map fun x => (x.1, x.2 ++ closing) := by
  cases s with
  | nil => rfl
  | cons c r =>
    by_cases hc : c = ':'
    · subst hc
      rw [List.cons_append, ascii?_colon, ascii?_colon, sign_append, asciiNamed_append]
    · rw [List.cons_append, ascii?_of_ne hc, ascii?_of_ne hc]
      rfl

theorem ascii?_suffix {x : Bool × Charset} (h : ascii? s = some (x, t)) : t <:+ s := by
  cases s with
  | nil => cases h
  | cons c r =>
    by_cases hc : c = ':'
    · subst hc
      rw [ascii?_colon] at h
      exact ((asciiNamed_suffix h).trans (sign_suffix r)).trans (List.suffix_cons _ r)
    · rw [ascii?_of_ne hc] at h
      cases h

/-- The character that decides about a hyphen is found in front of the closing, or is the closing
parenthesis. -/
theorem peek_append (f : Flags) (s : Text) :
    peek f (s ++ closing) = (peek f s).or (some ')') := by
  have hignoring : ∀ comment, peekIgnoring comment (s ++ closing) =
      (peekIgnoring comment s).or (some ')') := by
    intro comment
    induction s generalizing comment with
    | nil => cases comment <;> decide
    | cons c r ih =>
      rw [List.cons_append, peekIgnoring, peekIgnoring]
      split
      · exact ih comment
      · split
        · exact ih true
        · rfl
  unfold peek
  split
  · exact hignoring false
  · cases s <;> rfl

/-- A hyphen in front of a closing bracket or of another hyphen makes no range. -/
def StaysHyphen (f : Flags) (s : Text) : Prop := peek f s = some ']' ∨ peek f s = some '-'

instance (f : Flags) (s : Text) : Decidable (StaysHyphen f s) :=
  inferInstanceAs (Decidable (_ ∨ _))

theorem staysHyphen_append (f : Flags) (s : Text) :
    StaysHyphen f (s ++ closing) ↔ StaysHyphen f s := by
  unfold StaysHyphen
  rw [peek_append]
  cases peek f s with
  | none => simp
  | some c => rfl

/-- The range between two members. -/
def rangeOf (f : Flags) (first last : Atom) : Except RegexError Charset :=
  match first, last with
  | .char a, .char b =>
    charMember f a >>= fun _ => charMember f b >>= fun _ =>
      if a.toNat ≤ b.toNat then .ok (.ranges [(a.toNat, b.toNat)]) else .error .badClassRange
  | _, _ => .error .badClassRange

/-- No range ends with a look-around. -/
theorem rangeOf_look_right (first : Atom) (l : Look) :
    rangeOf f first (.look l) = .error .badClassRange := by
  cases first <;> rfl

/-! ## The beginning of a class -/

theorem leadingHyphens_succ (f : Flags) (n : Nat) (acc : List Charset) :
    leadingHyphens f (n + 1) acc = ifNext (· == '-')
      (fun _ => skipping f (nonEmpty .unclosedClass
        (leadingHyphens f n (.single '-' :: acc))))
      (give acc) := by
  funext s
  cases s with
  | nil => rfl
  | cons c r =>
    by_cases hc : c = '-'
    · subst hc
      rw [leadingHyphens, ifNext_of_pos rfl, skipping]
      cases f.skip r <;> rfl
    · rw [ifNext_of_neg (by simpa using hc)]
      unfold leadingHyphens
      split
      case h_1 h => exact absurd (List.cons.inj h).1 hc
      case h_2 => rfl

theorem local_leadingHyphens (f : Flags) (n : Nat) (acc : List Charset) :
    LocalBut AtClosing (leadingHyphens f n acc) := by
  induction n generalizing acc with
  | zero => exact .give acc
  | succ n ih =>
    rw [leadingHyphens_succ]
    apply LocalBut.ifNext rfl
    · intro _
      apply LocalBut.skipping
      exact (ih _).nonEmpty fun h => spent_or_atClosing ((ih _).suffix h)
    · exact .give acc

theorem leadingHyphens_fuel (f : Flags) (acc : List Charset) (n m : Nat) (s : Text)
    (hn : s.length < n) (hm : s.length < m) :
    leadingHyphens f n acc s = leadingHyphens f m acc s := by
  refine eq_of_fuel (g := leadingHyphens f) ?_ acc n m s hn hm
  intro n m acc s ih
  rw [leadingHyphens_succ, leadingHyphens_succ]
  cases s with
  | nil => rfl
  | cons c r =>
    have hle := (skip_suffix f r).length_le
    simp only [ifNext, skipping]
    split
    · cases hskip : f.skip r with
      | nil => rfl
      | cons d u =>
        rw [hskip] at hle
        exact ih _ (d :: u) (Nat.lt_succ_of_le hle)
    · rfl

/-- The members that only may stand at the beginning. -/
def openingAfter (f : Flags) (negated : Bool) : Reading (Bool × List Charset) :=
  nonEmpty .unclosedClass (ifNext (· == ']')
    (fun _ => skipping f (nonEmpty .unclosedClass (give (negated, [.single ']']))))
    (andThen (fun s => leadingHyphens f (s.length + 1) [] s) fun acc => give (negated, acc)))

theorem local_openingAfter (f : Flags) (negated : Bool) :
    LocalBut AtClosing (openingAfter f negated) := by
  have hhyphens : LocalBut AtClosing (andThen
      (fun s => leadingHyphens f (s.length + 1) [] s) fun acc => give (negated, acc)) := by
    apply LocalBut.andThen (.ofFuel (fun n => local_leadingHyphens f n [])
      (leadingHyphens_fuel f []))
    · exact fun acc => .give _
    · intro acc t a u hclosing h
      cases h
      exact .inr hclosing
  have hall : LocalBut AtClosing (ifNext (· == ']')
      (fun _ => skipping f (nonEmpty .unclosedClass (give (negated, [.single ']']))))
      (andThen (fun s => leadingHyphens f (s.length + 1) [] s)
        fun acc => give (negated, acc))) := by
    apply LocalBut.ifNext rfl
    · intro _
      apply LocalBut.skipping
      apply LocalBut.nonEmpty (.give _)
      intro a t h
      cases h
      exact .inr rfl
    · exact hhyphens
  exact hall.nonEmpty fun h => spent_or_atClosing (hall.suffix h)

theorem openingAfter_eq (f : Flags) (negated : Bool) (s : Text) :
    openingAfter f negated s =
      match s with
      | [] => .error .unclosedClass
      | '-' :: _ => do
        let (acc, s) ← leadingHyphens f (s.length + 1) [] s
        return ((negated, acc), s)
      | ']' :: r =>
        match f.skip r with
        | [] => .error .unclosedClass
        | s => return ((negated, [.single ']']), s)
      | s => return ((negated, []), s) := by
  cases s with
  | nil => rfl
  | cons c r =>
    by_cases hc : c = ']'
    · subst hc
      show nonEmpty .unclosedClass (give (negated, [Charset.single ']'])) (f.skip r) =
        match f.skip r with
        | [] => .error .unclosedClass
        | s => .ok ((negated, [.single ']']), s)
      cases f.skip r <;> rfl
    · rw [openingAfter, nonEmpty_cons, ifNext_of_neg (by simpa using hc)]
      by_cases hc' : c = '-'
      · subst hc'
        rfl
      · have hnone :
            leadingHyphens f ((c :: r).length + 1) [] (c :: r) = .ok ([], c :: r) := by
          rw [leadingHyphens_succ, ifNext_of_neg (by simpa using hc')]
          rfl
        rw [andThen, hnone]
        split
        case h_1 h => cases h
        case h_2 h => exact absurd (List.cons.inj h).1 hc'
        case h_3 h => exact absurd (List.cons.inj h).1 hc
        case h_4 => rfl

/-- The sign of a complement at the beginning, and the text behind it. -/
def negation (f : Flags) (s : Text) : Bool × Text :=
  match f.skip s with
  | '^' :: r => (true, f.skip r)
  | s => (false, s)

theorem opening_eq_openingAfter (f : Flags) (s : Text) :
    opening f s = openingAfter f (negation f s).1 (negation f s).2 := by
  rw [openingAfter_eq]
  rfl

theorem opening_eq (f : Flags) :
    opening f = skipping f (ifNext (· == '^') (fun _ => skipping f (openingAfter f true))
      (openingAfter f false)) := by
  funext s
  rw [opening_eq_openingAfter, negation, skipping]
  cases f.skip s with
  | nil => rfl
  | cons c r =>
    by_cases hc : c = '^'
    · subst hc
      rfl
    · rw [ifNext_of_neg (by simpa using hc)]
      split
      case h_1 h => exact absurd (List.cons.inj h).1 hc
      case h_2 => rfl

theorem local_opening (f : Flags) : LocalBut AtClosing (opening f) := by
  rw [opening_eq]
  apply LocalBut.skipping
  apply LocalBut.ifNext rfl
  · exact fun _ => .skipping f (local_openingAfter f true)
  · exact local_openingAfter f false

/-! ## Operators -/

/-- The operator that a doubled character is. -/
def operatorOf : Char → Option Operator
  | '&' => some .inter
  | '-' => some .minus
  | '~' => some .differing
  | _ => none

/-- An operator between the parts of a class. -/
def operator? : Text → Option (Operator × Text)
  | c :: d :: r => if c = d then (operatorOf c).map fun o => (o, r) else none
  | _ => none

theorem operator?_append (s : Text) :
    operator? (s ++ closing) = (operator? s).map fun x => (x.1, x.2 ++ closing) := by
  rcases s with _ | ⟨c, _ | ⟨d, r⟩⟩
  · rfl
  · show (if c = ')' then (operatorOf c).map fun o => (o, ['$']) else none) = none
    split
    case isTrue hc =>
      subst hc
      rfl
    case isFalse => rfl
  · show (if c = d then (operatorOf c).map fun o => (o, r ++ closing) else none) =
      Option.map _ (if c = d then (operatorOf c).map fun o => (o, r) else none)
    split
    · cases operatorOf c <;> rfl
    · rfl

theorem operator?_suffix {o : Operator} (h : operator? s = some (o, t)) :
    ∃ c, s = c :: c :: t := by
  rcases s with _ | ⟨c, _ | ⟨d, r⟩⟩
  · cases h
  · cases h
  · change (if c = d then (operatorOf c).map fun o => (o, r) else none) = _ at h
    split at h
    case isTrue hcd =>
      obtain ⟨_, -, heq⟩ := Option.map_eq_some_iff.mp h
      cases heq
      exact ⟨c, by rw [hcd]⟩
    case isFalse => cases h

/-- What is neither a bracket nor an operator is a member. -/
theorem operator?_eq_none
    (hinter : ∀ r, s ≠ '&' :: '&' :: r) (hminus : ∀ r, s ≠ '-' :: '-' :: r)
    (hdiffering : ∀ r, s ≠ '~' :: '~' :: r) : operator? s = none := by
  rcases s with _ | ⟨c, _ | ⟨d, r⟩⟩
  · rfl
  · rfl
  · show (if c = d then (operatorOf c).map fun o => (o, r) else none) = none
    split
    case isTrue hcd =>
      subst hcd
      unfold operatorOf
      split
      · exact absurd rfl (hinter r)
      · exact absurd rfl (hminus r)
      · exact absurd rfl (hdiffering r)
      · rfl
    case isFalse => rfl

/-! ## Characters and ranges -/

variable [Unicode]

theorem atom_eq (f : Flags) : atom f = next .unclosedClass fun c =>
    if c = '\\' then escape f else give (.char c) := by
  funext s
  cases s with
  | nil => rfl
  | cons c r =>
    by_cases hc : c = '\\'
    · subst hc
      rfl
    · simp only [next, hc, if_false]
      unfold atom
      split
      case h_2 h => exact absurd (List.cons.inj h).1 hc
      case h_1 h => cases h
      case h_3 h =>
        cases h
        rfl

theorem local_atom (f : Flags) : LocalBut (LooksAhead f) (atom f) := by
  rw [atom_eq]
  apply LocalBut.next
  intro c
  split
  · exact local_escape f
  · exact .give _

theorem atom_suffix {c : Char} {r : Text} {a : Atom} (h : atom f (c :: r) = .ok (a, t)) :
    t <:+ r := by
  rw [atom_eq] at h
  simp only [next] at h
  split at h
  · exact (local_escape f).suffix h
  · cases h
    exact List.suffix_refl _

/-- The upper end of a range. -/
def rangeEnd (f : Flags) (first : Atom) : Reading Charset :=
  andThen (atom f) fun last => checking (rangeOf f first last) give

/-- What stands behind a member: the rest of a range, or something else. -/
def afterFirst (f : Flags) (first : Atom) (s : Text) : Except RegexError (Charset × Text) :=
  match s with
  | [] => .error .unclosedClass
  | c :: r =>
    if c = '-' then
      if StaysHyphen f r then checking (single f first) give (c :: r)
      else nonEmpty .unclosedClass (rangeEnd f first) (f.skip r)
    else checking (single f first) give (c :: r)

theorem rangeEnd_eq (f : Flags) (first : Atom) (s : Text) :
    rangeEnd f first s = atom f s >>= fun (last, s) =>
      match first, last with
      | .char a, .char b => do
        let _ ← charMember f a
        let _ ← charMember f b
        if a.toNat ≤ b.toNat then return (.ranges [(a.toNat, b.toNat)], s)
        else .error .badClassRange
      | _, _ => .error .badClassRange := by
  unfold rangeEnd andThen checking rangeOf
  cases atom f s with
  | error e => rfl
  | ok x =>
    obtain ⟨last, rest⟩ := x
    cases first <;> cases last <;> try rfl
    case char.char a b =>
      show ((charMember f a >>= _) >>= _) = (charMember f a >>= _)
      cases charMember f a with
      | error e => rfl
      | ok _ =>
        show ((charMember f b >>= _) >>= _) = (charMember f b >>= _)
        cases charMember f b with
        | error e => rfl
        | ok _ =>
          show ((if _ then _ else _) >>= _) = if _ then _ else _
          split <;> rfl

theorem range_eq (f : Flags) :
    range f = andThen (atom f) fun first => skipping f (afterFirst f first) := by
  funext s
  unfold range andThen skipping
  cases atom f s with
  | error e => rfl
  | ok x =>
    obtain ⟨first, rest⟩ := x
    dsimp only [bind, Except.bind]
    generalize f.skip rest = u
    cases u with
    | nil => rfl
    | cons c r =>
      by_cases hc : c = '-'
      · subst hc
        show (if StaysHyphen f r then _ else _) = if StaysHyphen f r then _ else _
        split
        · rfl
        · cases f.skip r with
          | nil => rfl
          | cons d u => exact (rangeEnd_eq f first (d :: u)).symm
      · simp only [afterFirst, hc, if_false]
        split
        case h_1 h => cases h
        case h_2 h => exact absurd (List.cons.inj h).1 hc
        case h_3 => rfl

theorem local_rangeEnd (f : Flags) (first : Atom) : Local (rangeEnd f first) := by
  apply LocalBut.andThen (local_atom f)
  · exact fun last => .checking .give
  · rintro last t a u ⟨⟨l, rfl⟩, -⟩ h
    rw [checking, rangeOf_look_right] at h
    cases h

theorem afterFirst_hyphen (f : Flags) (first : Atom) (r : Text) :
    afterFirst f first ('-' :: r) =
      if StaysHyphen f r then checking (single f first) give ('-' :: r)
      else nonEmpty .unclosedClass (rangeEnd f first) (f.skip r) := rfl

theorem afterFirst_of_ne {c : Char} (hc : c ≠ '-') (first : Atom) (r : Text) :
    afterFirst f first (c :: r) = checking (single f first) give (c :: r) := if_neg hc

/-- The member is single and nothing more is read, or a range has been read behind a hyphen. -/
theorem afterFirst_cases {first : Atom} {x : Charset} (h : afterFirst f first s = .ok (x, t)) :
    (single f first = .ok x ∧ t = s) ∨
      ∃ r u, s = '-' :: r ∧ u <:+ r ∧ rangeEnd f first u = .ok (x, t) := by
  cases s with
  | nil => cases h
  | cons c r =>
    by_cases hc : c = '-'
    · subst hc
      rw [afterFirst_hyphen] at h
      split at h
      · exact .inl (checking_give_eq_ok_iff.mp h)
      · cases hskip : f.skip r with
        | nil =>
          rw [hskip] at h
          cases h
        | cons d u =>
          have hr := hskip ▸ skip_suffix f r
          rw [hskip] at h
          exact .inr ⟨r, d :: u, rfl, hr, h⟩
    · rw [afterFirst_of_ne hc] at h
      exact .inl (checking_give_eq_ok_iff.mp h)

/-- Behind a look-around there is nothing to be read in a class. -/
theorem afterFirst_look {l : Look} {x : Charset} : afterFirst f (.look l) s ≠ .ok (x, t) := by
  intro h
  rcases afterFirst_cases h with ⟨hsingle, -⟩ | ⟨_, _, -, -, h⟩
  · cases hsingle
  · obtain ⟨last, rest, -, h⟩ := andThen_eq_ok_iff.mp h
    cases (checking_give_eq_ok_iff.mp h).1

theorem afterFirst_suffix {first : Atom} {x : Charset} (h : afterFirst f first s = .ok (x, t)) :
    t <:+ s := by
  rcases afterFirst_cases h with ⟨-, rfl⟩ | ⟨r, u, rfl, hu, h⟩
  · exact List.suffix_refl _
  · exact (((local_rangeEnd f first).suffix h).trans hu).trans (List.suffix_cons _ r)

theorem local_afterFirst (f : Flags) (first : Atom) :
    LocalBut AtClosing (afterFirst f first) where
  suffix := afterFirst_suffix
  cut {s x t} h := by
    cases s with
    | nil => exact (spent_or_atClosing (afterFirst_suffix h)).imp_right .inl
    | cons c r =>
      by_cases hc : c = '-'
      · subst hc
        rw [List.cons_append, afterFirst_hyphen] at h
        rw [afterFirst_hyphen]
        split at h
        case isTrue hstays =>
          obtain ⟨hsingle, rfl⟩ := checking_give_eq_ok_iff.mp h
          rw [if_pos ((staysHyphen_append f r).mp hstays), hsingle]
          exact .inr (.inr ⟨'-' :: r, rfl, rfl⟩)
        case isFalse hstays =>
          rw [if_neg (mt (staysHyphen_append f r).mpr hstays)]
          rcases skip_append f r with hskip | hskip
          · rw [hskip] at h
            cases hr : f.skip r with
            | nil =>
              -- the upper end of the range is taken from the closing
              rw [hr] at h
              exact (spent_or_atClosing ((local_rangeEnd f first).suffix h)).imp_right .inl
            | cons d u =>
              rw [hr] at h
              exact (local_rangeEnd f first).but.cut h
          · rw [hskip] at h
            cases h
      · rw [List.cons_append, afterFirst_of_ne hc] at h
        obtain ⟨hsingle, rfl⟩ := checking_give_eq_ok_iff.mp h
        rw [afterFirst_of_ne hc, hsingle]
        exact .inr (.inr ⟨c :: r, rfl, rfl⟩)

theorem local_range (f : Flags) : LocalBut AtClosing (range f) := by
  rw [range_eq]
  apply LocalBut.andThen (local_atom f)
  · exact fun first => .skipping f (local_afterFirst f first)
  · rintro first t x u ⟨⟨l, rfl⟩, -⟩ h
    exact absurd h afterFirst_look

/-- A range takes a character at least. -/
theorem range_suffix {c : Char} {r : Text} {x : Charset} (h : range f (c :: r) = .ok (x, t)) :
    t <:+ r := by
  rw [range_eq] at h
  obtain ⟨first, rest, hfirst, h⟩ := andThen_eq_ok_iff.mp h
  exact ((afterFirst_suffix h).trans (skip_suffix f rest)).trans (atom_suffix hfirst)

/-! ## The members -/

/-- **The reader of members**, put together from the readers of its parts. -/
theorem members_succ (f : Flags) (n : Nat) (negated : Bool) (p : Parts) :
    members f (n + 1) negated p = skipping f (nonEmpty .unclosedClass (ifNext (· == '[')
      (fun _ => optional ascii?
        (fun x => checking (finish f x.1 x.2) fun y => members f n negated (p.add y))
        (andThen (opening f) fun o => andThen (members f n o.1 ⟨none, o.2⟩) fun x =>
          members f n negated (p.add x)))
      (ifNext (· == ']') (fun _ => checking (bracketed f negated (p.close f)) give)
        (optional operator? (fun o => members f n negated ⟨some (o, p.close f), []⟩)
          (andThen (range f) fun x => members f n negated (p.add x)))))) := by
  funext s
  rw [members, skipping]
  split
  case h_1 hskip => rw [hskip, nonEmpty]
  case h_2 r hskip =>
    rw [hskip]
    show _ = optional ascii? _ _ r
    unfold optional
    cases ascii? r <;> rfl
  case h_3 r hskip =>
    rw [hskip]
    rfl
  case h_4 r hskip =>
    rw [hskip]
    rfl
  case h_5 r hskip =>
    rw [hskip]
    rfl
  case h_6 r hskip =>
    rw [hskip]
    rfl
  case h_7 hnil hopen hclose hinter hminus hdiffering =>
    generalize f.skip s = u at *
    cases u with
    | nil => exact absurd rfl hnil
    | cons c r =>
      have hc : c ≠ '[' := fun h => hopen r (by rw [h])
      have hc' : c ≠ ']' := fun h => hclose r (by rw [h])
      rw [nonEmpty_cons, ifNext_of_neg (by simpa using hc), ifNext_of_neg (by simpa using hc'),
        optional, operator?_eq_none hinter hminus hdiffering]
      rfl

/-- Without a closing bracket there is no end of the members. -/
theorem members_of_not_mem {n : Nat} {negated : Bool} {p : Parts} {x : Charset}
    (hs : ']' ∉ s) : members f n negated p s ≠ .ok (x, t) := by
  induction n generalizing negated p s x t with
  | zero =>
    intro h
    cases h
  | succ n ih =>
    intro h
    have hin : ∀ {u : Text}, u <:+ s → ']' ∉ u := fun hu hmem => hs (hu.subset hmem)
    have hsuffix := skip_suffix f s
    rw [members_succ, skipping] at h
    cases hskip : f.skip s with
    | nil =>
      rw [hskip] at h
      cases h
    | cons c r =>
      rw [hskip] at h hsuffix
      have hr : r <:+ s := (List.suffix_cons c r).trans hsuffix
      rw [nonEmpty_cons] at h
      by_cases hopen : c = '['
      · rw [ifNext_of_pos (by simpa using hopen), optional] at h
        split at h
        case h_1 x rest hascii =>
          obtain ⟨y, -, h⟩ := bind_eq_ok_iff.mp h
          exact ih (hin ((ascii?_suffix hascii).trans hr)) h
        case h_2 =>
          obtain ⟨o, rest, hopening, h⟩ := andThen_eq_ok_iff.mp h
          obtain ⟨x, rest', hmembers, -⟩ := andThen_eq_ok_iff.mp h
          exact ih (hin (((local_opening f).suffix hopening).trans hr)) hmembers
      · rw [ifNext_of_neg (by simpa using hopen)] at h
        have hclose : c ≠ ']' := by
          rintro rfl
          exact hin hsuffix List.mem_cons_self
        rw [ifNext_of_neg (by simpa using hclose), optional] at h
        split at h
        case h_1 o rest hoperator =>
          obtain ⟨d, heq⟩ := operator?_suffix hoperator
          have hrest : rest <:+ c :: r :=
            heq ▸ (List.suffix_cons d rest).trans (List.suffix_cons d _)
          exact ih (hin (hrest.trans hsuffix)) h
        case h_2 =>
          obtain ⟨m, rest, hrange, h⟩ := andThen_eq_ok_iff.mp h
          exact ih (hin (((local_range f).suffix hrange).trans hsuffix)) h

/-- The closing of a group does not end a class. -/
theorem members_closing {n : Nat} {negated : Bool} {p : Parts} {x : Charset} :
    members f n negated p closing ≠ .ok (x, t) := members_of_not_mem (by decide)

theorem local_members (f : Flags) (n : Nat) (negated : Bool) (p : Parts) :
    Local (members f n negated p) := by
  induction n generalizing negated p with
  | zero => exact .refuse _
  | succ n ih =>
    have hoperator : ∀ {s : Text} {o r}, operator? s = some (o, r) → r <:+ s := by
      intro s o r h
      obtain ⟨c, rfl⟩ := operator?_suffix h
      exact (List.suffix_cons c r).trans (List.suffix_cons c _)
    -- a reader that comes to the closing leaves members that never end
    have hstuck : ∀ {negated : Bool} {p : Parts} {t u : Text} {x : Charset}, t = closing →
        members f n negated p t = .ok (x, u) → u <:+ ['$'] ∨ False := by
      rintro negated p t u x rfl h
      exact absurd h members_closing
    have hall := members_succ f n negated p
    rw [hall]
    apply LocalBut.skipping
    refine LocalBut.nonEmpty ?_ ?_
    · apply LocalBut.ifNext rfl
      · intro _
        refine LocalBut.optional ascii?_append ascii?_suffix
          (fun x => .checking fun y => ih _ _) ?_
        apply LocalBut.andThen (local_opening f)
        · exact fun o => Local.andThen (ih _ _) fun x => ih _ _
        · intro o t x u hclosing h
          obtain ⟨y, rest, hnested, -⟩ := andThen_eq_ok_iff.mp h
          exact absurd (hclosing ▸ hnested) members_closing
      · apply LocalBut.ifNext rfl
        · exact fun _ => .checking .give
        · refine LocalBut.optional operator?_append hoperator (fun o => ih _ _) ?_
          apply LocalBut.andThen (local_range f)
          · exact fun m => ih _ _
          · intro m t x u hclosing h
            exact hstuck hclosing h
    · intro x t h
      have hmembers : members f (n + 1) negated p closing = .ok (x, t) := by
        rw [hall, skipping, skip_closing]
        exact h
      exact absurd hmembers members_closing

theorem members_fuel (f : Flags) (negated : Bool) (p : Parts) (n m : Nat) (s : Text)
    (hn : s.length < n) (hm : s.length < m) :
    members f n negated p s = members f m negated p s := by
  refine eq_of_fuel (g := fun n (x : Bool × Parts) => members f n x.1 x.2) ?_ (negated, p) n m s
    hn hm
  rintro n m ⟨negated, p⟩ s ih
  show members f (n + 1) negated p s = members f (m + 1) negated p s
  have hle := (skip_suffix f s).length_le
  rw [members_succ, members_succ, skipping, skipping]
  cases hskip : f.skip s with
  | nil => rfl
  | cons c r =>
    rw [hskip, List.length_cons] at hle
    -- everything that goes on does so behind the first character
    have hrest : ∀ {negated : Bool} {p : Parts} {u : Text}, u <:+ r →
        members f n negated p u = members f m negated p u := by
      intro negated p u hu
      have hshort := hu.length_le
      exact ih (negated, p) u (by omega)
    rw [nonEmpty_cons, nonEmpty_cons]
    by_cases hopen : c = '['
    · rw [ifNext_of_pos (by simpa using hopen), ifNext_of_pos (by simpa using hopen), optional,
        optional]
      cases hascii : ascii? r with
      | some x => exact checking_congr fun y => hrest (ascii?_suffix hascii)
      | none =>
        refine andThen_congr rfl fun o u hopening => ?_
        have hu := (local_opening f).suffix hopening
        refine andThen_congr (hrest hu) fun x v hmembers => ?_
        exact hrest (((local_members f m _ _).suffix hmembers).trans hu)
    · have hmember : ∀ g k, ifNext (· == '[') g k (c :: r) =
          (k (c :: r) : Except _ (Charset × Text)) :=
        fun g k => ifNext_of_neg (by simpa using hopen) r
      rw [hmember, hmember]
      by_cases hclose : c = ']'
      · rw [ifNext_of_pos (by simpa using hclose), ifNext_of_pos (by simpa using hclose)]
      · have hinside : ∀ g k, ifNext (· == ']') g k (c :: r) =
            (k (c :: r) : Except _ (Charset × Text)) :=
          fun g k => ifNext_of_neg (by simpa using hclose) r
        rw [hinside, hinside, optional, optional]
        cases hoperator : operator? (c :: r) with
        | some x =>
          obtain ⟨d, heq⟩ := operator?_suffix hoperator
          obtain ⟨-, rfl⟩ := List.cons.inj heq
          exact hrest (List.suffix_cons d _)
        | none => exact andThen_congr rfl fun x u hrange => hrest (range_suffix hrange)

/-- **The reader of classes is local.** -/
theorem local_read (f : Flags) : Local (read f) := by
  have hread : read f = andThen (opening f) fun o =>
      fun s => members f (s.length + 1) o.1 ⟨none, o.2⟩ s := rfl
  rw [hread]
  apply LocalBut.andThen (local_opening f)
  · exact fun o => .ofFuel (fun n => local_members f n _ _) (members_fuel f _ _)
  · rintro o t x u hclosing h
    have ht : t = closing := hclosing
    subst ht
    exact absurd h members_closing

end ClassReader

end UriRouting.Regex
