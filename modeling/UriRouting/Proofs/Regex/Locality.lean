/-
# UriRouting.Proofs.Regex.Locality — reading in front of a closing parenthesis

What a reader takes off the front of a text does not depend on what stands behind it, as long as it
stops there.  `Local` says this of a reader for one text behind, the closing of a group at the end of
an expression: a reader that succeeds in front of the closing has run into it, or does the same where
the text ends instead.  It is closed under the ways in which the readers are put together, so it is
proved for each of them by taking it apart.

Two readers look further than they read.  A word boundary in front of an opening brace may have a
name in the brace, and so is refused where the text ends in the brace; with the closing behind it, it
is a boundary, and the brace is refused later (`IsBrace`).  A class refuses the end of the text
wherever it is in it; with the closing behind it, it comes to the closing and is never ended.
-/
import UriRouting.Proofs.Regex.Moves

namespace UriRouting.Regex

variable {α β : Type} {f : Flags} {s t : Text}

/-- The text behind an expression that is enclosed in a group. -/
def closing : Text := [')', '$']

/-! ## What verbose mode skips -/

theorem skipIgnored_suffix (comment : Bool) (s : Text) : skipIgnored comment s <:+ s := by
  induction s generalizing comment with
  | nil => cases comment <;> exact List.suffix_refl []
  | cons c r ih =>
    cases comment with
    | true => exact (ih (c != '\n')).trans (List.suffix_cons c r)
    | false =>
      rw [skipIgnored]
      split
      · exact (ih false).trans (List.suffix_cons c r)
      · split
        · exact (ih true).trans (List.suffix_cons c r)
        · exact List.suffix_refl _

theorem skip_suffix (f : Flags) (s : Text) : f.skip s <:+ s := by
  unfold Flags.skip
  split
  · exact skipIgnored_suffix false s
  · exact List.suffix_refl s

/-- A comment may swallow the closing. -/
theorem skipIgnored_append (comment : Bool) (s : Text) :
    skipIgnored comment (s ++ closing) = skipIgnored comment s ++ closing ∨
      skipIgnored comment (s ++ closing) = [] := by
  induction s generalizing comment with
  | nil => cases comment <;> decide
  | cons c r ih =>
    cases comment with
    | true => exact ih (c != '\n')
    | false =>
      rw [List.cons_append, skipIgnored, skipIgnored]
      split
      · exact ih false
      · split
        · exact ih true
        · exact .inl rfl

theorem skip_append (f : Flags) (s : Text) :
    f.skip (s ++ closing) = f.skip s ++ closing ∨ f.skip (s ++ closing) = [] := by
  unfold Flags.skip
  split
  · exact skipIgnored_append false s
  · exact .inl rfl

/-- A brace is not skipped. -/
theorem skip_brace (f : Flags) (r : Text) : f.skip ('{' :: r) = '{' :: r := by
  unfold Flags.skip
  split <;> rfl

theorem skip_closing (f : Flags) : f.skip closing = closing := by
  unfold Flags.skip
  split <;> rfl

theorem eq_closing_or_of_suffix (h : t <:+ closing) : t = closing ∨ t <:+ ['$'] :=
  List.suffix_cons_iff.mp h

/-! ## Local readers -/

/-- **`LocalBut extra g`** — in front of the closing, `g` comes into it, or leaves off as `extra`
says, or reads what it reads where the text ends. -/
structure LocalBut (extra : α → Text → Prop) (g : Reading α) : Prop where
  suffix : ∀ {s a t}, g s = .ok (a, t) → t <:+ s
  cut : ∀ {s a t}, g (s ++ closing) = .ok (a, t) →
    t <:+ ['$'] ∨ extra a t ∨ ∃ t', t = t' ++ closing ∧ g s = .ok (a, t')

/-- **`Local g`** — in front of the closing, `g` comes into it or reads what it reads where the text
ends. -/
abbrev Local (g : Reading α) : Prop := LocalBut (fun _ _ => False) g

variable {extra extra' : α → Text → Prop} {g k : Reading α}

theorem LocalBut.mono (hg : LocalBut extra g) (h : ∀ a t, extra a t → extra' a t) :
    LocalBut extra' g :=
  ⟨hg.suffix, fun hok => (hg.cut hok).imp_right (.imp_left (h _ _))⟩

theorem Local.but (hg : Local g) : LocalBut extra g := LocalBut.mono hg fun _ _ => False.elim

theorem LocalBut.give (a : α) : LocalBut extra (give a) where
  suffix h := by
    cases h
    exact List.suffix_refl _
  cut {s a t} h := by
    cases h
    exact .inr (.inr ⟨s, rfl, rfl⟩)

theorem LocalBut.refuse (e : RegexError) : LocalBut extra (refuse e : Reading α) where
  suffix h := by cases h
  cut h := by cases h

theorem LocalBut.andThen {extra : β → Text → Prop} {g : Reading β} {k : β → Reading α}
    (hg : LocalBut extra g) (hk : ∀ b, LocalBut extra' (k b))
    (hextra : ∀ {b t a u}, extra b t → k b t = .ok (a, u) → u <:+ ['$'] ∨ extra' a u) :
    LocalBut extra' (andThen g k) where
  suffix h := by
    obtain ⟨b, t, hfirst, hrest⟩ := andThen_eq_ok_iff.mp h
    exact ((hk b).suffix hrest).trans (hg.suffix hfirst)
  cut h := by
    obtain ⟨b, t, hfirst, hrest⟩ := andThen_eq_ok_iff.mp h
    rcases hg.cut hfirst with hspent | hleft | ⟨t, rfl, hsame⟩
    · exact .inl (((hk b).suffix hrest).trans hspent)
    · exact (hextra hleft hrest).imp_right .inl
    · rcases (hk b).cut hrest with hspent | hleft | ⟨u, rfl, hthen⟩
      · exact .inl hspent
      · exact .inr (.inl hleft)
      · exact .inr (.inr ⟨u, rfl, andThen_eq_ok_iff.mpr ⟨b, t, hsame, hthen⟩⟩)

theorem Local.andThen {g : Reading β} {k : β → Reading α} (hg : Local g)
    (hk : ∀ b, LocalBut extra (k b)) : LocalBut extra (andThen g k) :=
  LocalBut.andThen hg hk fun h => h.elim

theorem LocalBut.checking {x : Except RegexError β} {k : β → Reading α}
    (hk : ∀ b, LocalBut extra (k b)) : LocalBut extra (checking x k) := by
  cases x with
  | error e => exact .refuse e
  | ok b => exact hk b

theorem LocalBut.skipping (f : Flags) (hg : LocalBut extra g) :
    LocalBut extra (skipping f g) where
  suffix {s _ _} h := (hg.suffix h).trans (skip_suffix f s)
  cut {s a t} h := by
    unfold Regex.skipping at h
    rcases skip_append f s with hskip | hskip
    · rw [hskip] at h
      exact hg.cut h
    · rw [hskip] at h
      exact .inl ((hg.suffix h).trans List.nil_suffix)

/-- A function that treats the closing as any other text comes first. -/
theorem LocalBut.through (hg : LocalBut extra g) {h : Text → Text} (hsuffix : ∀ s, h s <:+ s)
    (happend : ∀ s, h (s ++ closing) = h s ++ closing) : LocalBut extra fun s => g (h s) where
  suffix {s _ _} hok := (hg.suffix hok).trans (hsuffix s)
  cut {s a t} hok := by
    rw [happend] at hok
    exact hg.cut hok

theorem LocalBut.next {e : RegexError} {k : Char → Reading α} (hk : ∀ c, LocalBut extra (k c)) :
    LocalBut extra (next e k) where
  suffix {s a t} h := by
    cases s with
    | nil => cases h
    | cons c r => exact ((hk c).suffix h).trans (List.suffix_cons c r)
  cut {s a t} h := by
    cases s with
    | nil => exact .inl ((hk ')').suffix h)
    | cons c r => exact (hk c).cut h

theorem LocalBut.ifNext {p : Char → Bool} {g : Char → Reading α} (hp : p ')' = false)
    (hg : ∀ c, LocalBut extra (g c)) (hk : LocalBut extra k) :
    LocalBut extra (ifNext p g k) where
  suffix {s a t} h := by
    cases s with
    | nil => exact hk.suffix h
    | cons c r =>
      by_cases hc : p c = true
      · rw [ifNext_of_pos hc] at h
        exact ((hg c).suffix h).trans (List.suffix_cons c r)
      · rw [ifNext_of_neg hc] at h
        exact hk.suffix h
  cut {s a t} h := by
    cases s with
    | nil =>
      rw [List.nil_append, closing, ifNext_of_neg (Bool.eq_false_iff.mp hp)] at h
      exact hk.cut h
    | cons c r =>
      rw [List.cons_append] at h
      by_cases hc : p c = true
      · rw [ifNext_of_pos hc] at h ⊢
        exact (hg c).cut h
      · rw [ifNext_of_neg hc] at h ⊢
        exact hk.cut h

/-- **Fuel is enough once it exceeds the text**, for readers that go on with shorter texts only. -/
theorem eq_of_fuel {ι : Type} {g : Nat → ι → Reading α}
    (hstep : ∀ {n m i s}, (∀ j (u : Text), u.length < s.length → g n j u = g m j u) →
      g (n + 1) i s = g (m + 1) i s)
    (i : ι) (n m : Nat) (s : Text) (hn : s.length < n) (hm : s.length < m) :
    g n i s = g m i s := by
  induction n generalizing i m s with
  | zero => exact absurd hn (Nat.not_lt_zero _)
  | succ n ih =>
    obtain ⟨m, rfl⟩ : ∃ k, m = k + 1 := ⟨m - 1, by omega⟩
    apply hstep
    intro j u hu
    exact ih j m u (by omega) (by omega)

/-- Readers with fuel, where more fuel than characters is always enough. -/
theorem LocalBut.ofFuel {g : Nat → Reading α} (hg : ∀ n, LocalBut extra (g n))
    (hfuel : ∀ n m s, s.length < n → s.length < m → g n s = g m s) :
    LocalBut extra fun s => g (s.length + 1) s where
  suffix h := (hg _).suffix h
  cut {s a t} h := by
    have hsame : g ((s ++ closing).length + 1) s = g (s.length + 1) s := by
      apply hfuel
      · rw [List.length_append]
        omega
      · exact Nat.lt_succ_self _
    rw [← hsame]
    exact (hg _).cut h

/-! ## Runs of characters -/

/-- **`runReading f p n`** — a run of at most `n` characters that pass `p`, with what verbose mode
skips behind each of them. -/
def runReading (f : Flags) (p : Char → Bool) : Nat → Reading Text
  | 0 => give []
  | n + 1 => ifNext p
    (fun c => andThen (skipping f (runReading f p n)) fun cs => give (c :: cs)) (give [])

theorem local_runReading {p : Char → Bool} (hp : p ')' = false) (f : Flags) (n : Nat) :
    Local (runReading f p n) := by
  induction n with
  | zero => exact .give []
  | succ n ih =>
    apply LocalBut.ifNext hp
    · intro c
      exact Local.andThen (.skipping f ih) fun cs => .give (c :: cs)
    · exact .give []

theorem runReading_fuel (f : Flags) (p : Char → Bool) (n m : Nat) (s : Text)
    (hn : s.length < n) (hm : s.length < m) : runReading f p n s = runReading f p m s := by
  refine eq_of_fuel (g := fun n (_ : Unit) => runReading f p n) ?_ () n m s hn hm
  intro n m _ s ih
  cases s with
  | nil => rfl
  | cons c r =>
    have hle := (skip_suffix f r).length_le
    have hrest : runReading f p n (f.skip r) = runReading f p m (f.skip r) :=
      ih () (f.skip r) (Nat.lt_succ_of_le hle)
    simp only [runReading, ifNext, andThen, skipping, hrest]

/-- A run with room for the whole text. -/
theorem local_run {p : Char → Bool} (hp : p ')' = false) (f : Flags) :
    Local fun s => runReading f p (s.length + 1) s :=
  .ofFuel (local_runReading hp f) (runReading_fuel f p)

/-! ## Escapes -/

theorem hexDigits_succ (f : Flags) (n : Nat) :
    hexDigits f (n + 1) = skipping f (next .badEscape fun c =>
      if (Percent.hexValue c).isSome then andThen (hexDigits f n) fun ds => give (c :: ds)
      else refuse .badEscape) := by
  funext s
  rw [hexDigits, skipping]
  cases f.skip s with
  | nil => rfl
  | cons c r =>
    simp only [next]
    split <;> rfl

theorem local_hexDigits (f : Flags) (n : Nat) : Local (hexDigits f n) := by
  induction n with
  | zero => exact .give []
  | succ n ih =>
    rw [hexDigits_succ]
    apply LocalBut.skipping
    apply LocalBut.next
    intro c
    split
    · exact ih.andThen fun ds => .give (c :: ds)
    · exact .refuse _

theorem toBrace_succ (f : Flags) (allowed : Char → Bool) (n : Nat) :
    toBrace f allowed (n + 1) = skipping f (next .badEscape fun c =>
      if c = '}' then give []
      else if allowed c then andThen (toBrace f allowed n) fun cs => give (c :: cs)
      else refuse .badEscape) := by
  funext s
  rw [toBrace, skipping]
  cases f.skip s with
  | nil => rfl
  | cons c r =>
    by_cases hc : c = '}'
    · subst hc
      rfl
    · simp only [next, hc, if_false]
      split <;> rfl

theorem local_toBrace (f : Flags) (allowed : Char → Bool) (n : Nat) :
    Local (toBrace f allowed n) := by
  induction n with
  | zero => exact .refuse _
  | succ n ih =>
    rw [toBrace_succ]
    apply LocalBut.skipping
    apply LocalBut.next
    intro c
    split
    · exact .give _
    · split
      · exact ih.andThen fun cs => .give (c :: cs)
      · exact .refuse _

theorem toBrace_fuel (f : Flags) (allowed : Char → Bool) (n m : Nat) (s : Text)
    (hn : s.length < n) (hm : s.length < m) : toBrace f allowed n s = toBrace f allowed m s := by
  refine eq_of_fuel (g := fun n (_ : Unit) => toBrace f allowed n) ?_ () n m s hn hm
  intro n m _ s ih
  have hle := (skip_suffix f s).length_le
  rw [toBrace_succ, toBrace_succ, skipping, skipping]
  cases hskip : f.skip s with
  | nil => rfl
  | cons c r =>
    rw [hskip, List.length_cons] at hle
    have hrest : toBrace f allowed n r = toBrace f allowed m r := ih () r (by omega)
    simp only [next]
    split
    · rfl
    · split
      · rw [andThen, andThen, hrest]
      · rfl

/-- What stands in braces, with room for the whole text. -/
theorem local_braced (f : Flags) (allowed : Char → Bool) :
    Local fun s => toBrace f allowed (s.length + 1) s :=
  .ofFuel (local_toBrace f allowed) (toBrace_fuel f allowed)

/-- A character of a fixed number of digits. -/
def digitsEscape (f : Flags) (count : Nat) : Reading Atom :=
  andThen (hexDigits f count) fun ds => checking (charOfHex ds) fun c =>
    if !f.unicode && count == 2 && 0x7F < c.toNat then refuse .bytesNotText
    else give (.char c)

theorem digitsEscape_eq (f : Flags) (count : Nat) (s : Text) :
    digitsEscape f count s = hexDigits f count s >>= fun (ds, r) => charOfHex ds >>= fun c =>
      if !f.unicode && count == 2 && 0x7F < c.toNat then .error .bytesNotText
      else .ok (.char c, r) := by
  unfold digitsEscape andThen
  cases hexDigits f count s with
  | error e => rfl
  | ok x =>
    show (charOfHex x.1 >>= _) = (charOfHex x.1 >>= _)
    cases charOfHex x.1 with
    | error e => rfl
    | ok c =>
      show (if _ then _ else _ : Reading Atom) x.2 = if _ then _ else _
      split <;> rfl

theorem hexEscape_eq (f : Flags) (count : Nat) :
    hexEscape f count = skipping f (ifNext (· == '{')
      (fun _ => andThen (fun r => toBrace f (fun c => (Percent.hexValue c).isSome) (r.length + 1) r)
        fun ds =>
        checking (charOfHex ds) fun c => give (.char c))
      (digitsEscape f count)) := by
  funext s
  rw [hexEscape, skipping]
  cases f.skip s with
  | nil => exact (digitsEscape_eq f count []).symm
  | cons c r =>
    by_cases hc : c = '{'
    · subst hc
      rfl
    · rw [ifNext_of_neg (by simpa using hc), digitsEscape_eq]
      split
      case h_1 h => exact absurd (List.cons.inj h).1 hc
      case h_2 => rfl

theorem local_hexEscape (f : Flags) (count : Nat) : Local (hexEscape f count) := by
  rw [hexEscape_eq]
  apply LocalBut.skipping
  apply LocalBut.ifNext rfl
  · intro _
    apply Local.andThen (local_braced f _)
    exact fun ds => .checking fun c => .give _
  · apply Local.andThen (local_hexDigits f count)
    refine fun ds => .checking fun c => ?_
    split
    · exact .refuse _
    · exact .give _

theorem local_perlClass (f : Flags) (negated : Bool) (unicode ascii : Charset) :
    Local (perlClass f negated unicode ascii) := by
  unfold perlClass
  split
  · exact .give _
  · split
    · exact .refuse _
    · exact .give _

theorem propertyName_eq (f : Flags) :
    propertyName f = skipping f (next .badEscape fun c =>
      if c = '{' then fun r => toBrace f (fun _ => true) (r.length + 1) r
      else if c = '\\' then refuse .unknownClass else give [c]) := by
  funext s
  rw [propertyName, skipping]
  cases f.skip s with
  | nil => rfl
  | cons c r =>
    by_cases hc : c = '{'
    · subst hc
      rfl
    · simp only [next, hc, if_false]
      split <;> rfl

theorem local_propertyName (f : Flags) : Local (propertyName f) := by
  rw [propertyName_eq]
  apply LocalBut.skipping
  apply LocalBut.next
  intro c
  split
  · exact local_braced f _
  · split
    · exact .refuse _
    · exact .give _

theorem local_propertyClass [Unicode] (f : Flags) (negated : Bool) :
    Local (propertyClass f negated) := by
  have hparts : propertyClass f negated = andThen (propertyName f) fun name =>
      if !f.unicode || (Unicode.property? name).isNone then refuse .unknownClass
      else give (.set (if negated then .complement (f.inCase (.property name))
        else f.inCase (.property name))) := by
    funext s
    unfold propertyClass andThen
    cases propertyName f s with
    | error e => rfl
    | ok x =>
      show (if _ then _ else _) = (if _ then _ else _ : Reading Atom) x.2
      split <;> rfl
  rw [hparts]
  apply (local_propertyName f).andThen
  intro name
  split
  · exact .refuse _
  · exact .give _

theorem boundaryName_eq (f : Flags) (n : Nat) (s : Text) :
    runReading f isBoundaryNameChar n s = .ok (boundaryName f n s) := by
  induction n generalizing s with
  | zero => rfl
  | succ n ih =>
    cases s with
    | nil => rfl
    | cons c r =>
      simp only [runReading, ifNext, boundaryName]
      split
      · rw [andThen, skipping, ih]
        rfl
      · rfl

/-- The word boundary of a name. -/
def boundaryOf (f : Flags) (n : Text) : Except RegexError Atom :=
  match String.ofList n with
  | "start" => .ok (.look (.wordStart !f.unicode))
  | "end" => .ok (.look (.wordEnd !f.unicode))
  | "start-half" => .ok (.look (.wordStartHalf !f.unicode))
  | "end-half" => .ok (.look (.wordEndHalf !f.unicode))
  | _ => .error .badEscape

/-- A name up to the closing brace. -/
def namedBoundary (f : Flags) : Reading Atom :=
  andThen (fun s => runReading f isBoundaryNameChar (s.length + 1) s) fun n =>
    ifNext (· == '}') (fun _ => checking (boundaryOf f n) give) (refuse .badEscape)

theorem local_namedBoundary (f : Flags) : Local (namedBoundary f) := by
  apply Local.andThen (local_run (by decide) f)
  exact fun n => .ifNext rfl (fun _ => .checking fun a => .give a) (.refuse _)

theorem boundary_of_ne {c : Char} (hc : c ≠ '{') (r : Text) :
    boundary f (c :: r) = .ok (.look (.wordBoundary !f.unicode), c :: r) := by
  unfold boundary
  split
  case h_1 h => exact absurd (List.cons.inj h).1 hc
  case h_2 => rfl

theorem boundary_brace (f : Flags) (r : Text) :
    boundary f ('{' :: r) = next .badEscape (fun c r' =>
      if isBoundaryNameChar c then namedBoundary f (c :: r')
      else .ok (.look (.wordBoundary !f.unicode), '{' :: r)) (f.skip r) := by
  unfold boundary
  cases hskip : f.skip r with
  | nil => simp [hskip, next]
  | cons c r' =>
    simp only [hskip, next]
    split
    · have hlength : r'.length + 2 = (c :: r').length + 1 := rfl
      rw [hlength, namedBoundary, andThen, boundaryName_eq]
      obtain ⟨n, rest⟩ := boundaryName f ((c :: r').length + 1) (c :: r')
      show _ = ifNext (· == '}') (fun _ => checking (boundaryOf f n) give) (refuse .badEscape) rest
      cases rest with
      | nil => rfl
      | cons d rest =>
        by_cases hd : d = '}'
        · subst hd
          show _ = boundaryOf f n >>= fun a => .ok (a, rest)
          unfold boundaryOf
          simp only
          generalize String.ofList n = name
          split
          case h_5 =>
            -- the name is none of the four
            try simp only [*]
            rfl
          all_goals rfl
        · rw [ifNext_of_neg (by simpa using hd)]
          simp [refuse, hd]
    · rfl

/-- **`IsBrace f t`** — an opening brace, with what verbose mode skips up to the closing. -/
def IsBrace (f : Flags) (t : Text) : Prop := ∃ r, t = '{' :: r ∧ f.skip r = closing

/-- A word boundary may leave off in front of a brace. -/
def LooksAhead (f : Flags) (a : Atom) (t : Text) : Prop := (∃ l, a = .look l) ∧ IsBrace f t

/-- A brace behind a boundary, read where it is followed by the closing. -/
theorem boundary_brace_cut {r : Text} {a : Atom}
    (h : boundary f ('{' :: r ++ closing) = .ok (a, t)) :
    t <:+ ['$'] ∨ LooksAhead f a t ∨
      ∃ t', t = t' ++ closing ∧ boundary f ('{' :: r) = .ok (a, t') := by
  rw [List.cons_append, boundary_brace] at h
  rw [boundary_brace]
  rcases skip_append f r with hskip | hskip
  · rw [hskip] at h
    cases hr : f.skip r with
    | nil =>
      -- up to the closing there is no name
      rw [hr] at h hskip
      cases h
      exact .inr (.inl ⟨⟨_, rfl⟩, r ++ closing, rfl, hskip⟩)
    | cons d r' =>
      rw [hr] at h
      simp only [next, List.cons_append] at h ⊢
      split at h
      case isTrue hd =>
        rw [if_pos hd]
        rw [← List.cons_append] at h
        exact ((local_namedBoundary f).cut h).imp_right (.imp_left False.elim)
      case isFalse hd =>
        rw [if_neg hd]
        cases h
        exact .inr (.inr ⟨'{' :: r, rfl, rfl⟩)
  · rw [hskip] at h
    cases h

theorem boundary_brace_suffix {r : Text} {a : Atom} (h : boundary f ('{' :: r) = .ok (a, t)) :
    t <:+ '{' :: r := by
  rw [boundary_brace] at h
  cases hskip : f.skip r with
  | nil =>
    rw [hskip] at h
    cases h
  | cons d r' =>
    have hr := hskip ▸ skip_suffix f r
    rw [hskip] at h
    simp only [next] at h
    split at h
    · exact ((local_namedBoundary f).suffix h).trans (hr.trans (List.suffix_cons _ r))
    · cases h
      exact List.suffix_refl _

theorem local_boundary (f : Flags) : LocalBut (LooksAhead f) (boundary f) where
  suffix {s a t} h := by
    cases s with
    | nil =>
      cases h
      exact List.suffix_refl _
    | cons c r =>
      by_cases hc : c = '{'
      · subst hc
        exact boundary_brace_suffix h
      · rw [boundary_of_ne hc] at h
        cases h
        exact List.suffix_refl _
  cut {s a t} h := by
    cases s with
    | nil =>
      cases h
      exact .inr (.inr ⟨[], rfl, rfl⟩)
    | cons c r =>
      by_cases hc : c = '{'
      · subst hc
        exact boundary_brace_cut h
      · rw [List.cons_append, boundary_of_ne hc] at h
        cases h
        exact .inr (.inr ⟨c :: r, rfl, boundary_of_ne hc r⟩)

theorem local_escape [Unicode] (f : Flags) : LocalBut (LooksAhead f) (escape f) := by
  have hnext : escape f = next .badEscape fun c r => escape f (c :: r) := by
    funext s
    cases s <;> rfl
  rw [hnext]
  apply LocalBut.next
  intro c
  simp only [escape]
  split
  case h_1 | h_2 | h_3 => exact Local.but (local_hexEscape f _)
  case h_4 | h_5 | h_6 | h_7 | h_8 | h_9 => exact Local.but (local_perlClass f _ _ _)
  case h_10 | h_11 => exact Local.but (local_propertyClass f _)
  case h_20 => exact local_boundary f
  case h_24 =>
    split
    · exact .refuse _
    · split
      · exact .give _
      · exact .refuse _
  all_goals exact .give _

end UriRouting.Regex
