/-
# UriRouting.Proofs.Regex.Combinators — readers put together from readers

The readers of the parts of an expression all take something off the front of a text, or fail.  They
are put together in a few ways: one after the other, by the next character, after what is skipped.
With a name for each of these, what is to be shown of a reader is shown of its parts, and once of
every way.
-/
import UriRouting.Proofs.FirstFault
import UriRouting.Regex.Reader

namespace UriRouting.Regex

/-- **`Reading α`** — takes something off the front of a text. -/
abbrev Reading (α : Type) := Text → Except RegexError (α × Text)

variable {α β : Type} {s t : Text}

/-- Reads nothing and gives a value. -/
def give (a : α) : Reading α := fun s => .ok (a, s)

/-- Fails. -/
def refuse (e : RegexError) : Reading α := fun _ => .error e

/-- **`andThen g k`** — one reader after the other. -/
def andThen (g : Reading β) (k : β → Reading α) : Reading α := fun s =>
  g s >>= fun x => k x.1 x.2

/-- A check that reads nothing comes first. -/
def checking (x : Except RegexError β) (k : β → Reading α) : Reading α := fun s =>
  x >>= fun b => k b s

/-- What verbose mode skips comes first. -/
def skipping (f : Flags) (g : Reading α) : Reading α := fun s => g (f.skip s)

/-- **`next e k`** — a character, which there must be, decides. -/
def next (e : RegexError) (k : Char → Reading α) : Reading α
  | [] => .error e
  | c :: r => k c r

/-- **`ifNext p g k`** — a character of a class is given to `g`, and `k` reads everything else. -/
def ifNext (p : Char → Bool) (g : Char → Reading α) (k : Reading α) : Reading α
  | [] => k []
  | c :: r => if p c then g c r else k (c :: r)

/-- **`nonEmpty e g`** — there must be something to read. -/
def nonEmpty (e : RegexError) (g : Reading α) : Reading α
  | [] => .error e
  | c :: r => g (c :: r)

/-- **`optional o g k`** — what can be read by `o` is given to `g`, and `k` reads everything else. -/
def optional (o : Text → Option (β × Text)) (g : β → Reading α) (k : Reading α) : Reading α :=
  fun s => match o s with
    | some (b, r) => g b r
    | none => k s

theorem andThen_eq_ok_iff {g : Reading β} {k : β → Reading α} {a : α} :
    andThen g k s = .ok (a, t) ↔ ∃ b r, g s = .ok (b, r) ∧ k b r = .ok (a, t) := by
  unfold andThen
  rw [bind_eq_ok_iff]
  exact Prod.exists

/-- Two sequences do the same if their first readers do, and their second behind these. -/
theorem andThen_congr {g g' : Reading β} {k k' : β → Reading α} (hg : g s = g' s)
    (hk : ∀ b t, g' s = .ok (b, t) → k b t = k' b t) : andThen g k s = andThen g' k' s := by
  unfold andThen
  rw [hg]
  cases h : g' s with
  | error e => rfl
  | ok x => exact hk x.1 x.2 h

theorem checking_congr {x : Except RegexError β} {k k' : β → Reading α}
    (hk : ∀ b, k b s = k' b s) : checking x k s = checking x k' s := by
  cases x with
  | error e => rfl
  | ok b => exact hk b

theorem checking_give_eq_ok_iff {x : Except RegexError α} {a : α} :
    checking x give s = .ok (a, t) ↔ x = .ok a ∧ t = s := by
  cases x with
  | error e => simp [checking, bind, Except.bind]
  | ok b => simp [checking, give, bind, Except.bind, eq_comm]

theorem nonEmpty_cons (e : RegexError) (g : Reading α) (c : Char) (r : Text) :
    nonEmpty e g (c :: r) = g (c :: r) := rfl

section

variable {p : Char → Bool} {g : Char → Reading α} {k : Reading α} {c : Char}

theorem ifNext_of_pos (hc : p c = true) (r : Text) : ifNext p g k (c :: r) = g c r := if_pos hc

theorem ifNext_of_neg (hc : p c ≠ true) (r : Text) : ifNext p g k (c :: r) = k (c :: r) :=
  if_neg hc

theorem ifNext_eq_of_not_starts (h : ∀ r, s ≠ c :: r) : ifNext (· == c) g k s = k s := by
  cases s with
  | nil => rfl
  | cons d r =>
    apply ifNext_of_neg
    intro hd
    exact h r (by rw [beq_iff_eq.mp hd])

theorem ifNext_cons_of_ne {d : Char} (hd : d ≠ c) (r : Text) :
    ifNext (· == c) g k (d :: r) = k (d :: r) := by
  apply ifNext_of_neg
  intro heq
  exact hd (beq_iff_eq.mp heq)

end

/-! ## What can be read -/

/-- **`Gives P g`** — everything that the reader reads is of the kind `P`. -/
structure Gives (P : α → Prop) (g : Reading α) : Prop where
  holds : ∀ {s a t}, g s = .ok (a, t) → P a

variable {P : α → Prop}

theorem Gives.give {a : α} (h : P a) : Gives P (give a) where
  holds hok := by
    cases hok
    exact h

theorem Gives.refuse (e : RegexError) : Gives P (refuse e) where
  holds hok := by cases hok

theorem Gives.andThen {Q : β → Prop} {g : Reading β} {k : β → Reading α} (hg : Gives Q g)
    (hk : ∀ b, Q b → Gives P (k b)) : Gives P (andThen g k) where
  holds hok := by
    obtain ⟨b, r, hfirst, hrest⟩ := andThen_eq_ok_iff.mp hok
    exact (hk b (hg.holds hfirst)).holds hrest

/-- It need not matter what is read first. -/
theorem Gives.anyThen {g : Reading β} {k : β → Reading α} (hk : ∀ b, Gives P (k b)) :
    Gives P (Regex.andThen g k) :=
  Gives.andThen (Q := fun _ => True) ⟨fun _ => trivial⟩ fun b _ => hk b

theorem Gives.checking {x : Except RegexError β} {k : β → Reading α}
    (hk : ∀ b, x = .ok b → Gives P (k b)) : Gives P (checking x k) where
  holds hok := by
    obtain ⟨b, hb, hrest⟩ := bind_eq_ok_iff.mp hok
    exact (hk b hb).holds hrest

theorem Gives.skipping (f : Flags) {g : Reading α} (hg : Gives P g) : Gives P (skipping f g) :=
  ⟨fun hok => hg.holds hok⟩

theorem Gives.ifNext {p : Char → Bool} {g : Char → Reading α} {k : Reading α}
    (hg : ∀ c, Gives P (g c)) (hk : Gives P k) : Gives P (ifNext p g k) where
  holds {s a t} hok := by
    cases s with
    | nil => exact hk.holds hok
    | cons c r =>
      by_cases hc : p c = true
      · rw [ifNext_of_pos hc] at hok
        exact (hg c).holds hok
      · rw [ifNext_of_neg hc] at hok
        exact hk.holds hok

end UriRouting.Regex
