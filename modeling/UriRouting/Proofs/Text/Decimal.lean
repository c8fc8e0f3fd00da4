/-
# UriRouting.Proofs.Text.Decimal — numbers and their decimal text

What a text writes is said by the place of each digit (`positional`): the last one counts once, the
one before it ten times, and so on.  A reader that goes through the digits from the left finds the
same number (`value_eq_positional`), whatever their count.  So `intOf?` reads exactly the texts of one
sign at most and some digits, as the integers they write (`intOf?_eq_some_iff`), and `signed64?`
those of them that fit (`signed64?_eq_some_iff`).

The fewest digits of a number are digits, are read back as the number, and so tell numbers apart.
-/
import UriRouting.Text.Basic
import Mathlib.Data.List.Induction
import Mathlib.Data.Nat.Digits.Defs

namespace UriRouting.Text.Decimal

/-! ## What digits write -/

/-- **`IsNumeral t`** — one or more ASCII digits. -/
def IsNumeral (t : Text) : Prop := t ≠ [] ∧ ∀ c ∈ t, '0' ≤ c ∧ c ≤ '9'

instance (t : Text) : Decidable (IsNumeral t) := inferInstanceAs (Decidable (_ ∧ _))

/-- **`positional digits`** — the sum of the digits, each times ten for every digit behind it. -/
def positional (digits : Text) : Nat :=
  Nat.ofDigits 10 (digits.reverse.map fun c => c.toNat - '0'.toNat)

/-- **`Writes t n`** — the text writes the integer: digits, with at most one sign in front. -/
inductive Writes : Text → Int → Prop
  | unsigned {digits : Text} (h : IsNumeral digits) : Writes digits (positional digits)
  | plus {digits : Text} (h : IsNumeral digits) : Writes ('+' :: digits) (positional digits)
  | minus {digits : Text} (h : IsNumeral digits) : Writes ('-' :: digits) (-positional digits)

theorem isDigit_iff {c : Char} : c.isDigit = true ↔ '0' ≤ c ∧ c ≤ '9' := by
  rw [Char.isDigit_iff_toNat]
  exact Iff.rfl

theorem isNumeral_iff {t : Text} : IsNumeral t ↔ t ≠ [] ∧ t.all Char.isDigit = true := by
  simp only [IsNumeral, List.all_eq_true, isDigit_iff]

theorem value_concat (acc : Nat) (digits : Text) (c : Char) :
    value acc (digits ++ [c]) = 10 * value acc digits + (c.toNat - '0'.toNat) := by
  rw [value, Nat.ofDigitChars_append, Nat.ofDigitChars_cons, Nat.ofDigitChars_nil, value]

/-- **Reading from the left finds the positional value.** -/
theorem value_eq_positional (digits : Text) : value 0 digits = positional digits := by
  induction digits using List.reverseRecOn with
  | nil => rfl
  | append_singleton digits c ih =>
    have hlast : positional (digits ++ [c]) = (c.toNat - '0'.toNat) + 10 * positional digits := by
      simp [positional, Nat.ofDigits_cons]
    rw [value_concat, ih, hlast]
    omega

/-! ## Reading -/

theorem natOf?_eq_some_iff {t : Text} {n : Nat} :
    natOf? t = some n ↔ IsNumeral t ∧ n = positional t := by
  rw [natOf?, isNumeral_iff, value_eq_positional]
  split
  · next h => simp [h, eq_comm]
  · next h => exact iff_of_false nofun fun hn => h hn.1

theorem natOf?_of_isNumeral {t : Text} (h : IsNumeral t) : natOf? t = some (positional t) :=
  natOf?_eq_some_iff.mpr ⟨h, rfl⟩

/-- Digits alone are read as they are: the first of them is no sign. -/
theorem intOf?_of_isNumeral {t : Text} (h : IsNumeral t) :
    intOf? t = (natOf? t).map Int.ofNat := by
  unfold intOf?
  split
  · next digits => exact absurd (h.2 '+' List.mem_cons_self) (by decide)
  · next digits => exact absurd (h.2 '-' List.mem_cons_self) (by decide)
  · rfl

/-- **Integers are read from the texts that write them**, and from no other text. -/
theorem intOf?_eq_some_iff {t : Text} {n : Int} : intOf? t = some n ↔ Writes t n := by
  constructor
  · intro h
    unfold intOf? at h
    split at h <;> obtain ⟨m, hm, rfl⟩ := Option.map_eq_some_iff.mp h <;>
      obtain ⟨hdigits, rfl⟩ := natOf?_eq_some_iff.mp hm
    · exact .plus hdigits
    · exact .minus hdigits
    · exact .unsigned hdigits
  · intro h
    cases h with
    | unsigned hdigits =>
      rw [intOf?_of_isNumeral hdigits, natOf?_of_isNumeral hdigits]
      rfl
    | plus hdigits =>
      rw [intOf?, natOf?_of_isNumeral hdigits]
      rfl
    | minus hdigits =>
      rw [intOf?, natOf?_of_isNumeral hdigits]
      rfl

theorem signed64?_eq_some_iff {t : Text} {n : Int} :
    signed64? t = some n ↔ Writes t n ∧ InSigned64 n := by
  rw [← intOf?_eq_some_iff, signed64?]
  cases intOf? t with
  | none => simp
  | some m =>
    simp only [Option.some.injEq]
    split
    · next hfits =>
      rw [Option.some.injEq]
      exact ⟨fun h => ⟨h, h ▸ hfits⟩, And.left⟩
    · next hfits =>
      refine iff_of_false nofun ?_
      rintro ⟨rfl, h⟩
      exact hfits h

/-! ## Writing -/

theorem ofNat_ne_nil (n : Nat) : ofNat n ≠ [] := Nat.toDigits_ne_nil

theorem isDigit_of_mem_ofNat {n : Nat} {c : Char} (h : c ∈ ofNat n) : c.isDigit = true :=
  Nat.isDigit_of_mem_toDigits (by decide) (by decide) h

@[simp] theorem value_ofNat (n : Nat) : value 0 (ofNat n) = n := Nat.ofDigitChars_ten_toDigits

theorem isNumeral_ofNat (n : Nat) : IsNumeral (ofNat n) :=
  ⟨ofNat_ne_nil n, fun _ hc => isDigit_iff.mp (isDigit_of_mem_ofNat hc)⟩

theorem positional_ofNat (n : Nat) : positional (ofNat n) = n := by
  rw [← value_eq_positional, value_ofNat]

/-- Different numbers have different digits. -/
theorem ofNat_inj {m n : Nat} : ofNat m = ofNat n ↔ m = n := by
  refine ⟨fun h => ?_, congrArg ofNat⟩
  rw [← value_ofNat m, h, value_ofNat]

/-- An integer is written as a text that writes it. -/
theorem writes_ofInt (n : Int) : Writes (ofInt n) n := by
  cases n with
  | ofNat n =>
    have hwrites := Writes.unsigned (isNumeral_ofNat n)
    rw [positional_ofNat] at hwrites
    exact hwrites
  | negSucc n =>
    have hwrites := Writes.minus (isNumeral_ofNat (n + 1))
    rw [positional_ofNat] at hwrites
    exact hwrites

/-- An integer is written with digits and perhaps a minus sign. -/
theorem mem_ofInt {n : Int} {c : Char} (h : c ∈ ofInt n) : c = '-' ∨ c.isDigit = true := by
  cases n with
  | ofNat n => exact .inr (isDigit_of_mem_ofNat h)
  | negSucc n =>
    rw [ofInt, List.mem_cons] at h
    exact h.imp_right isDigit_of_mem_ofNat

theorem ofInt_ne_nil (n : Int) : ofInt n ≠ [] := by
  cases n with
  | ofNat n => exact ofNat_ne_nil n
  | negSucc n => exact List.cons_ne_nil _ _

end UriRouting.Text.Decimal
