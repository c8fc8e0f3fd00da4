/-
# UriRouting.Proofs.Text.Digits — the digits of a number in a base

The digits of a number are those of its quotient by the base and one more, so what holds of single
digits and is kept by one more digit behind holds of the digits of every number
(`toDigits_induction`).  In bases up to sixteen they are hexadecimal digits, of the value that they
were written for, and only zero is written with a zero in front.  The value of digits, whatever they
stand for, stays below the power of the base that they fill (`foldl_digits_lt`).
-/
import UriRouting.Percent
import UriRouting.Proofs.Text.Runs
import Mathlib.Algebra.GroupWithZero.Nat

namespace UriRouting.Text

/-- **What holds of the digits of a number**, by one digit after another. -/
theorem toDigits_induction {b : Nat} (hb : 1 < b) {P : Nat → Text → Prop}
    (small : ∀ d, d < b → P d [d.digitChar])
    (step : ∀ n d digits, 0 < n → d < b → digits ≠ [] → P n digits →
      P (b * n + d) (digits ++ [d.digitChar])) (n : Nat) : P n (Nat.toDigits b n) := by
  induction n using Nat.strongRecOn with
  | ind n ih =>
    rcases Nat.lt_or_ge n b with hn | hn
    · rw [Nat.toDigits_of_lt_base hn]
      exact small n hn
    · have hquotient : n / b < n := Nat.div_lt_self (by omega) hb
      have hstep := step (n / b) (n % b) _ (Nat.div_pos hn (by omega)) (Nat.mod_lt n (by omega))
        Nat.toDigits_ne_nil (ih _ hquotient)
      rw [Nat.div_add_mod] at hstep
      rw [Nat.toDigits_of_base_le hb hn]
      exact hstep

theorem hexValue_digitChar : ∀ d, d < 16 → Percent.hexValue d.digitChar = some d := by
  decide

theorem hexValue_lt {c : Char} : (Percent.hexValue c).getD 0 < 16 := by
  unfold Percent.hexValue
  simp only [Char.le_def, UInt32.le_iff_toNat_le]
  have hc : c.toNat = c.val.toNat := rfl
  split
  · next h =>
    have : '9'.val.toNat = 0x39 := rfl
    simp only [Option.getD_some]
    omega
  · split
    · next h =>
      have : 'f'.val.toNat = 0x66 := rfl
      simp only [Option.getD_some]
      omega
    · split
      · next h =>
        have : 'F'.val.toNat = 0x46 := rfl
        simp only [Option.getD_some]
        omega
      · decide

theorem ascii_of_hexValue {c : Char} (h : (Percent.hexValue c).isSome = true) : c.toNat < 0x80 := by
  unfold Percent.hexValue at h
  simp only [Char.le_def, UInt32.le_iff_toNat_le] at h
  have hc : c.toNat = c.val.toNat := rfl
  grind

theorem isAlphanum_of_hexValue {c : Char} (h : (Percent.hexValue c).isSome = true) :
    c.isAlphanum = true :=
  forall_of_ascii (P := fun c => (Percent.hexValue c).isSome = true → c.isAlphanum = true)
    (by decide) (ascii_of_hexValue h) h

/-- In bases up to sixteen the digits are hexadecimal digits. -/
theorem isSome_hexValue_of_mem_toDigits {b : Nat} (hb : 1 < b) (hb' : b ≤ 16) (n : Nat) :
    ∀ c ∈ Nat.toDigits b n, (Percent.hexValue c).isSome = true := by
  have hdigit : ∀ d, d < b → (Percent.hexValue d.digitChar).isSome = true := by
    intro d hd
    rw [hexValue_digitChar d (by omega)]
    rfl
  refine toDigits_induction hb (P := fun _ digits =>
    ∀ c ∈ digits, (Percent.hexValue c).isSome = true) ?_ ?_ n
  · intro d hd c hc
    rw [List.mem_singleton.mp hc]
    exact hdigit d hd
  · intro n d digits _ hd _ ih c hc
    rcases List.mem_append.mp hc with hfront | hlast
    · exact ih c hfront
    · rw [List.mem_singleton.mp hlast]
      exact hdigit d hd

/-- Digits below a base have a value below the power of the base that they fill. -/
theorem foldl_digits_lt {α : Type} {b : Nat} {f : α → Nat} {ds : List α} (h : ∀ d ∈ ds, f d < b)
    (acc : Nat) : ds.foldl (fun acc d => b * acc + f d) acc < b ^ ds.length * (acc + 1) := by
  induction ds generalizing acc with
  | nil => simp
  | cons d ds ih =>
    have hd := h d List.mem_cons_self
    have hrest := ih (fun e he => h e (List.mem_cons_of_mem d he)) (b * acc + f d)
    rw [List.foldl_cons, List.length_cons, Nat.pow_succ, Nat.mul_assoc]
    refine Nat.lt_of_lt_of_le hrest (Nat.mul_le_mul_left _ ?_)
    rw [Nat.mul_add, Nat.mul_one]
    omega

/-- Only zero is written with a zero in front. -/
theorem head?_toDigits {b : Nat} (hb : 1 < b) (n : Nat) :
    Nat.toDigits b n = ['0'] ∨ (Nat.toDigits b n).head? ≠ some '0' := by
  refine (toDigits_induction hb (P := fun n digits =>
    n = 0 ∧ digits = ['0'] ∨ digits.head? ≠ some '0') ?_ ?_ n).imp_left And.right
  · intro d _
    by_cases hd : d = 0
    · exact .inl ⟨hd, by rw [hd]; rfl⟩
    · exact .inr (by simpa using hd)
  · intro n d digits hn _ hne ih
    refine .inr ?_
    rcases ih with ⟨hzero, -⟩ | hhead
    · omega
    · obtain ⟨c, rest, rfl⟩ := List.exists_cons_of_ne_nil hne
      exact hhead

end UriRouting.Text
