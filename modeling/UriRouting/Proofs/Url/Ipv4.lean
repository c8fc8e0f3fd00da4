/-
# UriRouting.Proofs.Url.Ipv4 — an IPv4 address is read back

An address is written as its four bytes in decimal.  None of them has a zero in front that would make
it octal, and their values are put together to the address again (`read_render`).  The last one is a
number, so the text is taken for an address and not for a name.  Whatever way an address was written,
it has 32 bits (`lt_of_read`).
-/
import UriRouting.Url.Host
import UriRouting.Proofs.Text.Decimal
import UriRouting.Proofs.Text.Digits
import UriRouting.Proofs.Text.Pieces

namespace UriRouting.Url.Ipv4

open Text (Decimal.ofNat)

/-! ## One number -/

theorem valueIn_toDigits {b : Nat} (hb : 1 < b) (hb' : b ≤ 16) (n : Nat) :
    valueIn b (Nat.toDigits b n) = some n := by
  refine Text.toDigits_induction hb (P := fun n digits => valueIn b digits = some n) ?_ ?_ n
  · intro d hd
    simp [valueIn, Text.hexValue_digitChar d (by omega), hd]
  · intro n d digits _ hd _ ih
    unfold valueIn at ih ⊢
    rw [List.foldlM_append, ih]
    simp [Text.hexValue_digitChar d (by omega), hd]

/-- A number is read from its decimal digits: none of them is a zero in front. -/
theorem number?_ofNat (n : Nat) : number? (Decimal.ofNat n) = some n := by
  have hvalue : valueIn 10 (Decimal.ofNat n) = some n :=
    valueIn_toDigits (by decide) (by decide) n
  have hdigit : ∀ c ∈ Decimal.ofNat n, c.isDigit = true :=
    fun c => Text.Decimal.isDigit_of_mem_ofNat
  rcases Text.head?_toDigits (by decide : 1 < 10) n with hzero | hhead
  · rw [Decimal.ofNat] at hvalue ⊢
    rw [hzero] at hvalue ⊢
    exact hvalue
  · change (Decimal.ofNat n).head? ≠ some '0' at hhead
    unfold number?
    split
    · next hnil => exact absurd hnil (Text.Decimal.ofNat_ne_nil n)
    · next heq => exact absurd (by rw [heq]; rfl) hhead
    · next heq => exact absurd (by rw [heq]; rfl) hhead
    · next heq => exact absurd (by rw [heq]; rfl) hhead
    · exact hvalue

/-! ## Reading what was written -/

variable {a : Nat} {host : Text}

/-- The four bytes of an address, in decimal. -/
def byteTexts (a : Nat) : List Text :=
  [a / bytes 3 % 256, a / bytes 2 % 256, a / 256 % 256, a % 256].map Decimal.ofNat

theorem render_eq (a : Nat) : render a = Text.joinWith ['.'] (byteTexts a) := rfl

theorem isDigit_of_mem_byteTexts {t : Text} (h : t ∈ byteTexts a) :
    t ≠ [] ∧ ∀ c ∈ t, c.isDigit = true := by
  obtain ⟨n, -, rfl⟩ := List.mem_map.mp h
  exact ⟨Text.Decimal.ofNat_ne_nil n, fun c => Text.Decimal.isDigit_of_mem_ofNat⟩

theorem mem_render {c : Char} (h : c ∈ render a) : c = '.' ∨ c.isDigit = true := by
  rcases Text.mem_joinWith h with hdot | ⟨t, ht, hc⟩
  · exact .inl (List.mem_singleton.mp hdot)
  · exact .inr ((isDigit_of_mem_byteTexts ht).2 c hc)

theorem render_ne_nil (a : Nat) : render a ≠ [] :=
  List.append_ne_nil_of_left_ne_nil
    (List.append_ne_nil_of_left_ne_nil (Text.Decimal.ofNat_ne_nil _) _) _

theorem parts_render (a : Nat) : parts (render a) = byteTexts a := by
  have hpieces : Text.pieces '.' (render a) = byteTexts a := by
    refine Text.pieces_joinWith (fun t ht hdot => ?_) (List.cons_ne_nil _ _)
    exact absurd ((isDigit_of_mem_byteTexts ht).2 '.' hdot) (by decide)
  have hlast : (byteTexts a).getLast? ≠ some [] := fun h =>
    (isDigit_of_mem_byteTexts (List.mem_of_getLast? h)).1 rfl
  rw [parts, hpieces]
  exact if_neg hlast

theorem endsInNumber_render (a : Nat) : endsInNumber (render a) = true := by
  rw [endsInNumber, parts_render]
  have hlast : (byteTexts a).getLast? = some (Decimal.ofNat (a % 256)) := rfl
  obtain ⟨hne, hdigits⟩ := isDigit_of_mem_byteTexts (List.mem_of_getLast? hlast)
  rw [hlast]
  simp only [Bool.or_eq_true, Bool.and_eq_true, decide_eq_true_iff, List.all_eq_true]
  exact .inl ⟨hne, hdigits⟩

/-- **An address is read from its four bytes.** -/
theorem read_render (h : a < 2 ^ 32) : read (render a) = some a := by
  have hnumbers : (parts (render a)).mapM number? =
      some [a / bytes 3 % 256, a / bytes 2 % 256, a / 256 % 256, a % 256] := by
    rw [parts_render, byteTexts]
    simp [number?_ofNat]
  have hleading : ∀ n ∈ [a / bytes 3 % 256, a / bytes 2 % 256, a / 256 % 256], n < 256 := by
    simp [Nat.mod_lt]
  have hassemble : assemble [a / bytes 3 % 256, a / bytes 2 % 256, a / 256 % 256] (a % 256) =
      some a := by
    have hlast : a % 256 < bytes 1 := Nat.mod_lt a (by decide)
    have hvalue : (256 * (256 * (256 * 0 + a / bytes 3 % 256) + a / bytes 2 % 256) +
        a / 256 % 256) * bytes 1 + a % 256 = a := by
      simp only [bytes, Nat.pow_eq]
      omega
    rw [assemble, if_pos ⟨by simp, hleading, hlast⟩]
    exact congrArg some hvalue
  rw [read, hnumbers]
  exact hassemble

/-! ## The size of an address -/

theorem lt_of_assemble {leading : List Nat} {last : Nat} (h : assemble leading last = some a) :
    a < 2 ^ 32 := by
  unfold assemble at h
  split at h
  · next hfits =>
    obtain ⟨hlength, hleading, hlast⟩ := hfits
    obtain rfl := Option.some.inj h
    have hfront : leading.foldl (fun acc n => 256 * acc + n) 0 < bytes leading.length := by
      simpa [bytes] using Text.foldl_digits_lt hleading 0
    -- the leading bytes and the others make four
    have hall : bytes leading.length * bytes (4 - leading.length) = 2 ^ 32 := by
      have hpow : bytes leading.length * bytes (4 - leading.length) =
          256 ^ (leading.length + (4 - leading.length)) := (Nat.pow_add _ _ _).symm
      rw [hpow, Nat.add_sub_cancel' (by omega)]
      decide
    calc leading.foldl (fun acc n => 256 * acc + n) 0 * bytes (4 - leading.length) + last
      _ < (leading.foldl (fun acc n => 256 * acc + n) 0 + 1) * bytes (4 - leading.length) := by
        rw [Nat.add_mul]
        omega
      _ ≤ bytes leading.length * bytes (4 - leading.length) := Nat.mul_le_mul_right _ hfront
      _ = 2 ^ 32 := hall
  · cases h

/-- **What is read has 32 bits.** -/
theorem lt_of_read (h : read host = some a) : a < 2 ^ 32 := by
  unfold read at h
  obtain ⟨numbers, -, hrest⟩ := Option.bind_eq_some_iff.mp h
  obtain ⟨last, -, hassemble⟩ := Option.bind_eq_some_iff.mp hrest
  exact lt_of_assemble hassemble

end UriRouting.Url.Ipv4
