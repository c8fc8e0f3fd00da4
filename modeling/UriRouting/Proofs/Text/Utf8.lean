/-
# UriRouting.Proofs.Text.Utf8 — reading a text back from its UTF-8 form

`lead` takes the whole form of a character off the front of a byte string, whatever follows it
(`lead_encodeChar`).  There is one lemma for each length of the form, over the range of code points
that have it; the second byte tells the form from an overlong one and from a surrogate.  So `decode`
reads the form of any text back as that text (`decode_encode`).  The other way round, `lead` finds a
character only where its form stands (`eq_encodeChar_append_of_lead`), so no other byte string is
read as the text (`encode_of_decode`).  Where `decode` reads a text, `decodeLossy` reads the same
(`decodeLossy_of_decode`).  The form is the one of the standard library (`octets_eq_encode`).
-/
import UriRouting.Text.Utf8
import Mathlib.Data.List.Basic

namespace UriRouting.Text.Utf8

/-! ## Bytes as numbers -/

theorem toNat_byte {n : Nat} (h : n < 256) : (UInt8.ofNat n).toNat = n :=
  UInt8.toNat_ofNat'.trans (Nat.mod_eq_of_lt h)

theorem toNat_tail (n : Nat) : (UInt8.ofNat (0x80 + n % 64)).toNat = 0x80 + n % 64 :=
  toNat_byte (by omega)

theorem isTail_tail (n : Nat) : isTail (UInt8.ofNat (0x80 + n % 64)) = true := by
  rw [isTail, Bool.and_eq_true, decide_eq_true_iff, decide_eq_true_iff, toNat_tail]
  omega

/-! ## The form of each length -/

variable {n : Nat} (rest : List UInt8)

theorem lead_one (h : n < 0x80) : lead (UInt8.ofNat n) rest = .char (Char.ofNat n) 1 := by
  have ha := toNat_byte (Nat.lt_trans h (by omega : 0x80 < 256))
  simp only [lead, ha, if_pos h]

theorem lead_two (h : 0x80 ≤ n) (h' : n < 0x800) :
    lead (UInt8.ofNat (0xC0 + n / 64)) (UInt8.ofNat (0x80 + n % 64) :: rest) =
      .char (Char.ofNat n) 2 := by
  have ha : (UInt8.ofNat (0xC0 + n / 64)).toNat = 0xC0 + n / 64 := toNat_byte (by omega)
  have h1 : ¬ 0xC0 + n / 64 < 0x80 := by omega
  have h2 : (decide (0xC2 ≤ 0xC0 + n / 64) && decide (0xC0 + n / 64 < 0xE0)) = true := by
    simp only [Bool.and_eq_true, decide_eq_true_iff]
    omega
  have hvalue : (0xC0 + n / 64 - 0xC0) * 64 + (0x80 + n % 64 - 0x80) = n := by omega
  simp only [lead, ha, if_neg h1, if_pos h2, if_pos (isTail_tail n), toNat_tail, hvalue]

theorem lead_three (h : 0x800 ≤ n) (h' : n < 0x10000) (hscalar : n < 0xD800 ∨ 0xE000 ≤ n) :
    lead (UInt8.ofNat (0xE0 + n / 4096))
        (UInt8.ofNat (0x80 + n / 64 % 64) :: UInt8.ofNat (0x80 + n % 64) :: rest) =
      .char (Char.ofNat n) 3 := by
  have ha : (UInt8.ofNat (0xE0 + n / 4096)).toNat = 0xE0 + n / 4096 := toNat_byte (by omega)
  have h1 : ¬ 0xE0 + n / 4096 < 0x80 := by omega
  have h2 : ¬ (decide (0xC2 ≤ 0xE0 + n / 4096) && decide (0xE0 + n / 4096 < 0xE0)) = true := by
    simp only [Bool.and_eq_true, decide_eq_true_iff]
    omega
  have h3 : (decide (0xE0 ≤ 0xE0 + n / 4096) && decide (0xE0 + n / 4096 < 0xF0)) = true := by
    simp only [Bool.and_eq_true, decide_eq_true_iff]
    omega
  -- below 0xA0 after 0xE0 it would be overlong, from 0xA0 on after 0xED a surrogate
  have hsecond : isSecondOfThree (UInt8.ofNat (0xE0 + n / 4096))
      (UInt8.ofNat (0x80 + n / 64 % 64)) = true := by
    simp only [isSecondOfThree, isTail_tail, toNat_tail, ha, Bool.and_eq_true, Bool.or_eq_true,
      bne_iff_ne, decide_eq_true_iff, true_and]
    omega
  have hvalue : (0xE0 + n / 4096 - 0xE0) * 4096 + (0x80 + n / 64 % 64 - 0x80) * 64
      + (0x80 + n % 64 - 0x80) = n := by omega
  simp only [lead, ha, if_neg h1, if_neg h2, if_pos h3, if_pos hsecond, if_pos (isTail_tail _),
    toNat_tail, hvalue]

theorem lead_four (h : 0x10000 ≤ n) (h' : n < 0x110000) :
    lead (UInt8.ofNat (0xF0 + n / 262144))
        (UInt8.ofNat (0x80 + n / 4096 % 64) :: UInt8.ofNat (0x80 + n / 64 % 64) ::
          UInt8.ofNat (0x80 + n % 64) :: rest) =
      .char (Char.ofNat n) 4 := by
  have ha : (UInt8.ofNat (0xF0 + n / 262144)).toNat = 0xF0 + n / 262144 := toNat_byte (by omega)
  have h1 : ¬ 0xF0 + n / 262144 < 0x80 := by omega
  have h2 : ¬ (decide (0xC2 ≤ 0xF0 + n / 262144) && decide (0xF0 + n / 262144 < 0xE0)) = true := by
    simp only [Bool.and_eq_true, decide_eq_true_iff]
    omega
  have h3 : ¬ (decide (0xE0 ≤ 0xF0 + n / 262144) && decide (0xF0 + n / 262144 < 0xF0)) = true := by
    simp only [Bool.and_eq_true, decide_eq_true_iff]
    omega
  have h4 : (decide (0xF0 ≤ 0xF0 + n / 262144) && decide (0xF0 + n / 262144 < 0xF5)) = true := by
    simp only [Bool.and_eq_true, decide_eq_true_iff]
    omega
  -- below 0x90 after 0xF0 it would be overlong, from 0x90 on after 0xF4 above U+10FFFF
  have hsecond : isSecondOfFour (UInt8.ofNat (0xF0 + n / 262144))
      (UInt8.ofNat (0x80 + n / 4096 % 64)) = true := by
    simp only [isSecondOfFour, isTail_tail, toNat_tail, ha, Bool.and_eq_true, Bool.or_eq_true,
      bne_iff_ne, decide_eq_true_iff, true_and]
    omega
  have hvalue : (0xF0 + n / 262144 - 0xF0) * 262144 + (0x80 + n / 4096 % 64 - 0x80) * 4096
      + (0x80 + n / 64 % 64 - 0x80) * 64 + (0x80 + n % 64 - 0x80) = n := by omega
  simp only [lead, ha, if_neg h1, if_neg h2, if_neg h3, if_pos h4, if_pos hsecond,
    if_pos (isTail_tail _), toNat_tail, hvalue]

/-! ## Characters and texts -/

/-- A code point is no surrogate and at most U+10FFFF. -/
theorem toNat_scalar (c : Char) : c.toNat < 0xD800 ∨ 0xE000 ≤ c.toNat ∧ c.toNat < 0x110000 := by
  have h : c.toNat < 0xD800 ∨ 0xDFFF < c.toNat ∧ c.toNat < 0x110000 := c.valid
  omega

/-- **The form of a character is read back**, whatever follows it. -/
theorem lead_encodeChar (c : Char) :
    ∃ a tail, encodeChar c = a :: tail ∧ lead a (tail ++ rest) = .char c (tail.length + 1) := by
  have hscalar := toNat_scalar c
  have hc : Char.ofNat c.toNat = c := Char.ofNat_toNat c
  by_cases h1 : c.toNat < 0x80
  · exact ⟨_, _, by rw [encodeChar, if_pos h1], hc ▸ lead_one rest h1⟩
  by_cases h2 : c.toNat < 0x800
  · refine ⟨_, _, by rw [encodeChar, if_neg h1, if_pos h2], ?_⟩
    exact (lead_two rest (by omega) h2).trans (by rw [hc]; rfl)
  by_cases h3 : c.toNat < 0x10000
  · refine ⟨_, _, by rw [encodeChar, if_neg h1, if_neg h2, if_pos h3], ?_⟩
    exact (lead_three rest (by omega) h3 (by omega)).trans (by rw [hc]; rfl)
  · refine ⟨_, _, by rw [encodeChar, if_neg h1, if_neg h2, if_neg h3], ?_⟩
    exact (lead_four rest (by omega) (by omega)).trans (by rw [hc]; rfl)

/-- With a step for every byte, the form of a text is read back. -/
theorem decodeWithin_encode (t : Text) {fuel : Nat} (h : (encode t).length ≤ fuel) :
    decodeWithin fuel (encode t) = some t := by
  induction t generalizing fuel with
  | nil => cases fuel <;> rfl
  | cons c t ih =>
    obtain ⟨a, tail, hform, hlead⟩ := lead_encodeChar (encode t) c
    have hencode : encode (c :: t) = a :: (tail ++ encode t) := by
      rw [encode, List.flatMap_cons, hform]
      rfl
    rw [hencode, List.length_cons, List.length_append] at h
    obtain ⟨fuel, rfl⟩ := Nat.exists_eq_succ_of_ne_zero (by omega : fuel ≠ 0)
    have hdrop : (a :: (tail ++ encode t)).drop (tail.length + 1) = encode t := by simp
    rw [hencode, decodeWithin, hlead]
    show (decodeWithin fuel ((a :: (tail ++ encode t)).drop (tail.length + 1))).map (c :: ·) = _
    rw [hdrop, ih (by omega)]
    rfl

/-- **A text is read back from its UTF-8 form.** -/
theorem decode_encode (t : Text) : decode (encode t) = some t :=
  decodeWithin_encode t (Nat.le_refl _)

theorem decodeLossyWithin_of_decodeWithin {fuel : Nat} {bytes : List UInt8} {t : Text}
    (h : decodeWithin fuel bytes = some t) : decodeLossyWithin fuel bytes = t := by
  fun_induction decodeWithin fuel bytes generalizing t with
  | case1 fuel =>
    obtain rfl := Option.some.inj h
    cases fuel <;> rfl
  | case2 => cases h
  | case3 fuel a rest c taken hlead ih =>
    obtain ⟨t, ht, rfl⟩ := Option.map_eq_some_iff.mp h
    rw [decodeLossyWithin, hlead]
    show c :: decodeLossyWithin fuel ((a :: rest).drop taken) = c :: t
    rw [ih ht]
  | case4 => cases h

/-- **Well-formed bytes lose nothing**: `decodeLossy` reads them as `decode` does. -/
theorem decodeLossy_of_decode {bytes : List UInt8} {t : Text} (h : decode bytes = some t) :
    decodeLossy bytes = t := decodeLossyWithin_of_decodeWithin h

/-! ## Only forms are read -/

theorem toNat_ofNat {n : Nat} (h : n < 0xD800 ∨ 0xE000 ≤ n ∧ n < 0x110000) :
    (Char.ofNat n).toNat = n := by
  have hvalid : n.isValidChar := by
    unfold Nat.isValidChar
    omega
  rw [Char.ofNat, dif_pos hvalid]
  exact UInt32.toNat_ofNatLT

/-- A byte is given by its value. -/
theorem byte_eq {a : UInt8} (h : n = a.toNat) : UInt8.ofNat n = a := by
  rw [h, UInt8.ofNat_toNat]

theorem isTail_iff {b : UInt8} : isTail b = true ↔ 0x80 ≤ b.toNat ∧ b.toNat < 0xC0 := by
  simp [isTail]

theorem encodeChar_two {a b : UInt8} (ha : 0xC2 ≤ a.toNat) (ha' : a.toNat < 0xE0)
    (hb : isTail b = true) :
    encodeChar (Char.ofNat ((a.toNat - 0xC0) * 64 + (b.toNat - 0x80))) = [a, b] := by
  obtain ⟨hb, hb'⟩ := isTail_iff.mp hb
  unfold encodeChar
  rw [toNat_ofNat (by omega), if_neg (by omega), if_pos (by omega),
    byte_eq (a := a) (by omega), byte_eq (a := b) (by omega)]

theorem encodeChar_three {a b c : UInt8} (ha : 0xE0 ≤ a.toNat) (ha' : a.toNat < 0xF0)
    (hb : isSecondOfThree a b = true) (hc : isTail c = true) :
    encodeChar (Char.ofNat
      ((a.toNat - 0xE0) * 4096 + (b.toNat - 0x80) * 64 + (c.toNat - 0x80))) = [a, b, c] := by
  simp only [isSecondOfThree, isTail_iff, Bool.and_eq_true, Bool.or_eq_true, bne_iff_ne,
    decide_eq_true_iff] at hb hc
  unfold encodeChar
  rw [toNat_ofNat (by omega), if_neg (by omega), if_neg (by omega), if_pos (by omega),
    byte_eq (a := a) (by omega), byte_eq (a := b) (by omega), byte_eq (a := c) (by omega)]

theorem encodeChar_four {a b c d : UInt8} (ha : 0xF0 ≤ a.toNat) (ha' : a.toNat < 0xF5)
    (hb : isSecondOfFour a b = true) (hc : isTail c = true) (hd : isTail d = true) :
    encodeChar (Char.ofNat ((a.toNat - 0xF0) * 262144 + (b.toNat - 0x80) * 4096
      + (c.toNat - 0x80) * 64 + (d.toNat - 0x80))) = [a, b, c, d] := by
  simp only [isSecondOfFour, isTail_iff, Bool.and_eq_true, Bool.or_eq_true, bne_iff_ne,
    decide_eq_true_iff] at hb hc hd
  unfold encodeChar
  rw [toNat_ofNat (by omega), if_neg (by omega), if_neg (by omega), if_neg (by omega),
    byte_eq (a := a) (by omega), byte_eq (a := b) (by omega), byte_eq (a := c) (by omega),
    byte_eq (a := d) (by omega)]

/-- **A character is read only from its form.** -/
theorem eq_encodeChar_append_of_lead {a : UInt8} {rest : List UInt8} {c : Char} {taken : Nat} :
    lead a rest = .char c taken → a :: rest = encodeChar c ++ (a :: rest).drop taken := by
  fun_cases lead a rest with
  | case1 rest n hone =>
    intro h
    obtain ⟨rfl, rfl⟩ := Lead.char.inj h
    have hvalue : (Char.ofNat a.toNat).toNat = a.toNat := toNat_ofNat (by omega)
    rw [encodeChar, hvalue, if_pos hone, UInt8.ofNat_toNat]
    rfl
  | case2 n _ hrange b rest hb =>
    intro h
    obtain ⟨rfl, rfl⟩ := Lead.char.inj h
    simp only [Bool.and_eq_true, decide_eq_true_iff] at hrange
    rw [encodeChar_two hrange.1 hrange.2 hb]
    rfl
  | case5 n _ _ hrange b hb c rest hc =>
    intro h
    obtain ⟨rfl, rfl⟩ := Lead.char.inj h
    simp only [Bool.and_eq_true, decide_eq_true_iff] at hrange
    rw [encodeChar_three hrange.1 hrange.2 hb hc]
    rfl
  | case10 n _ _ _ hrange b hb c hc d rest hd =>
    intro h
    obtain ⟨rfl, rfl⟩ := Lead.char.inj h
    simp only [Bool.and_eq_true, decide_eq_true_iff] at hrange
    rw [encodeChar_four hrange.1 hrange.2 hb hc hd]
    rfl
  | _ => nofun

theorem encode_of_decodeWithin {fuel : Nat} {bytes : List UInt8} {t : Text}
    (h : decodeWithin fuel bytes = some t) : encode t = bytes := by
  fun_induction decodeWithin fuel bytes generalizing t with
  | case1 =>
    obtain rfl := Option.some.inj h
    rfl
  | case2 => cases h
  | case3 fuel a rest c taken hlead ih =>
    obtain ⟨t, ht, rfl⟩ := Option.map_eq_some_iff.mp h
    rw [eq_encodeChar_append_of_lead hlead, ← ih ht]
    rfl
  | case4 => cases h

/-- **Only the UTF-8 form of a text is read as that text.** -/
theorem encode_of_decode {bytes : List UInt8} {t : Text} (h : decode bytes = some t) :
    encode t = bytes := encode_of_decodeWithin h

theorem length_encodeChar (c : Char) : (encodeChar c).length = c.utf8Size := by
  have hle : ∀ n : Nat, ∀ h : n < UInt32.size, c.val ≤ UInt32.ofNatLT n h ↔ c.toNat < n + 1 := by
    intro n h
    rw [UInt32.le_iff_toNat_le, UInt32.toNat_ofNatLT]
    exact Nat.lt_succ_iff.symm
  unfold encodeChar Char.utf8Size
  simp only [hle]
  split
  · rfl
  · split
    · rfl
    · split <;> rfl

/-- **`octets t`** — the UTF-8 form of a text in the terms of the core library. -/
def octets (t : Text) : List UInt8 := t.flatMap String.utf8EncodeChar

/-- The shortest form that fits is the one that the core library writes. -/
theorem encodeChar_eq_utf8EncodeChar (c : Char) : encodeChar c = String.utf8EncodeChar c := by
  have hscalar := toNat_scalar c
  have hc : c.val.toNat = c.toNat := rfl
  unfold encodeChar String.utf8EncodeChar
  simp only [hc]
  by_cases h1 : c.toNat < 0x80
  · rw [if_pos h1, if_pos (by omega)]
  by_cases h2 : c.toNat < 0x800
  · rw [if_neg h1, if_pos h2, if_neg (by omega), if_pos (by omega),
      Nat.mod_eq_of_lt (by omega : c.toNat / 64 < 32), Nat.add_comm 0xC0, Nat.add_comm 0x80]
  by_cases h3 : c.toNat < 0x10000
  · rw [if_neg h1, if_neg h2, if_pos h3, if_neg (by omega), if_neg (by omega), if_pos (by omega),
      Nat.mod_eq_of_lt (by omega : c.toNat / 4096 < 16), Nat.add_comm 0xE0, Nat.add_comm 0x80,
      Nat.add_comm 0x80]
  · rw [if_neg h1, if_neg h2, if_neg h3, if_neg (by omega), if_neg (by omega), if_neg (by omega),
      Nat.mod_eq_of_lt (by omega : c.toNat / 262144 < 8), Nat.add_comm 0xF0, Nat.add_comm 0x80,
      Nat.add_comm 0x80, Nat.add_comm 0x80]

theorem octets_eq_encode (t : Text) : octets t = encode t := by
  have hchar : String.utf8EncodeChar = encodeChar :=
    funext fun c => (encodeChar_eq_utf8EncodeChar c).symm
  rw [octets, hchar, encode]

/-- The width of a text is the length of its form. -/
theorem length_encode (t : Text) : (encode t).length = width t := by
  induction t with
  | nil => rfl
  | cons c t ih =>
    have hcons : encode (c :: t) = encodeChar c ++ encode t := List.flatMap_cons
    rw [hcons, List.length_append, length_encodeChar, ih, width_cons]

end UriRouting.Text.Utf8
