/-
# UriRouting.Proofs.Percent — decoding undoes encoding

An encoded text is ASCII: its bytes are the unreserved characters themselves and, for every other
byte, a percent sign and two digits.  `decodeBytes` goes over each of these in one step
(`decodeBytes_escape`, `decodeBytes_cons_of_ne`), so what it leaves are the bytes of the text
(`decodeBytes_encode`), and the text is read back from them (`decode_encode`).  On any text at all,
decoding changes nothing or shortens it (`decode_eq_self_or_shorter`).
-/
import UriRouting.Percent
import UriRouting.Proofs.Text.Runs
import UriRouting.Proofs.Text.Utf8

namespace UriRouting.Percent

open Text (Utf8.encode Utf8.encodeChar)

/-! ## Characters of an encoded text -/

theorem hexDigit_ascii : ∀ n, n < 16 → (hexDigit n).toNat < 0x80 := by
  decide

theorem isAlphanum_hexDigit : ∀ n, n < 16 → (hexDigit n).isAlphanum = true := by
  decide

theorem hexOfByte_hexDigit :
    ∀ n, n < 16 → hexOfByte (UInt8.ofNat (hexDigit n).toNat) = some n := by
  decide

/-- The unreserved characters are ASCII, and the percent sign is none of them. -/
theorem ascii_of_isUnreserved {c : Char} (h : isUnreserved c = true) :
    c.toNat < 0x80 ∧ c.toNat ≠ 0x25 := by
  simp only [isUnreserved, Bool.or_eq_true, beq_iff_eq] at h
  rcases h with (((halnum | rfl) | rfl) | rfl) | rfl
  · have := Text.toNat_of_isAlphanum halnum
    omega
  all_goals decide

/-- An escape is a percent sign with digits and letters. -/
theorem mem_escape {c : Char} {b : UInt8} (h : c ∈ escape b) : c = '%' ∨ c.isAlphanum = true := by
  have hb := b.toNat_lt
  simp only [escape, List.mem_cons, List.not_mem_nil, or_false] at h
  rcases h with rfl | rfl | rfl
  · exact .inl rfl
  · exact .inr (isAlphanum_hexDigit _ (by omega))
  · exact .inr (isAlphanum_hexDigit _ (by omega))

theorem mem_escapes {c d : Char} (h : c ∈ (Utf8.encodeChar d).flatMap escape) :
    c = '%' ∨ c.isAlphanum = true := by
  obtain ⟨b, -, hb⟩ := List.mem_flatMap.mp h
  exact mem_escape hb

/-- What stands in an encoded text: characters that are kept, and the escapes of the others. -/
theorem mem_encodeUnless {keep : Char → Bool} {c : Char} {t : Text} (h : c ∈ encodeUnless keep t) :
    (c ∈ t ∧ keep c = true) ∨ c = '%' ∨ c.isAlphanum = true := by
  obtain ⟨d, hd, hmem⟩ := List.mem_flatMap.mp h
  split at hmem
  · next hkeep =>
    rw [List.mem_singleton.mp hmem]
    exact .inl ⟨hd, hkeep⟩
  · exact .inr (mem_escapes hmem)

/-- What stands in an encoded text: letters, digits, percent signs and the unreserved marks. -/
theorem mem_encode {c : Char} {t : Text} (h : c ∈ encode t) :
    c.isAlphanum = true ∨ c ∈ ['%', '-', '_', '.', '~'] := by
  rcases mem_encodeUnless h with ⟨-, hkept⟩ | rfl | halnum
  · simp only [isUnreserved, Bool.or_eq_true, beq_iff_eq, or_assoc] at hkept
    exact hkept.imp_right fun hmark => by simpa using .inr hmark
  · exact .inr List.mem_cons_self
  · exact .inl halnum

/-- An encoded text has no slash. -/
theorem slash_not_mem_encode (t : Text) : '/' ∉ encode t := by
  intro hmem
  exact absurd (mem_encode hmem) (by decide)

theorem encodeUnless_cons (keep : Char → Bool) (c : Char) (t : Text) :
    encodeUnless keep (c :: t) =
      (if keep c then [c] else (Utf8.encodeChar c).flatMap escape) ++ encodeUnless keep t := rfl

/-- A text of characters that are kept stays as it is. -/
theorem encodeUnless_eq_self {keep : Char → Bool} {t : Text} (h : ∀ c ∈ t, keep c = true) :
    encodeUnless keep t = t := by
  induction t with
  | nil => rfl
  | cons c t ih =>
    rw [encodeUnless_cons, if_pos (h c List.mem_cons_self),
      ih fun d hd => h d (List.mem_cons_of_mem c hd), List.singleton_append]

/-- A text with characters has characters when encoded. -/
theorem encodeUnless_ne_nil (keep : Char → Bool) {t : Text} (h : t ≠ []) :
    encodeUnless keep t ≠ [] := by
  cases t with
  | nil => exact absurd rfl h
  | cons c t =>
    rw [encodeUnless_cons]
    split
    · exact List.cons_ne_nil _ _
    · obtain ⟨a, tail, hform, -⟩ := Text.Utf8.lead_encodeChar [] c
      rw [hform, List.flatMap_cons]
      exact List.cons_ne_nil _ _

theorem encode_ne_nil {t : Text} (h : t ≠ []) : encode t ≠ [] := encodeUnless_ne_nil isUnreserved h

/-! ## The bytes of an encoded text -/

theorem encodeChar_of_ascii {c : Char} (h : c.toNat < 0x80) :
    Utf8.encodeChar c = [UInt8.ofNat c.toNat] := by
  rw [Utf8.encodeChar, if_pos h]

theorem utf8_append (s t : Text) : Utf8.encode (s ++ t) = Utf8.encode s ++ Utf8.encode t :=
  List.flatMap_append

theorem decodeBytes_cons_of_ne {a : UInt8} (h : a ≠ 0x25) (rest : List UInt8) :
    decodeBytes (a :: rest) = a :: decodeBytes rest := by
  cases rest with
  | nil => rfl
  | cons b rest =>
    cases rest with
    | nil => rfl
    | cons c rest => rw [decodeBytes, if_neg h]

/-- An escape is read back as its byte. -/
theorem decodeBytes_escape (b : UInt8) (rest : List UInt8) :
    decodeBytes (Utf8.encode (escape b) ++ rest) = b :: decodeBytes rest := by
  have hb := b.toNat_lt
  have hhi : b.toNat / 16 < 16 := by omega
  have hlo : b.toNat % 16 < 16 := by omega
  have hform : Utf8.encode (escape b) = [0x25, UInt8.ofNat (hexDigit (b.toNat / 16)).toNat,
      UInt8.ofNat (hexDigit (b.toNat % 16)).toNat] := by
    simp only [escape, Utf8.encode, List.flatMap_cons, List.flatMap_nil,
      encodeChar_of_ascii (hexDigit_ascii _ hhi), encodeChar_of_ascii (hexDigit_ascii _ hlo)]
    rfl
  have hvalue : 16 * (b.toNat / 16) + b.toNat % 16 = b.toNat := by omega
  rw [hform]
  simp only [List.cons_append, List.nil_append]
  rw [decodeBytes, if_pos rfl, hexOfByte_hexDigit _ hhi, hexOfByte_hexDigit _ hlo]
  simp only [hvalue, UInt8.ofNat_toNat]

theorem decodeBytes_escapes (bytes rest : List UInt8) :
    decodeBytes (Utf8.encode (bytes.flatMap escape) ++ rest) = bytes ++ decodeBytes rest := by
  induction bytes with
  | nil => rfl
  | cons b bytes ih =>
    rw [List.flatMap_cons, utf8_append, List.append_assoc, decodeBytes_escape, ih, List.cons_append]

/-- **Decoding leaves the bytes of the text that was encoded**, whatever characters were kept, as long
as they are ASCII and no percent sign is one of them. -/
theorem decodeBytes_encodeUnless {keep : Char → Bool}
    (hkeep : ∀ c, keep c = true → c.toNat < 0x80 ∧ c.toNat ≠ 0x25) (t : Text) :
    decodeBytes (Utf8.encode (encodeUnless keep t)) = Utf8.encode t := by
  induction t with
  | nil => rfl
  | cons c t ih =>
    have hcons : Utf8.encode (c :: t) = Utf8.encodeChar c ++ Utf8.encode t := List.flatMap_cons
    rw [encodeUnless_cons, utf8_append, hcons]
    split
    · next hc =>
      -- the character is one byte, and no percent sign that would begin an escape
      obtain ⟨hascii, hpercent⟩ := hkeep c hc
      have hsingle : Utf8.encode [c] = [UInt8.ofNat c.toNat] := by
        rw [Utf8.encode, List.flatMap_singleton, encodeChar_of_ascii hascii]
      have hne : UInt8.ofNat c.toNat ≠ 0x25 := by
        intro heq
        have htoNat := congrArg UInt8.toNat heq
        rw [Text.Utf8.toNat_byte (by omega)] at htoNat
        exact hpercent htoNat
      rw [hsingle, encodeChar_of_ascii hascii, List.singleton_append, List.singleton_append,
        decodeBytes_cons_of_ne hne, ih]
    · rw [decodeBytes_escapes, ih]

theorem decodeBytes_encode (t : Text) : decodeBytes (Utf8.encode (encode t)) = Utf8.encode t :=
  decodeBytes_encodeUnless (fun _ => ascii_of_isUnreserved) t

theorem decode?_encode (t : Text) : decode? (encode t) = some t := by
  rw [decode?, decodeBytes_encode, Text.Utf8.decode_encode]

/-- **Decoding undoes encoding**, on every text. -/
theorem decode_encode (t : Text) : decode (encode t) = t := by
  rw [decode, decode?_encode]
  rfl

/-- A text of ASCII characters without percent sign is decoded to itself. -/
theorem decode?_eq_self {t : Text} (h : ∀ c ∈ t, c.toNat < 0x80 ∧ c ≠ '%') : decode? t = some t := by
  let keep : Char → Bool := fun c => c.toNat < 0x80 && c != '%'
  have hascii : ∀ c, keep c = true → c.toNat < 0x80 ∧ c.toNat ≠ 0x25 := by
    intro c hc
    simp only [keep, Bool.and_eq_true, decide_eq_true_iff, bne_iff_ne] at hc
    refine ⟨hc.1, fun hvalue => hc.2 ?_⟩
    exact Char.toNat_inj.mp hvalue
  have hself : encodeUnless keep t = t :=
    encodeUnless_eq_self fun c hc => by simpa [keep] using h c hc
  have hbytes := decodeBytes_encodeUnless hascii t
  rw [hself] at hbytes
  rw [decode?, hbytes, Text.Utf8.decode_encode]

/-! ## Decoding shortens -/

/-- Bytes are left as they are, or fewer are left. -/
theorem decodeBytes_eq_self_or_shorter (bytes : List UInt8) :
    decodeBytes bytes = bytes ∨ (decodeBytes bytes).length < bytes.length := by
  have keep : ∀ (a : UInt8) (rest : List UInt8),
      (decodeBytes rest = rest ∨ (decodeBytes rest).length < rest.length) →
      a :: decodeBytes rest = a :: rest ∨
        (a :: decodeBytes rest).length < (a :: rest).length := by
    intro a rest ih
    exact ih.imp (congrArg (a :: ·)) Nat.succ_lt_succ
  fun_induction decodeBytes bytes with
  | case1 => exact .inl rfl
  | case2 a => exact .inl rfl
  | case3 a b => exact .inl rfl
  | case4 b c rest hi lo hhi hlo ih =>
    right
    have hle : (decodeBytes rest).length ≤ rest.length :=
      ih.elim (fun h => Nat.le_of_eq (congrArg _ h)) Nat.le_of_lt
    simp only [List.length_cons]
    omega
  | case5 b c rest _ ih => exact keep _ _ ih
  | case6 a b c rest _ ih => exact keep _ _ ih

/-- A text is decoded to itself or to a shorter one. -/
theorem decode_eq_self_or_shorter (t : Text) :
    decode t = t ∨ Text.width (decode t) < Text.width t := by
  unfold decode
  cases h : decode? t with
  | none => exact .inl rfl
  | some u =>
    have hbytes : Utf8.encode u = decodeBytes (Utf8.encode t) := Text.Utf8.encode_of_decode h
    show u = t ∨ Text.width u < Text.width t
    rw [← Text.Utf8.length_encode, ← Text.Utf8.length_encode, hbytes]
    refine (decodeBytes_eq_self_or_shorter _).imp_left fun hself => ?_
    unfold decode? at h
    rw [hself, Text.Utf8.decode_encode] at h
    exact (Option.some.inj h).symm

end UriRouting.Percent
