/-
# UriRouting.Proofs.Percent.Decoding — what the escapes of a text stand for

`Unescapes` says what bytes with escapes stand for, apart from any way to compute it: from left to
right, three bytes that write a byte (`IsEscape`) give way to it, and a byte that begins no such
three stays.  What was written for an escape is not looked at again.  There is exactly one result, the
one that `decodeBytes` computes (`unescapes_iff`).

Decoding a text is all or nothing (`decode_all_or_nothing`): if that result is the UTF-8 form of a
text, that text is what was captured, and otherwise the text stays as it is, with all of its escapes.
An encoded text is of the first kind.
-/
import UriRouting.Binding.Capture
import UriRouting.Proofs.Percent
import UriRouting.Proofs.Text.Digits

namespace UriRouting.Percent

open Text.Utf8 (octets octets_eq_encode)

/-! ## One escape -/

/-- **`IsEscape byte a b c`** — three bytes that write `byte`: a percent sign and the hexadecimal
digits of the upper and the lower half, in either case. -/
structure IsEscape (byte a b c : UInt8) : Prop where
  percent : a = 0x25
  upper : hexOfByte b = some (byte.toNat / 16)
  lower : hexOfByte c = some (byte.toNat % 16)

theorem hexOfByte_lt {b : UInt8} {n : Nat} (h : hexOfByte b = some n) : n < 16 := by
  have hlt := Text.hexValue_lt (c := Char.ofNat b.toNat)
  unfold hexOfByte at h
  rwa [h, Option.getD_some] at hlt

/-- Two digits behind a percent sign write a byte. -/
theorem isEscape_of_digits {b c : UInt8} {hi lo : Nat} (hhi : hexOfByte b = some hi)
    (hlo : hexOfByte c = some lo) : IsEscape (UInt8.ofNat (16 * hi + lo)) 0x25 b c := by
  have hhi' := hexOfByte_lt hhi
  have hlo' := hexOfByte_lt hlo
  have hvalue : (UInt8.ofNat (16 * hi + lo)).toNat = 16 * hi + lo :=
    Text.Utf8.toNat_byte (by omega)
  have hupper : (16 * hi + lo) / 16 = hi := by omega
  have hlower : (16 * hi + lo) % 16 = lo := by omega
  refine ⟨rfl, ?_, ?_⟩
  · rw [hvalue, hupper, hhi]
  · rw [hvalue, hlower, hlo]

/-- **`Unescapes bytes out`** — reading `bytes` once from left to right, with the byte that an escape
writes in its place and every other byte as it is, gives `out`. -/
inductive Unescapes : List UInt8 → List UInt8 → Prop
  | nil : Unescapes [] []
  | escape {byte a b c : UInt8} {rest out : List UInt8} :
      IsEscape byte a b c → Unescapes rest out → Unescapes (a :: b :: c :: rest) (byte :: out)
  | keep {a : UInt8} {rest out : List UInt8} :
      (∀ byte b c tail, rest = b :: c :: tail → ¬ IsEscape byte a b c) →
      Unescapes rest out → Unescapes (a :: rest) (a :: out)

/-! ## The reader takes them one by one -/

theorem decodeBytes_of_isEscape {byte a b c : UInt8} (h : IsEscape byte a b c)
    (rest : List UInt8) : decodeBytes (a :: b :: c :: rest) = byte :: decodeBytes rest := by
  have hvalue : 16 * (byte.toNat / 16) + byte.toNat % 16 = byte.toNat := Nat.div_add_mod _ 16
  rw [decodeBytes, if_pos h.percent, h.upper, h.lower]
  show UInt8.ofNat (16 * (byte.toNat / 16) + byte.toNat % 16) :: decodeBytes rest = _
  rw [hvalue, UInt8.ofNat_toNat]

theorem decodeBytes_of_not_isEscape {a : UInt8} {rest : List UInt8}
    (h : ∀ byte b c tail, rest = b :: c :: tail → ¬ IsEscape byte a b c) :
    decodeBytes (a :: rest) = a :: decodeBytes rest := by
  by_cases ha : a = 0x25
  · cases rest with
    | nil => rfl
    | cons b rest =>
      cases rest with
      | nil => rfl
      | cons c tail =>
        rw [decodeBytes, if_pos ha]
        split
        · next hi lo hhi hlo =>
          exact absurd (ha ▸ isEscape_of_digits hhi hlo) (h _ b c tail rfl)
        · rfl
  · exact decodeBytes_cons_of_ne ha rest

/-- **The escapes of some bytes stand for one byte string**, the one that is computed. -/
theorem unescapes_iff {bytes out : List UInt8} : Unescapes bytes out ↔ out = decodeBytes bytes := by
  constructor
  · intro h
    induction h with
    | nil => rfl
    | escape hescape _ ih => rw [decodeBytes_of_isEscape hescape, ih]
    | keep hkeep _ ih => rw [decodeBytes_of_not_isEscape hkeep, ih]
  · rintro rfl
    fun_induction decodeBytes bytes with
    | case1 => exact .nil
    | case2 a => exact .keep (by simp) .nil
    | case3 a b => exact .keep (by simp) (.keep (by simp) .nil)
    | case4 b c rest hi lo hlo hhi ih => exact .escape (isEscape_of_digits hhi hlo) ih
    | case5 b c rest hdigits ih =>
      refine .keep ?_ ih
      rintro byte _ _ _ ⟨⟩ hescape
      exact hdigits _ _ hescape.upper hescape.lower
    | case6 a b c rest ha ih => exact .keep (fun _ _ _ _ _ hescape => ha hescape.percent) ih

theorem decodeBytes_ne_nil {bytes : List UInt8} (h : bytes ≠ []) : decodeBytes bytes ≠ [] := by
  fun_cases decodeBytes bytes with
  | case1 => exact absurd rfl h
  | case4 => exact List.cons_ne_nil _ _
  | _ => simp

/-! ## A text as a whole -/

variable {t u : Text}

/-- The text whose form the bytes are is what was captured. -/
theorem decode_of_octets (h : octets u = decodeBytes (octets t)) : decode t = u := by
  rw [octets_eq_encode, octets_eq_encode] at h
  rw [decode, decode?, ← h, Text.Utf8.decode_encode]
  rfl

/-- Bytes that are no form leave the text as it is. -/
theorem decode_of_forall_octets_ne (h : ∀ u, octets u ≠ decodeBytes (octets t)) : decode t = t := by
  unfold decode
  cases hdecode : decode? t with
  | none => rfl
  | some u =>
    refine absurd ?_ (h u)
    rw [octets_eq_encode, octets_eq_encode]
    exact Text.Utf8.encode_of_decode hdecode

theorem decode_ne_nil (h : t ≠ []) : decode t ≠ [] := by
  unfold decode
  cases hdecode : decode? t with
  | none => exact h
  | some u =>
    rintro rfl
    -- only the empty text has an empty form
    have hbytes : Text.Utf8.encode t ≠ [] := fun hempty => h <| by
      have hread := Text.Utf8.decode_encode t
      rw [hempty] at hread
      exact (Option.some.inj hread).symm
    exact decodeBytes_ne_nil hbytes (Text.Utf8.encode_of_decode hdecode).symm

theorem length_octets (t : Text) : (octets t).length = Text.width t := by
  rw [octets_eq_encode, Text.Utf8.length_encode]

/-- **Decoding undoes encoding, and is all or nothing otherwise.**  What is written for an encoded
variable holds unreserved characters and escapes, and is captured as the variable's value.  Any text
at all is decoded to the text that its escapes stand for, if they stand for one, and to itself if
they do not; it never gets longer, keeps its length only if it stays the same, and never vanishes. -/
theorem decode_all_or_nothing (t : Text) :
    (decode (encode t) = t ∧
      (∀ c ∈ encode t, c.isAlphanum = true ∨ c ∈ ['%', '-', '_', '.', '~']) ∧
      ∀ v params, v.effective params = t →
        (Token.placeholder v .encoded).rawValue ((Token.placeholder v .encoded).expand params) =
          .single t) ∧
    (∃ out, (∀ other, Unescapes (octets t) other ↔ other = out) ∧
      (∀ u, octets u = out → decode t = u) ∧
      ((∀ u, octets u ≠ out) → decode t = t)) ∧
    (octets (decode t)).length ≤ (octets t).length ∧
    ((octets (decode t)).length = (octets t).length → decode t = t) ∧
    (t ≠ [] → decode t ≠ []) := by
  have hshorter := decode_eq_self_or_shorter t
  rw [← length_octets, ← length_octets] at hshorter
  refine ⟨⟨decode_encode t, fun c => mem_encode, ?_⟩, ⟨decodeBytes (octets t), fun other =>
    unescapes_iff, fun u => decode_of_octets, decode_of_forall_octets_ne⟩, ?_, ?_, decode_ne_nil⟩
  · rintro v params rfl
    exact congrArg RawValue.single (decode_encode _)
  · rcases hshorter with hself | hlt
    · rw [hself]
    · exact Nat.le_of_lt hlt
  · intro hlength
    exact hshorter.resolve_right (by omega)

/-- A percent sign that is read from an escape begins no other, an escape that breaks off does not
hide the next one, and one byte that is no character keeps all escapes as they are. -/
example :
    decode (Text.ofString "100%2525") = Text.ofString "100%25" ∧
      decode (Text.ofString "%4%41%") = Text.ofString "%4A%" ∧
      decode (Text.ofString "%41%C3") = Text.ofString "%41%C3" := by decide

end UriRouting.Percent
