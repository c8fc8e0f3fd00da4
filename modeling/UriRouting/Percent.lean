/-
# UriRouting.Percent — percent-coding

`encode` leaves the unreserved characters of a URI (letters, digits, `-`, `_`, `.`, `~`) and writes
every other byte of the UTF-8 form as `%` and two upper-case hexadecimal digits.  `decode` reads a
captured text: every `%` that two hexadecimal digits follow becomes that byte, any other `%` stays,
and if the bytes so obtained are not UTF-8 the text is kept as it was captured.

Reading undoes writing, and both work on bytes: a character outside ASCII takes several escapes.
-/
import UriRouting.Text.Utf8

namespace UriRouting.Percent

open Text (Utf8.encode Utf8.decode)

/-- The upper-case hexadecimal digit of a number below 16. -/
def hexDigit (n : Nat) : Char :=
  if n < 10 then Char.ofNat (0x30 + n) else Char.ofNat (0x41 + (n - 10))

/-- The number that a hexadecimal digit of either case stands for. -/
def hexValue (c : Char) : Option Nat :=
  if '0' ≤ c ∧ c ≤ '9' then some (c.toNat - 0x30)
  else if 'a' ≤ c ∧ c ≤ 'f' then some (c.toNat - 0x61 + 10)
  else if 'A' ≤ c ∧ c ≤ 'F' then some (c.toNat - 0x41 + 10)
  else none

/-- The number that hexadecimal digits write. -/
def hexNumber (digits : Text) : Nat :=
  digits.foldl (fun acc c => acc * 16 + (hexValue c).getD 0) 0

/-- The escape of a byte: `%` and two upper-case digits. -/
def escape (b : UInt8) : Text := ['%', hexDigit (b.toNat / 16), hexDigit (b.toNat % 16)]

/-- **`encodeUnless keep t`** — every character outside `keep` is written as the escapes of its
bytes. -/
def encodeUnless (keep : Char → Bool) (t : Text) : Text :=
  t.flatMap fun c => if keep c then [c] else (Text.Utf8.encodeChar c).flatMap escape

/-- The unreserved characters: letters, digits, `-`, `_`, `.`, `~`. -/
def isUnreserved (c : Char) : Bool :=
  c.isAlphanum || c == '-' || c == '_' || c == '.' || c == '~'

/-- **`encode t`** — `t` with all but its unreserved characters escaped. -/
def encode (t : Text) : Text := encodeUnless isUnreserved t

/-- The hexadecimal value of an ASCII byte. -/
def hexOfByte (b : UInt8) : Option Nat := hexValue (Char.ofNat b.toNat)

/-- **`decodeBytes`** — each `%` and two hexadecimal digits become one byte, read once from left to
right; all other bytes stay. -/
def decodeBytes : List UInt8 → List UInt8
  | [] => []
  | [a] => [a]
  | [a, b] => [a, b]
  | a :: b :: c :: rest =>
    if a = 0x25 then
      match hexOfByte b, hexOfByte c with
      | some hi, some lo => UInt8.ofNat (16 * hi + lo) :: decodeBytes rest
      | _, _ => a :: decodeBytes (b :: c :: rest)
    else a :: decodeBytes (b :: c :: rest)

/-- **`decode? t`** — the text that the escapes of `t` stand for, if its bytes are UTF-8. -/
def decode? (t : Text) : Option Text := Utf8.decode (decodeBytes (Utf8.encode t))

/-- **`decode t`** — the text that the escapes of `t` stand for; `t` itself where they stand for no
text. -/
def decode (t : Text) : Text := (decode? t).getD t

end UriRouting.Percent
