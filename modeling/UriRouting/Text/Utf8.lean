/-
# UriRouting.Text.Utf8 — text as bytes

Percent-coding works on bytes, so text has to be taken to its UTF-8 form and back.  `encode` writes
the form; `decode` accepts exactly well-formed byte strings; `decodeLossy` reads any byte string and
puts U+FFFD where a sequence breaks off, one for each longest beginning of a well-formed sequence.
-/
import UriRouting.Text.Basic

namespace UriRouting.Text.Utf8

/-- The UTF-8 form of one character: one to four bytes, the shortest that fits. -/
def encodeChar (c : Char) : List UInt8 :=
  let n := c.toNat
  if n < 0x80 then [UInt8.ofNat n]
  else if n < 0x800 then [UInt8.ofNat (0xC0 + n / 64), UInt8.ofNat (0x80 + n % 64)]
  else if n < 0x10000 then
    [UInt8.ofNat (0xE0 + n / 4096), UInt8.ofNat (0x80 + n / 64 % 64), UInt8.ofNat (0x80 + n % 64)]
  else
    [UInt8.ofNat (0xF0 + n / 262144), UInt8.ofNat (0x80 + n / 4096 % 64),
     UInt8.ofNat (0x80 + n / 64 % 64), UInt8.ofNat (0x80 + n % 64)]

/-- **`encode t`** — the UTF-8 form of a text. -/
def encode (t : Text) : List UInt8 := t.flatMap encodeChar

/-- The bytes that may follow a lead byte. -/
def isTail (b : UInt8) : Bool := 0x80 ≤ b.toNat && b.toNat < 0xC0

/-- The bytes that may follow the lead byte of a three-byte sequence: no overlong form, no
surrogate. -/
def isSecondOfThree (lead b : UInt8) : Bool :=
  isTail b && (lead.toNat != 0xE0 || 0xA0 ≤ b.toNat) && (lead.toNat != 0xED || b.toNat < 0xA0)

/-- The bytes that may follow the lead byte of a four-byte sequence: no overlong form, nothing above
U+10FFFF. -/
def isSecondOfFour (lead b : UInt8) : Bool :=
  isTail b && (lead.toNat != 0xF0 || 0x90 ≤ b.toNat) && (lead.toNat != 0xF4 || b.toNat < 0x90)

/-- What stands at the beginning of a byte string. -/
inductive Lead
  /-- a character's whole form -/
  | char (c : Char) (taken : Nat)
  /-- a beginning of `taken` bytes that no form continues -/
  | broken (taken : Nat)

/-- **`lead`** — reads the first character of a non-empty byte string, given as its first byte and
the rest. -/
def lead (a : UInt8) (rest : List UInt8) : Lead :=
  let n := a.toNat
  if n < 0x80 then .char (Char.ofNat n) 1
  else if 0xC2 ≤ n && n < 0xE0 then
    match rest with
    | b :: _ =>
      if isTail b then .char (Char.ofNat ((n - 0xC0) * 64 + (b.toNat - 0x80))) 2 else .broken 1
    | [] => .broken 1
  else if 0xE0 ≤ n && n < 0xF0 then
    match rest with
    | b :: rest' =>
      if isSecondOfThree a b then
        match rest' with
        | c :: _ =>
          if isTail c then
            .char (Char.ofNat ((n - 0xE0) * 4096 + (b.toNat - 0x80) * 64 + (c.toNat - 0x80))) 3
          else .broken 2
        | [] => .broken 2
      else .broken 1
    | [] => .broken 1
  else if 0xF0 ≤ n && n < 0xF5 then
    match rest with
    | b :: rest' =>
      if isSecondOfFour a b then
        match rest' with
        | c :: rest'' =>
          if isTail c then
            match rest'' with
            | d :: _ =>
              if isTail d then
                .char (Char.ofNat ((n - 0xF0) * 262144 + (b.toNat - 0x80) * 4096
                  + (c.toNat - 0x80) * 64 + (d.toNat - 0x80))) 4
              else .broken 3
            | [] => .broken 3
          else .broken 2
        | [] => .broken 2
      else .broken 1
    | [] => .broken 1
  else .broken 1

/-- Reads at most `fuel` characters; every character takes a byte, so the number of bytes is
enough. -/
def decodeWithin : Nat → List UInt8 → Option Text
  | _, [] => some []
  | 0, _ :: _ => none
  | fuel + 1, a :: rest =>
    match lead a rest with
    | .char c taken => (decodeWithin fuel ((a :: rest).drop taken)).map (c :: ·)
    | .broken _ => none

/-- **`decode bytes`** — the text whose UTF-8 form is `bytes`, if they are well-formed. -/
def decode (bytes : List UInt8) : Option Text := decodeWithin bytes.length bytes

/-- The fuelled form of `decodeLossy`. -/
def decodeLossyWithin : Nat → List UInt8 → Text
  | _, [] => []
  | 0, _ :: _ => []
  | fuel + 1, a :: rest =>
    match lead a rest with
    | .char c taken => c :: decodeLossyWithin fuel ((a :: rest).drop taken)
    | .broken taken => '\uFFFD' :: decodeLossyWithin fuel ((a :: rest).drop taken)

/-- **`decodeLossy bytes`** — like `decode`, with U+FFFD in the place of each broken sequence. -/
def decodeLossy (bytes : List UInt8) : Text := decodeLossyWithin bytes.length bytes

end UriRouting.Text.Utf8
