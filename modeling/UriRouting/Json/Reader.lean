/-
# UriRouting.Json.Reader — JSON from text

`read` takes a whole text and gives the value it writes.  A number without fraction and exponent is
a whole number if it fits 64 bits, signed or unsigned; every other number is a floating-point
number.  A string may name characters by `\u` escapes, in pairs of surrogates above U+FFFF.
-/
import UriRouting.Json.Basic
import UriRouting.Percent

namespace UriRouting.Json.Reader

/-- The blanks between the parts of a value. -/
def isSpace (c : Char) : Bool := c == ' ' || c == '\t' || c == '\n' || c == '\r'

def skip (s : Text) : Text := s.dropWhile isSpace

/-- Four hexadecimal digits. -/
def hex4 : Text → Option (Nat × Text)
  | a :: b :: c :: d :: rest => do
    let a ← Percent.hexValue a
    let b ← Percent.hexValue b
    let c ← Percent.hexValue c
    let d ← Percent.hexValue d
    return (a * 4096 + b * 256 + c * 16 + d, rest)
  | _ => none

/-- The rest of a string after its opening quotation mark, read to the closing one. -/
def stringTail : Nat → Text → Option (Text × Text)
  | 0, _ => none
  | fuel + 1, s =>
    match s with
    | [] => none
    | '"' :: rest => some ([], rest)
    | '\\' :: 'u' :: rest => do
      let (n, rest) ← hex4 rest
      if 0xD800 ≤ n ∧ n < 0xDC00 then
        match rest with
        | '\\' :: 'u' :: rest =>
          let (m, rest) ← hex4 rest
          if 0xDC00 ≤ m ∧ m < 0xE000 then
            let c := Char.ofNat (0x10000 + (n - 0xD800) * 0x400 + (m - 0xDC00))
            let (t, rest) ← stringTail fuel rest
            return (c :: t, rest)
          else none
        | _ => none
      else if 0xDC00 ≤ n ∧ n < 0xE000 then none
      else
        let (t, rest) ← stringTail fuel rest
        return (Char.ofNat n :: t, rest)
    | '\\' :: c :: rest => do
      let d ← match c with
        | '"' => some '"'
        | '\\' => some '\\'
        | '/' => some '/'
        | 'b' => some (Char.ofNat 8)
        | 'f' => some (Char.ofNat 12)
        | 'n' => some '\n'
        | 'r' => some '\r'
        | 't' => some '\t'
        | _ => none
      let (t, rest) ← stringTail fuel rest
      return (d :: t, rest)
    | c :: rest =>
      if c.toNat < 0x20 then none
      else do
        let (t, rest) ← stringTail fuel rest
        return (c :: t, rest)

/-- The largest significand that is kept: that of an unsigned 64-bit word. -/
def significandLimit : Nat := 0xFFFFFFFFFFFFFFFF

/-- Reads digits into a significand while it fits; says how many digits were taken and which are
left. -/
def digitsInto : Nat → Nat → Text → Nat × Nat × Text
  | acc, taken, c :: rest =>
    if c.isDigit ∧ acc * 10 + (c.toNat - 48) ≤ significandLimit then
      digitsInto (acc * 10 + (c.toNat - 48)) (taken + 1) rest
    else (acc, taken, c :: rest)
  | acc, taken, [] => (acc, taken, [])

/-- The exponent part, if there is one: its value and the rest. -/
def exponentPart : Text → Option (Int × Text)
  | c :: rest =>
    if c = 'e' ∨ c = 'E' then
      let (negative, rest) : Bool × Text := match rest with
        | '+' :: r => (false, r)
        | '-' :: r => (true, r)
        | r => (false, r)
      let digits := rest.takeWhile Char.isDigit
      if digits = [] then none
      else
        let n : Int := Text.Decimal.value 0 digits
        some (if negative then -n else n, rest.dropWhile Char.isDigit)
    else some (0, c :: rest)
  | [] => some (0, [])

/-- A number after its sign.  Digits that no longer fit the significand move the power of ten before
the point and are dropped after it. -/
def unsignedNumber (negative : Bool) (s : Text) : Option (Json × Text) := do
  let all := s.takeWhile Char.isDigit
  guard (all ≠ [])
  guard (all.head? ≠ some '0' ∨ all.length = 1)
  let (significand, _, left) := digitsInto 0 0 all
  let rest := s.dropWhile Char.isDigit
  let fits := left.isEmpty
  match rest with
  | '.' :: fraction =>
    let digits := fraction.takeWhile Char.isDigit
    guard (digits ≠ [])
    let (significand, taken, _) := digitsInto significand 0 digits
    let (e, rest) ← exponentPart (fraction.dropWhile Char.isDigit)
    let x ← Binary64.ofScaled negative significand (left.length - taken + e)
    return (.real x, rest)
  | rest =>
    let whole := match rest with
      | 'e' :: _ => false
      | 'E' :: _ => false
      | _ => true
    if whole && fits && !(negative && (significand == 0 || decide (0x8000000000000000 < significand))) then
      return (.int (if negative then -(significand : Int) else significand), rest)
    else
      let (e, rest) ← exponentPart rest
      let x ← Binary64.ofScaled negative significand (left.length + e)
      return (.real x, rest)

/-- A number. -/
def number : Text → Option (Json × Text)
  | '-' :: rest => unsignedNumber true rest
  | s => unsignedNumber false s

mutual

/-- A value at the front of a text. -/
def value : Nat → Text → Option (Json × Text)
  | 0, _ => none
  | fuel + 1, s =>
    match skip s with
    | 'n' :: 'u' :: 'l' :: 'l' :: rest => some (.null, rest)
    | 't' :: 'r' :: 'u' :: 'e' :: rest => some (.bool true, rest)
    | 'f' :: 'a' :: 'l' :: 's' :: 'e' :: rest => some (.bool false, rest)
    | '"' :: rest => (stringTail (rest.length + 1) rest).map fun (t, r) => (.string t, r)
    | '[' :: rest =>
      match skip rest with
      | ']' :: rest => some (.array [], rest)
      | rest => (items fuel rest).map fun (vs, r) => (.array vs, r)
    | '{' :: rest =>
      match skip rest with
      | '}' :: rest => some (.object [], rest)
      | rest => (members fuel rest).map fun (ms, r) => (ofMembers ms, r)
    | s => number s

/-- The items of an array up to its closing bracket. -/
def items : Nat → Text → Option (List Json × Text)
  | 0, _ => none
  | fuel + 1, s => do
    let (v, rest) ← value fuel s
    match skip rest with
    | ',' :: rest =>
      let (vs, rest) ← items fuel rest
      return (v :: vs, rest)
    | ']' :: rest => return ([v], rest)
    | _ => none

/-- The members of an object up to its closing brace. -/
def members : Nat → Text → Option (List (Text × Json) × Text)
  | 0, _ => none
  | fuel + 1, s =>
    match skip s with
    | '"' :: rest => do
      let (name, rest) ← stringTail (rest.length + 1) rest
      match skip rest with
      | ':' :: rest =>
        let (v, rest) ← value fuel rest
        match skip rest with
        | ',' :: rest =>
          let (ms, rest) ← members fuel rest
          return ((name, v) :: ms, rest)
        | '}' :: rest => return ([(name, v)], rest)
        | _ => none
      | _ => none
    | _ => none

end

/-- **`read t`** — the value that the whole text writes. -/
def read (t : Text) : Option Json :=
  match value (2 * t.length + 2) t with
  | some (v, rest) => if skip rest = [] then some v else none
  | none => none

end UriRouting.Json.Reader
