/-
# UriRouting.Json.Shortest — the fewest digits that read back

A floating-point number is written with the shortest decimal that rounds to it.  For 1, 2, … digits
the two neighbours of the value on that decimal grid are tested against the interval of reals that
round to the value; the first grid with a hit decides the number of digits, and of two hits the
nearer one is taken, a tie going to the even digit.

`render` adds the layout: always a fraction or an exponent, positional from `1e-5` up to below
`1e16`, and otherwise one digit before the point and a signed exponent.
-/
import UriRouting.Json.Binary64
import UriRouting.Text.Basic

namespace UriRouting.Json.Shortest

/-- The reals that round to a number, over a common denominator: lower end, value, upper end,
denominator, and whether the ends belong to it. -/
structure Interval where
  low : Nat
  value : Nat
  high : Nat
  den : Nat
  closed : Bool

/-- The interval of a number other than zero.  Below a power of two the neighbour is half as far. -/
def Interval.of (x : Binary64) : Interval :=
  let m := x.mantissa
  let (num, den) : Nat × Nat :=
    if 2 ≤ x.exponent then (Nat.pow 2 (x.exponent - 2).toNat, 1)
    else (1, Nat.pow 2 (2 - x.exponent).toNat)
  let below := if m = Binary64.half ∧ -1074 < x.exponent then 1 else 2
  ⟨(4 * m - below) * num, 4 * m * num, (4 * m + 2) * num, den, m % 2 = 0⟩

/-- `d * 10 ^ g` over the denominator of the interval lies in the interval. -/
def Interval.holds (i : Interval) (d : Nat) (g : Int) : Bool :=
  let (p, q) : Nat × Nat := if 0 ≤ g then (Nat.pow 10 g.toNat, 1) else (1, Nat.pow 10 (-g).toNat)
  let x := d * p * i.den
  if i.closed then i.low * q ≤ x && x ≤ i.high * q else i.low * q < x && x < i.high * q

/-- The power of ten just above the value: `10 ^ (k - 1) ≤ value < 10 ^ k`. -/
def Interval.magnitude (i : Interval) : Int :=
  let k : Int :=
    ((Text.Decimal.ofNat i.value).length : Int) - ((Text.Decimal.ofNat i.den).length : Int)
  let atLeast : Bool :=
    if 0 ≤ k then i.den * Nat.pow 10 k.toNat ≤ i.value
    else i.den ≤ i.value * Nat.pow 10 (-k).toNat
  if atLeast then k + 1 else k

/-- The best decimal on the grid `10 ^ g`, if one of the value's neighbours there is in the
interval. -/
def Interval.onGrid (i : Interval) (g : Int) : Option Nat :=
  let (num, den) : Nat × Nat :=
    if 0 ≤ g then (i.value, i.den * Nat.pow 10 g.toNat)
    else (i.value * Nat.pow 10 (-g).toNat, i.den)
  let d := num / den
  match i.holds d g, i.holds (d + 1) g with
  | true, true => some (Binary64.roundDiv num den)
  | true, false => some d
  | false, true => some (d + 1)
  | false, false => none

/-- Tries grids of more and more digits, `fuel` of them at most. -/
def search (i : Interval) (k : Int) : Nat → Nat → Nat × Int
  | 0, n => (((i.onGrid (k - n)).getD 0), k - n)
  | fuel + 1, n =>
    match i.onGrid (k - n) with
    | some d => (d, k - n)
    | none => search i k fuel (n + 1)

/-- Takes the zeros off the end of a decimal. -/
def stripZeros : Nat → Nat → Int → Nat × Int
  | 0, d, g => (d, g)
  | fuel + 1, d, g =>
    if d ≠ 0 ∧ d % 10 = 0 then stripZeros fuel (d / 10) (g + 1) else (d, g)

/-- **`decimal x`** — digits and power of ten of the shortest decimal for a number other than
zero. -/
def decimal (x : Binary64) : Nat × Int :=
  let i := Interval.of x
  let (d, g) := search i i.magnitude 17 1
  stripZeros 20 d g

/-- **`render x`** — the number as JSON text. -/
def render (x : Binary64) : Text :=
  let sign : Text := if x.negative then ['-'] else []
  if x.mantissa = 0 then sign ++ ['0', '.', '0']
  else
    let (d, g) := decimal x
    let digits := Text.Decimal.ofNat d
    let point : Int := digits.length + g
    let zeros (n : Int) : Text := List.replicate n.toNat '0'
    let body : Text :=
      if 0 ≤ g ∧ point ≤ 16 then digits ++ zeros g ++ ['.', '0']
      else if 0 < point ∧ point ≤ 16 then
        digits.take point.toNat ++ ['.'] ++ digits.drop point.toNat
      else if -5 < point ∧ point ≤ 0 then ['0', '.'] ++ zeros (-point) ++ digits
      else
        let e := point - 1
        let power := (if e < 0 then ['-'] else ['+']) ++ Text.Decimal.ofNat e.natAbs
        match digits with
        | [c] => [c, 'e'] ++ power
        | c :: rest => [c, '.'] ++ rest ++ ['e'] ++ power
        | [] => []
    sign ++ body

end UriRouting.Json.Shortest
