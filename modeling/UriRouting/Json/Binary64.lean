/-
# UriRouting.Json.Binary64 — finite floating-point numbers in exact arithmetic

A number with a fraction or an exponent is held as the nearest binary floating-point number of 64
bits: a sign, a mantissa below `2^53` and an exponent of two that is at least `-1074`.  All of it is
natural-number arithmetic, so every value below is exact and can be computed inside a proof.

`ofRatio` rounds a quotient to the nearest such number, a tie to the even mantissa; `mul` and `div`
round the exact product and quotient.
-/
import UriRouting.Text.Basic

namespace UriRouting.Json

/-- **`Binary64`** — the number `± mantissa · 2 ^ exponent`. -/
structure Binary64 where
  negative : Bool
  mantissa : Nat
  exponent : Int
  deriving DecidableEq, Repr, Inhabited

namespace Binary64

/-- The least mantissa of 53 bits: half of what no mantissa reaches. -/
def half : Nat := 0x10000000000000

/-- A quotient of natural numbers rounded to the nearest one, ties to even. -/
def roundDiv (num den : Nat) : Nat :=
  let q := num / den
  let r := num % den
  if 2 * r < den then q
  else if den < 2 * r then q + 1
  else if q % 2 = 0 then q else q + 1

/-- Numerator and denominator of `num / den / 2 ^ e`. -/
def scale (num den : Nat) (e : Int) : Nat × Nat :=
  if 0 ≤ e then (num, den * Nat.pow 2 e.toNat) else (num * Nat.pow 2 (-e).toNat, den)

/-- The exponent at which the quotient `num / den` has a mantissa of 53 bits, or the least
exponent. -/
def exponentFor (num den : Nat) : Int :=
  let e : Int := (Nat.log2 num : Int) - (Nat.log2 den : Int) - 52
  let (n, d) := scale num den e
  max (-1074) (if n / d < half then e - 1 else e)

/-- **`ofRatio`** — the nearest number to `± num / den`; `none` where that is infinite. -/
def ofRatio (negative : Bool) (num den : Nat) : Option Binary64 :=
  if num = 0 then some ⟨negative, 0, -1074⟩
  else
    let e := exponentFor num den
    let (n, d) := scale num den e
    let m := roundDiv n d
    let (m, e) := if m = 2 * half then (half, e + 1) else (m, e)
    if 971 < e then none else some ⟨negative, m, e⟩

/-- Numerator and denominator of the magnitude. -/
def ratio (x : Binary64) : Nat × Nat :=
  if 0 ≤ x.exponent then (x.mantissa * Nat.pow 2 x.exponent.toNat, 1)
  else (x.mantissa, Nat.pow 2 (-x.exponent).toNat)

/-- The rounded product. -/
def mul (x y : Binary64) : Option Binary64 :=
  let (a, b) := x.ratio
  let (c, d) := y.ratio
  ofRatio (x.negative != y.negative) (a * c) (b * d)

/-- The rounded quotient by a number other than zero. -/
def div (x y : Binary64) : Option Binary64 :=
  let (a, b) := x.ratio
  let (c, d) := y.ratio
  ofRatio (x.negative != y.negative) (a * d) (b * c)

/-- The nearest number to a natural number. -/
def ofNat (n : Nat) : Option Binary64 := ofRatio false n 1

/-- **`ofScaled`** — the number written with a decimal significand and a power of ten: the
significand and the power are rounded first, then multiplied or divided.  Powers beyond `10 ^ 308`
are taken in steps, and a division that is left with zero is zero. -/
def ofScaled (negative : Bool) (significand : Nat) (power : Int) : Option Binary64 :=
  let rec go : Nat → Binary64 → Int → Option Binary64
    | 0, _, _ => none
    | fuel + 1, f, p =>
      if p.natAbs ≤ 308 then
        match ofNat (Nat.pow 10 p.natAbs) with
        | none => none
        | some t => if 0 ≤ p then mul f t else div f t
      else if f.mantissa = 0 then some f
      else if 0 ≤ p then none
      else match ofNat (Nat.pow 10 308) with
        | none => none
        | some t => match div f t with
          | none => none
          | some f => go fuel f (p + 308)
  match ofNat significand with
  | none => none
  | some f => (go (power.natAbs / 308 + 2) f power).map fun f => { f with negative := negative }

end Binary64

end UriRouting.Json
