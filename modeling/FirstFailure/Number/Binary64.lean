/-!
# Binary floating point numbers of 64 bits

A finite number is a sign, a significand below `2 ^ 53` and a power of two. `Binary64.ofDecimal`
rounds a decimal to the nearest such number, ties to the even significand; `Binary64.shortest`
finds the fewest decimal digits that round back to a number. Both work in exact arithmetic.
-/

namespace FirstFailure

/-- The number `± significand * 2 ^ exponent`. -/
structure Binary64 where
  negative : Bool
  significand : Nat
  exponent : Int
deriving Repr, DecidableEq, Inhabited

namespace Binary64

/-- Bits of a significand. -/
def precision : Nat := 53

/-- The exponent of the smallest positive number. -/
def minExponent : Int := -1074

/-- The largest exponent of a finite number. -/
def maxExponent : Int := 971

/-- The quotient rounded to the nearest number, ties to the even one. -/
def roundQuotient (num den : Nat) : Nat :=
  let q := num / den
  let twice := 2 * (num % den)
  if twice < den then q
  else if den < twice then q + 1
  else if q % 2 = 0 then q else q + 1

/-- Scale the fraction `num / den` by `2 ^ -exponent`. -/
def scaled (num den : Nat) (exponent : Int) : Nat × Nat :=
  if exponent < 0 then (num * Nat.pow 2 (-exponent).toNat, den)
  else (num, den * Nat.pow 2 exponent.toNat)

/-- The exponent at which the positive fraction `num / den` has a significand of full precision,
or the smallest exponent there is. -/
def exponentFor (num den : Nat) : Int :=
  let guess : Int := (Nat.log2 num : Int) - (Nat.log2 den : Int) - (precision : Int) + 1
  let exact :=
    let (n, d) := scaled num den guess
    if n / d < Nat.pow 2 (precision - 1) then guess - 1 else guess
  max exact minExponent

/-- The number nearest to the fraction `num / den`, or `none` when it is too large. -/
def ofFraction (negative : Bool) (num den : Nat) : Option Binary64 :=
  if num = 0 then some ⟨negative, 0, minExponent⟩
  else
    let exponent := exponentFor num den
    let (n, d) := scaled num den exponent
    let rounded := roundQuotient n d
    let number : Binary64 :=
      if rounded = Nat.pow 2 precision then ⟨negative, Nat.pow 2 (precision - 1), exponent + 1⟩
      else ⟨negative, rounded, exponent⟩
    if maxExponent < number.exponent then none else some number

/-- The number nearest to `digits * 10 ^ power`, or `none` when it is too large. Powers far outside
the range are settled without computing them. -/
def ofDecimal (negative : Bool) (digits : Nat) (power : Int) : Option Binary64 :=
  let size : Int := (Nat.log2 digits : Int) / 3 + 1
  if digits = 0 ∨ power + size < -400 then some ⟨negative, 0, minExponent⟩
  else if 400 < power then none
  else if 0 ≤ power then ofFraction negative (digits * Nat.pow 10 power.toNat) 1
  else ofFraction negative digits (Nat.pow 10 (-power).toNat)

/-- Whether a number has no fractional part. -/
def isIntegral (x : Binary64) : Bool :=
  0 ≤ x.exponent ∨ x.significand % Nat.pow 2 (-x.exponent).toNat = 0

/-- Whether a number is below an integer. -/
def ltInt (x : Binary64) (n : Int) : Bool :=
  let m : Int := if x.negative then -x.significand else x.significand
  if 0 ≤ x.exponent then m * Nat.pow 2 x.exponent.toNat < n
  else m < n * Nat.pow 2 (-x.exponent).toNat

/-- Whether a number is above an integer. -/
def gtInt (x : Binary64) (n : Int) : Bool :=
  let m : Int := if x.negative then -x.significand else x.significand
  if 0 ≤ x.exponent then n < m * Nat.pow 2 x.exponent.toNat
  else n * Nat.pow 2 (-x.exponent).toNat < m

/-- A nonzero magnitude with the ends of the interval that rounds to it, as numerators over one
denominator. -/
structure Rounding where
  low : Nat
  value : Nat
  high : Nat
  den : Nat
  closed : Bool

/-- The interval that rounds to a magnitude. Below a power of two the gap is half as wide; the ends
belong to the interval when the significand is even. -/
def rounding (x : Binary64) : Rounding :=
  let m := 4 * x.significand
  let below :=
    if x.significand = Nat.pow 2 (precision - 1) ∧ minExponent < x.exponent then 1 else 2
  let closed := x.significand % 2 = 0
  if 0 ≤ x.exponent then
    let p := Nat.pow 2 x.exponent.toNat
    ⟨(m - below) * p, m * p, (m + 2) * p, 4, closed⟩
  else ⟨m - below, m, m + 2, 4 * Nat.pow 2 (-x.exponent).toNat, closed⟩

/-- Whether the point `k * num / den` of a grid lies in the interval. -/
def Rounding.holds (r : Rounding) (k num den : Nat) : Bool :=
  let point := k * num * r.den
  if r.closed then r.low * den ≤ point ∧ point ≤ r.high * den
  else r.low * den < point ∧ point < r.high * den

/-- The multiple of `10 ^ power` nearest to the magnitude among its two neighbours that round to it,
ties to the even one. -/
def Rounding.onGrid? (r : Rounding) (power : Int) : Option Nat :=
  let (num, den) :=
    if 0 ≤ power then (Nat.pow 10 power.toNat, 1) else (1, Nat.pow 10 (-power).toNat)
  let k := r.value * den / (num * r.den)
  let up := r.holds (k + 1) num den
  let down := k ≠ 0 ∧ r.holds k num den
  let twice := 2 * (r.value * den - k * num * r.den)
  let gap := num * r.den
  if down ∧ up then
    some (if twice < gap then k else if gap < twice then k + 1 else if k % 2 = 0 then k else k + 1)
  else if down then some k
  else if up then some (k + 1)
  else none

/-- The first of the grids `10 ^ power`, `10 ^ (power - 1)`, … that has a point in the interval. -/
def Rounding.coarsest (r : Rounding) : (steps : Nat) → (power : Int) → Nat × Int
  | 0, power => ((r.onGrid? power).getD 0, power)
  | steps + 1, power =>
    match r.onGrid? power with
    | some k => (k, power)
    | none => r.coarsest steps (power - 1)

/-- Digits and power of ten of the shortest decimal that rounds to the magnitude of a number. -/
def shortest (x : Binary64) : Nat × Int :=
  if x.significand = 0 then (0, 0)
  else
    let r := x.rounding
    let top : Int := ((Nat.log2 x.significand : Int) + x.exponent + 1) * 1233 / 4096 + 2
    r.coarsest 40 top

/-- The text of an exponent, which carries its sign. -/
def exponentText (exponent : Int) : String :=
  (if exponent < 0 then "-" else "+") ++ toString exponent.natAbs

/-- The text of a number: positional for exponents from -5 to 15, with `.0` after an integer, and
in scientific notation otherwise. -/
def text (x : Binary64) : String :=
  let (k, power) := x.shortest
  let digits := (toString k).toList
  let point : Int := digits.length + power
  let body : List Char :=
    if k = 0 then ['0', '.', '0']
    else if 0 ≤ power ∧ point ≤ 16 then
      digits ++ List.replicate power.toNat '0' ++ ['.', '0']
    else if 0 < point ∧ point ≤ 16 then
      digits.take point.toNat ++ '.' :: digits.drop point.toNat
    else if -5 < point ∧ point ≤ 0 then
      '0' :: '.' :: List.replicate (-point).toNat '0' ++ digits
    else
      let mantissa := match digits with
        | [d] => [d]
        | d :: rest => d :: '.' :: rest
        | [] => []
      mantissa ++ 'e' :: (exponentText (point - 1)).toList
  String.ofList (if x.negative then '-' :: body else body)

end Binary64

end FirstFailure
