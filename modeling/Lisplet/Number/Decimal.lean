import Lisplet.Number.Binary
import Lisplet.Number.Radix

/-!
# Floats in decimal notation

A finite float is written with the fewest digits that read back as the same float, and of those with
the ones nearest to its value. `Decimal.shortest` finds them by exact arithmetic: on the grids of one,
two, … seventeen digits it looks at the two neighbours of the value, and stops at the first grid
where one of them reads back. `FloatStyle` says how the digits are laid out.
-/

namespace Lisplet

/-- A decimal number without sign: `digits * 10 ^ exponent`. -/
structure Decimal where
  /-- The significant digits as a natural number. -/
  digits : Nat
  /-- The power of ten that scales them. -/
  exponent : Int

namespace Decimal

/-- Scales the fraction `num / den` by a power of ten. -/
def scaleByTen (num den : Nat) (power : Int) : Nat × Nat :=
  if 0 ≤ power then (num * Nat.pow 10 power.toNat, den)
  else (num, den * Nat.pow 10 (-power).toNat)

/-- The least `k` with `den ≤ num * 10 ^ k`, if it is below the fuel. -/
def powerBelowOne (num den : Nat) : Nat → Nat → Nat
  | 0, k => k
  | fuel + 1, k => if den ≤ num then k else powerBelowOne (num * 10) den fuel (k + 1)

/-- The power of ten of the first digit of a positive fraction. -/
def leadingPower (num den : Nat) : Int :=
  if den ≤ num then ((natDigits 10 (num / den)).length : Int) - 1
  else -(powerBelowOne num den 400 0 : Int)

/-- The interval of numbers that read back as a float, and the float itself, over one denominator. -/
structure Neighbourhood where
  /-- Numerator of the value. -/
  value : Nat
  /-- Numerator of the lower end. -/
  lower : Nat
  /-- Numerator of the upper end. -/
  upper : Nat
  /-- The common denominator. -/
  denominator : Nat
  /-- Both ends read back too, which holds when the mantissa is even. -/
  closed : Bool

/-- The interval of numbers that read back as a float. -/
def Neighbourhood.ofBinary (b : Binary) : Neighbourhood :=
  let (scale, den) :=
    if 2 ≤ b.exponent then (Nat.pow 2 (b.exponent - 2).toNat, 1)
    else (1, Nat.pow 2 (2 - b.exponent).toNat)
  let centre := 4 * b.mantissa
  { value := centre * scale
    lower := (centre - if b.closeBelow then 1 else 2) * scale
    upper := (centre + 2) * scale
    denominator := den
    closed := b.mantissa % 2 == 0 }

/-- Whether `num / den` reads back. -/
def Neighbourhood.contains (r : Neighbourhood) (num den : Nat) : Bool :=
  if r.closed then
    r.lower * den ≤ num * r.denominator && num * r.denominator ≤ r.upper * den
  else
    r.lower * den < num * r.denominator && num * r.denominator < r.upper * den

/-- The nearest number with last digit at `10 ^ power` that reads back; of two equally near ones the
even one. -/
def Neighbourhood.onGrid? (r : Neighbourhood) (power : Int) : Option Decimal :=
  let (num, den) := scaleByTen r.value r.denominator (-power)
  let below := num / den
  let (belowNum, belowDen) := scaleByTen below 1 power
  let (aboveNum, aboveDen) := scaleByTen (below + 1) 1 power
  let twice := 2 * (num % den)
  let fitsBelow := r.contains belowNum belowDen
  let fitsAbove := r.contains aboveNum aboveDen
  if fitsBelow && (!fitsAbove || twice < den || (twice == den && below % 2 == 0)) then
    some ⟨below, power⟩
  else if fitsAbove then some ⟨below + 1, power⟩
  else none

/-- The first grid that has a number that reads back, with `count` digits or more. -/
def Neighbourhood.search (r : Neighbourhood) (lead : Int) : Nat → Nat → Decimal
  | 0, _ => ⟨r.value / r.denominator, 0⟩
  | fuel + 1, count =>
    match r.onGrid? (lead + 1 - count) with
    | some d => d
    | none => r.search lead fuel (count + 1)

/-- The shortest decimal that reads back as a positive finite float, nearest of its length. -/
def shortest (b : Binary) : Decimal :=
  let r := Neighbourhood.ofBinary b
  r.search (leadingPower r.value r.denominator) 17 1

end Decimal

/-- How the digits of a float are laid out. -/
structure FloatStyle where
  /-- The least power of ten of the first digit that is written positionally. -/
  leastPositional : Int
  /-- The first power of ten that is written with an exponent again. -/
  firstScientific : Int
  /-- The exponent has at least this many digits. -/
  exponentDigits : Nat
  /-- The text of every NaN. -/
  notANumber : Text
  /-- The text of positive infinity. -/
  infinity : Text
  /-- The text of negative infinity. -/
  minusInfinity : Text

/-- Numbers are positional from `10 ^ -4` up to below `10 ^ 16`; an exponent has two digits. -/
def floatStyle : FloatStyle where
  leastPositional := -4
  firstScientific := 16
  exponentDigits := 2
  notANumber := "+nan.0"
  infinity := "+inf.0"
  minusInfinity := "-inf.0"

namespace FloatStyle

/-- Digits with a point at place `place`, zeros filling up on either side. -/
def positional (digits : Text) (place : Int) : Text :=
  if place ≤ 0 then
    text "0." ++ List.replicate (-place).toNat (CodePoint.ofChar '0') ++ digits
  else
    let n := place.toNat
    if digits.length ≤ n then
      digits ++ List.replicate (n - digits.length) (CodePoint.ofChar '0') ++ text ".0"
    else digits.take n ++ text "." ++ digits.drop n

/-- Digits with the point after the first one and an exponent. -/
def scientific (style : FloatStyle) (digits : Text) (power : Int) : Text :=
  let fraction := digits.drop 1
  let magnitude := natText power.natAbs
  let padding := List.replicate (style.exponentDigits - magnitude.length) (CodePoint.ofChar '0')
  digits.take 1 ++ (if fraction.isEmpty then [] else text "." ++ fraction) ++
    text (if power < 0 then "e-" else "e+") ++ padding ++ magnitude

/-- A positive finite float. -/
def magnitude (style : FloatStyle) (b : Binary) : Text :=
  let d := Decimal.shortest b
  let all := natText d.digits
  let digits := (all.reverse.dropWhile fun c => decide (c = CodePoint.ofChar '0')).reverse
  let power : Int := d.exponent + all.length - 1
  if style.leastPositional ≤ power ∧ power < style.firstScientific then
    positional digits (power + 1)
  else style.scientific digits power

/-- The text of a float. -/
def render (style : FloatStyle) (x : Float) : Text :=
  if x.isNaN then style.notANumber
  else if x.isInf then
    if floatIsNegative x then style.minusInfinity else style.infinity
  else
    let b := Binary.ofFloat x
    (if floatIsNegative x then text "-" else []) ++
      (if b.mantissa = 0 then text "0.0" else style.magnitude b)

end FloatStyle

/-- The text of a float. -/
def floatText (x : Float) : Text := floatStyle.render x

/-- The float nearest to `mantissa * 10 ^ exponent`, a tie going to the even mantissa; `count` is the
number of digits of the mantissa, leading zeros included. -/
def floatOfDecimal (negative : Bool) (mantissa count : Nat) (exponent : Int) : Float :=
  let magnitude : Float :=
    if mantissa = 0 ∨ exponent + count < -400 then 0.0
    else if 400 < exponent then 1.0 / 0.0
    else Float.ofScientific mantissa (exponent < 0) exponent.natAbs
  if negative then -magnitude else magnitude

end Lisplet
