/-!
# Floats as integers times powers of two

Every finite float is `m * 2 ^ q` for a natural number `m` and an integer `q`, up to sign.
`Binary.ofFloat` takes its magnitude apart, so that floats are compared with integers, and written in decimal,
by exact arithmetic.
-/

namespace Lisplet

/-- A finite float without its sign: `mantissa * 2 ^ exponent`. -/
structure Binary where
  /-- The significant bits as a natural number. -/
  mantissa : Nat
  /-- The power of two that scales them. -/
  exponent : Int
  /-- The next smaller float is half as far away as the next larger one. -/
  closeBelow : Bool

/-- The sign bit of a float, set for negative zero as well. -/
def floatIsNegative (x : Float) : Bool := x.toBits.toNat / Nat.pow 2 63 == 1

/-- The magnitude of a finite float, taken apart. -/
def Binary.ofFloat (x : Float) : Binary :=
  let bits := x.toBits.toNat
  let field : Nat := bits / Nat.pow 2 52 % Nat.pow 2 11
  let fraction : Nat := bits % Nat.pow 2 52
  if field = 0 then ⟨fraction, -1074, false⟩
  else ⟨fraction + Nat.pow 2 52, (field : Int) - 1075, fraction = 0 && 1 < field⟩

/-- The finite float as an exact quotient of two natural numbers, the second one positive. -/
def Binary.quotient (b : Binary) : Nat × Nat :=
  if 0 ≤ b.exponent then (b.mantissa * Nat.pow 2 b.exponent.toNat, 1)
  else (b.mantissa, Nat.pow 2 (-b.exponent).toNat)

/-- Compares an integer with a float by exact values. A NaN compares with nothing. -/
def compareIntFloat? (n : Int) (x : Float) : Option Ordering :=
  if x.isNaN then none
  else if x.isInf then some (if floatIsNegative x then .gt else .lt)
  else
    let (num, den) := (Binary.ofFloat x).quotient
    let value : Int := if floatIsNegative x then -(num : Int) else num
    some (compare (n * den) value)

/-- The nearest float of an integer, a tie going to the even mantissa; none when it is too large. -/
def floatOfInt? (n : Int) : Option Float :=
  if 1100 < n.natAbs.log2 then none
  else
    let x := Float.ofInt n
    if x.isInf then none else some x

end Lisplet
