import Lisplet.Number.Binary

/-!
# Arithmetic on integers and floats

A number is an integer of any size or a float. Two integers stay integers; an integer that meets a
float becomes the nearest float, and is too large if there is none. Comparison is by exact value.
Division of integers goes toward zero.
-/

namespace Lisplet

/-- An integer or a float. -/
inductive Number where
  | int (n : Int)
  | float (x : Float)

/-- Why an arithmetic operation has no result. -/
inductive ArithmeticError where
  /-- An integer has no float. -/
  | integerTooLarge
  | divisionByZero

/-- The quotient of two integers toward zero: that of their magnitudes, negative if just one of the
integers is. -/
def truncateDiv (n d : Int) : Int :=
  let q : Int := (n.natAbs / d.natAbs : Nat)
  if (n < 0 ↔ d < 0) then q else -q

namespace Number

/-- The number as a float. -/
def toFloat : Number → Except ArithmeticError Float
  | .float x => .ok x
  | .int n => match floatOfInt? n with
    | some x => .ok x
    | none => .error .integerTooLarge

/-- Combines two integers by one operation and anything else by another on floats. -/
def combine (ints : Int → Int → Int) (floats : Float → Float → Float) (a b : Number) :
    Except ArithmeticError Number :=
  match a, b with
  | .int m, .int n => .ok (.int (ints m n))
  | a, b => do
    let x ← a.toFloat
    let y ← b.toFloat
    pure (.float (floats x y))

/-- The sum. -/
def add : Number → Number → Except ArithmeticError Number := combine (· + ·) (· + ·)

/-- The difference. -/
def sub : Number → Number → Except ArithmeticError Number := combine (· - ·) (· - ·)

/-- The product. -/
def mul : Number → Number → Except ArithmeticError Number := combine (· * ·) (· * ·)

/-- The quotient; that of two integers is an integer, toward zero. -/
def div (a b : Number) : Except ArithmeticError Number :=
  match a, b with
  | .int m, .int n => if n = 0 then .error .divisionByZero else .ok (.int (truncateDiv m n))
  | a, b => do
    let x ← a.toFloat
    let y ← b.toFloat
    if y == 0.0 then .error .divisionByZero else pure (.float (x / y))

/-- The number with the other sign. -/
def neg : Number → Number
  | .int n => .int (-n)
  | .float x => .float (-x)

/-- The magnitude. -/
def abs : Number → Number
  | .int n => .int n.natAbs
  | .float x => .float x.abs

/-- Compares two numbers by exact value; a NaN compares with nothing. -/
def compare? : Number → Number → Option Ordering
  | .int m, .int n => some (compare m n)
  | .int m, .float y => compareIntFloat? m y
  | .float x, .int n => (compareIntFloat? n x).map Ordering.swap
  | .float x, .float y =>
    if x < y then some .lt else if y < x then some .gt else if x == y then some .eq else none

end Number

end Lisplet
