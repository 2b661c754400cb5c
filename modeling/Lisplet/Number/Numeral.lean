import Lisplet.Number.Decimal

/-!
# Numerals

The texts that denote numbers: decimal integers, floats with a point or an exponent, the four special
floats, and integers with a radix mark. `Numeral.parse` is their grammar; a text that is no numeral is
an ordinary name.
-/

namespace Lisplet

/-- A number as it is written in a source. The two signs of NaN are kept apart, because each of the
two literals denotes one float object that is shared by all its occurrences. -/
inductive Numeral where
  | int (n : Int)
  | float (x : Float)
  | nan (negative : Bool)

/-- A decimal integer with too many digits to be read or written. -/
inductive NumeralTooLong where
  | mk

namespace Numeral

/-- The value of a row of decimal digits of any script. -/
def decimalValue (digits : Text) : Nat :=
  valueOfDigits 10 (digits.filterMap CodePoint.decimalValue?)

/-- The parts of a float numeral. -/
structure FloatParts where
  /-- Digits before the point. -/
  whole : Text
  /-- Digits after the point. -/
  fraction : Text
  /-- The sign and digits of the exponent. -/
  exponent : Bool × Text

/-- The exponent part: nothing, or `e`, a sign and digits. -/
def parseExponent? : Text → Option (Bool × Text)
  | [] => some (false, [])
  | c :: rest =>
    if c = 'e' ∨ c = 'E' then
      let (negative, digits) := splitSign rest
      if digits.isEmpty then none
      else if digits.all CodePoint.isDecimal then some (negative, digits)
      else none
    else none

/-- Splits an unsigned float numeral: digits with a point before, among or after them, or none, and an
optional exponent. -/
def parseFloatParts? (t : Text) : Option FloatParts :=
  let whole := t.takeWhile CodePoint.isDecimal
  match t.dropWhile CodePoint.isDecimal with
  | [] => if whole.isEmpty then none else some ⟨whole, [], false, []⟩
  | c :: rest =>
    if c = '.' then
      let fraction := rest.takeWhile CodePoint.isDecimal
      if whole.isEmpty && fraction.isEmpty then none
      else (parseExponent? (rest.dropWhile CodePoint.isDecimal)).map (⟨whole, fraction, ·⟩)
    else if whole.isEmpty then none
    else (parseExponent? (c :: rest)).map (⟨whole, [], ·⟩)

/-- The float that a numeral with these parts denotes. -/
def FloatParts.value (parts : FloatParts) (negative : Bool) : Float :=
  let digits := parts.whole ++ parts.fraction
  let exponent := signed parts.exponent.1 (decimalValue parts.exponent.2)
  floatOfDecimal negative (decimalValue digits) digits.length (exponent - parts.fraction.length)

/-- The infinities and NaNs, which have names. -/
def special? (t : Text) : Option Numeral :=
  if t = "+inf.0" then some (.float (1.0 / 0.0))
  else if t = "-inf.0" then some (.float (-1.0 / 0.0))
  else if t = "+nan.0" then some (.nan false)
  else if t = "-nan.0" then some (.nan true)
  else none

/-- An integer with a radix mark. -/
def marked? : Text → Option Numeral
  | hash :: mark :: c :: body =>
    if hash = '#' then
      (radixOfLetter? mark).bind fun radix => (Integer.read? radix (c :: body)).map .int
    else none
  | _ => none

/-- Reads a text as a numeral; `none` for a text that is none. -/
def parse (t : Text) : Except NumeralTooLong (Option Numeral) :=
  let (negative, body) := splitSign t
  if !body.isEmpty && body.all CodePoint.isDecimal then
    if maxDecimalDigits < body.length then .error .mk
    else .ok (some (.int (signed negative (decimalValue body))))
  else
    match parseFloatParts? body with
    | some parts => .ok (some (.float (parts.value negative)))
    | none =>
      match special? t with
      | some x => .ok (some x)
      | none => .ok (marked? t)

end Numeral

end Lisplet
