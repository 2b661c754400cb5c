import Lisplet.Text.Blank
import Lisplet.Text.Digit

/-!
# Integers as digits

Positional notation of natural numbers in a radix of at most thirty-six, and the two readers of
integers: `digitsValue` reads digits and nothing else, `Integer.read?` reads what a person may type
(blanks around, a sign, a radix mark, single underscores between digits).

Decimal notation is limited: an integer of more than `maxDecimalDigits` digits has no decimal text
and no decimal text of more digits is read.
-/

namespace Lisplet

/-- Decimal notation ends at this many digits. -/
def maxDecimalDigits : Nat := 4300

/-- The digit with this value, letters following nine. -/
def digitCode (d : Nat) : CodePoint :=
  if d < 10 then CodePoint.ofNat (48 + d) else CodePoint.ofNat (87 + d)

/-- The value of an ASCII digit or letter in positional notation. -/
def asciiDigitValue? (c : CodePoint) : Option Nat :=
  if 48 ≤ c.val ∧ c.val ≤ 57 then some (c.val - 48)
  else if 97 ≤ c.val ∧ c.val ≤ 122 then some (c.val - 87)
  else if 65 ≤ c.val ∧ c.val ≤ 90 then some (c.val - 55)
  else none

/-- The value of an ASCII digit of this radix. -/
def radixDigit? (radix : Nat) (c : CodePoint) : Option Nat :=
  (asciiDigitValue? c).filter fun d => decide (d < radix)

/-- Puts the digits of `n` before `rest`; `fuel` bounds their number. -/
def digitsOnto (radix : Nat) : Nat → Nat → Text → Text
  | 0, _, rest => rest
  | fuel + 1, n, rest =>
    let rest := digitCode (n % radix) :: rest
    if n < radix then rest else digitsOnto radix fuel (n / radix) rest

/-- The digits of a natural number, without leading zeros; zero is one digit. -/
def natDigits (radix n : Nat) : Text := digitsOnto radix (n.log2 + 1) n []

/-- An integer in a radix: a minus sign if it is negative, then the digits of its magnitude. -/
def integerText (radix : Nat) (n : Int) : Text :=
  if n < 0 then '-' :: natDigits radix n.natAbs else natDigits radix n.natAbs

/-- Whether a number has a decimal text. Four bits exceed one decimal digit, so the first test spares
the conversion of a number that is far too large. -/
def fitsDecimal (n : Nat) : Bool :=
  n.log2 ≤ 4 * maxDecimalDigits && (natDigits 10 n).length ≤ maxDecimalDigits

/-- The decimal text of an integer, unless it has too many digits. -/
def decimalText? (n : Int) : Option Text :=
  if fitsDecimal n.natAbs then some (integerText 10 n) else none

/-- The decimal text of a natural number. -/
def natText (n : Nat) : Text := natDigits 10 n

/-- The number that a row of digit values denotes. -/
def valueOfDigits (radix : Nat) (ds : List Nat) : Nat :=
  ds.foldl (fun n d => n * radix + d) 0

/-- The value of a nonempty text made of digits of this radix only. -/
def digitsValue? (radix : Nat) (t : Text) : Option Nat :=
  if t.isEmpty then none else (t.mapM (radixDigit? radix)).map (valueOfDigits radix)

/-- The radix that a letter after `#` announces. -/
def radixOfLetter? (c : CodePoint) : Option Nat :=
  if c = 'b' then some 2 else if c = 'o' then some 8 else if c = 'x' then some 16 else none

/-- Negates when asked to. -/
def signed (negative : Bool) (n : Nat) : Int := if negative then -(n : Int) else n

/-- Splits a sign off, telling whether it is a minus. -/
def splitSign : Text → Bool × Text
  | [] => (false, [])
  | c :: rest =>
    if c = '-' then (true, rest) else if c = '+' then (false, rest) else (false, c :: rest)

namespace Integer

/-- The six ASCII blanks that may stand around a typed integer. -/
def isOuterBlank (c : CodePoint) : Bool := c.val = 32 || (9 ≤ c.val && c.val ≤ 13)

/-- Brings blanks and decimal digits of all scripts to their ASCII form. -/
def toAscii (t : Text) : Text :=
  t.map fun c =>
    if c.val < 128 then c
    else if c.isBlank then ' '
    else match c.decimalValue? with
      | some d => digitCode d
      | none => c

/-- Drops a zero and a radix letter that fit the radix, and one underscore after them. -/
def dropMark (radix : Nat) : Text → Text
  | a :: b :: rest =>
    let fits : Bool :=
      (radix = 16 && (b = 'x' || b = 'X')) || (radix = 8 && (b = 'o' || b = 'O')) ||
        (radix = 2 && (b = 'b' || b = 'B'))
    if a = '0' && fits then
      match rest with
      | c :: more => if c = '_' then more else rest
      | [] => rest
    else a :: b :: rest
  | t => t

/-- Drops the underscores that stand singly between digits; `expectDigit` holds at the start and
after an underscore. -/
def dropUnderscores : Bool → Text → Option Text
  | expectDigit, [] => if expectDigit then none else some []
  | expectDigit, c :: rest =>
    if c = '_' then (if expectDigit then none else dropUnderscores true rest)
    else (dropUnderscores false rest).map (c :: ·)

/-- Reads an integer as typed: blanks around it, a sign, a radix mark that fits the radix, digits of
any script with single underscores between them. A decimal text of too many digits is refused. -/
def read? (radix : Nat) (t : Text) : Option Int :=
  let (negative, body) := splitSign (Text.trim isOuterBlank (toAscii t))
  match dropUnderscores true (dropMark radix body) with
  | none => none
  | some digits =>
    if radix = 10 ∧ maxDecimalDigits < digits.length then none
    else (digitsValue? radix digits).map (signed negative)

end Integer

end Lisplet
