import Lisplet.Primitive.Numbers

/-!
# Conversions

Between symbols and strings, numbers and strings, lists and strings, characters and integers. Numbers
are written and read in radix two, eight, ten or sixteen.
-/

namespace Lisplet.ConversionOp

/-- The radix that an optional argument asks for. -/
def radix (who : Text) : List Value → Action Nat
  | [] => pure 10
  | v :: _ => do
    let r ← Action.asInteger (some who) v
    if r = 2 ∨ r = 8 ∨ r = 10 ∨ r = 16 then pure r.toNat
    else Action.evaluationError (.unsupportedRadix r who)

/-- The value of a numeral. -/
def ofNumeral (n : Numeral) : Action Value := Action.instantiate (Datum.ofNumeral n)

/-- The number that a text denotes, or false. -/
def readNumber (radix : Nat) (t : Text) : Action Value :=
  if radix = 10 then
    match Numeral.parse t with
    | .ok (some n) => ofNumeral n
    | .ok none => pure (.bool false)
    | .error _ => Action.fault .numeralTooLong
  else
    match Integer.read? radix t with
    | some n => pure (.int n)
    | none => pure (.bool false)

/-- The text of a number in a radix. A number is not nested, so that printing it needs no room. -/
def writeNumber (radix : Nat) (v : Value) : Action Text :=
  if radix = 10 then Action.print .display v 0
  else
    match v with
    | .atom (.int n) => pure (integerText radix n)
    | v => Action.typeError (.floatInRadix radix) v

/-- Applies a conversion. -/
def run (op : ConversionOp) (args : List Value) : Action Value := do
  match op, args with
  | .stringToSymbol, [v] =>
    let t ← Action.asText (some op.name) v
    pure (.sym t)
  | .symbolToString, [v] =>
    let t ← Action.asSymbol (some op.name) v
    Action.newString t
  | .numberToString, v :: more =>
    let v ← Action.asNumber (some op.name) v
    let r ← radix op.name more
    let t ← writeNumber r v
    Action.newString t
  | .stringToNumber, v :: more =>
    let t ← Action.asText (some op.name) v
    let r ← radix op.name more
    readNumber r t
  | .stringToList, [v] =>
    let t ← Action.asText (some op.name) v
    Action.newList (t.map .char)
  | .listToString, [v] =>
    let vs ← Action.asItems (some op.name) v
    let t ← vs.mapM (Action.asChar (some op.name))
    Action.newString t
  | .charToInteger, [v] =>
    let c ← Action.asChar (some op.name) v
    pure (.int c.val)
  | .integerToChar, [v] =>
    let n ← Action.asInteger (some op.name) v
    match (if n < 0 then none else CodePoint.ofNat? n.toNat) with
    | some c => pure (.char c)
    | none => Action.evaluationError (.noCharacter n)
  | _, _ => Action.fault .operandMissing

end Lisplet.ConversionOp
