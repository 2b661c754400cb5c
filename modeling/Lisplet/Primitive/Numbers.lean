import Lisplet.Evaluation.Evaluator
import Lisplet.Number.Arithmetic

/-!
# Number procedures

All arguments are checked before anything is computed. Sums begin with the integer zero and products
with the integer one; `min` and `max` give back the very argument that they choose.
-/

namespace Lisplet.Primitive

/-- The number that a value is. -/
def number (who : Text) (v : Value) : Action Number := do
  match ← Action.asNumber (some who) v with
  | .atom (.int n) => pure (.int n)
  | .atom (.float x _) => pure (.float x)
  | _ => Action.fault .operandMissing

/-- The value of a number; every computed float is a new object. -/
def ofNumber : Number → Action Value
  | .int n => pure (.int n)
  | .float x => Action.newFloat x

/-- The result of an arithmetic operation. -/
def arithmetic {α : Type} : Except ArithmeticError α → Action α
  | .ok a => pure a
  | .error .integerTooLarge => Action.fault .integerTooLarge
  | .error .divisionByZero => Action.evaluationError (.divisionByZero none)

/-- Combines numbers from left to right. -/
def accumulate (op : Number → Number → Except ArithmeticError Number) (first : Number)
    (more : List Number) : Action Value := do
  let total ← arithmetic (more.foldlM op first)
  ofNumber total

/-- Whether a relation of orderings holds between all neighbours; a NaN is in no relation. -/
def chained (holds : Ordering → Bool) : List Number → Bool
  | a :: b :: more =>
    (match a.compare? b with
      | some o => holds o
      | none => false) && chained holds (b :: more)
  | _ => true

/-- The first of some values that no later one precedes in an order of their numbers. -/
def select (better : Ordering) (best : Value × Number) : List (Value × Number) → Value
  | [] => best.1
  | candidate :: more =>
    if candidate.2.compare? best.2 = some better then select better candidate more
    else select better best more

/-- Two integer arguments, the second one not zero. -/
def divisionArguments (who : Text) : List Value → Action (Int × Int)
  | [a, b] => do
    let n ← Action.asInteger (some who) a
    let d ← Action.asInteger (some who) b
    if d = 0 then Action.evaluationError (.divisionByZero (some who)) else pure (n, d)
  | _ => Action.fault .operandMissing

end Lisplet.Primitive

namespace Lisplet

open Primitive in
/-- Applies a number procedure. -/
def NumberOp.run (op : NumberOp) (args : List Value) : Action Value := do
  match op with
  | .quotient =>
    let (n, d) ← divisionArguments op.name args
    pure (.int (truncateDiv n d))
  | .remainder =>
    let (n, d) ← divisionArguments op.name args
    pure (.int (n - d * truncateDiv n d))
  | .modulo =>
    let (n, d) ← divisionArguments op.name args
    pure (.int (n.fmod d))
  | _ =>
    let nums ← args.mapM (number op.name)
    match op, nums with
    | .add, _ => accumulate Number.add (.int 0) nums
    | .mul, _ => accumulate Number.mul (.int 1) nums
    | .sub, [a] => ofNumber a.neg
    | .sub, a :: more => accumulate Number.sub a more
    | .div, [a] => accumulate Number.div (.int 1) [a]
    | .div, a :: more => accumulate Number.div a more
    | .abs, [a] => ofNumber a.abs
    | .min, a :: more =>
      pure (select .lt (args.headD .void, a) ((args.drop 1).zip more))
    | .max, a :: more =>
      pure (select .gt (args.headD .void, a) ((args.drop 1).zip more))
    | .equal, _ => pure (.bool (chained (· == .eq) nums))
    | .less, _ => pure (.bool (chained (· == .lt) nums))
    | .lessEqual, _ => pure (.bool (chained (· != .gt) nums))
    | .greater, _ => pure (.bool (chained (· == .gt) nums))
    | .greaterEqual, _ => pure (.bool (chained (· != .lt) nums))
    | _, _ => Action.fault .operandMissing

end Lisplet
