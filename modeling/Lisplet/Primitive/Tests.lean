import Lisplet.Evaluation.Evaluator

/-!
# Tests

Equivalence, equality, and questions about the kind of a value.
-/

namespace Lisplet

/-- The kinds that a predicate on kinds asks for. -/
def TestOp.kinds : TestOp → List Kind
  | .isBoolean => [.boolean]
  | .isNumber => [.integer, .float]
  | .isInteger => [.integer]
  | .isFloat => [.float]
  | .isSymbol => [.symbol]
  | .isString => [.string]
  | .isChar => [.char]
  | .isProcedure => [.procedure]
  | .isPort => [.port]
  | _ => []

/-- Applies a test. -/
def TestOp.run (op : TestOp) (args : List Value) : Action Value := do
  match op, args with
  | .same, [a, b] => pure (.bool (a.equivalent b))
  | .equivalent, [a, b] => pure (.bool (a.equivalent b))
  | .equal, [a, b] =>
    let s ← get
    pure (.bool (Value.equal s.content a b))
  | .negation, [a] => pure (.bool (!a.isTruthy))
  | op, [a] => pure (.bool (op.kinds.contains a.kind))
  | _, _ => Action.fault .operandMissing

end Lisplet
