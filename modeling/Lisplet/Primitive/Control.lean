import Lisplet.Evaluation.Evaluator

/-!
# Control procedures

Evaluation of data as code, application to a list of arguments, and fresh symbols. Evaluation and
application are left over as tail calls.
-/

namespace Lisplet

/-- Applies a control procedure on behalf of code in a scope. -/
def ControlOp.run (op : ControlOp) (ev : Evaluator) (args : List Value) (scope : ScopeId) :
    Action Step := do
  match op, args with
  | .eval, [expr] => pure (.tailCall expr scope)
  | .apply, proc :: more =>
    let proc ← Action.asProcedure (some op.name) proc
    match more.getLast? with
    | none => Action.fault .operandMissing
    | some last =>
      let spread ← Action.asItems (some op.name) last
      ev.apply proc (more.dropLast ++ spread) scope
  | .gensym, [] =>
    let v ← Action.freshSymbol "gensym"
    pure (.value v)
  | .gensym, [start] =>
    match start with
    | .atom (.sym name) =>
      let v ← Action.freshSymbol name
      pure (.value v)
    | .atom (.str buffer) =>
      let name ← Action.content buffer
      let v ← Action.freshSymbol name
      pure (.value v)
    | other => Action.typeError .freshPrefix other
  | _, _ => Action.fault .operandMissing

end Lisplet
