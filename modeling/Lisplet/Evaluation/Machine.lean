import Lisplet.Evaluation.Forms
import Lisplet.Primitive.Characters
import Lisplet.Primitive.Control
import Lisplet.Primitive.Conversions
import Lisplet.Primitive.InputOutput
import Lisplet.Primitive.Lists
import Lisplet.Primitive.Numbers
import Lisplet.Primitive.System
import Lisplet.Primitive.Tests

/-!
# The evaluator

A step looks a symbol up, takes an atom that is its own value, or carries a call out: a transformer is
run on the unevaluated operands and its expansion left over, a special form is given the operands as
they are, and a procedure is given their values. A trampoline repeats steps until a value comes out,
so tail calls cost no nesting.

`Evaluator.nested` makes the evaluator that allows so many nested evaluations. The outermost steps use
the evaluator of one level less, and the evaluator of no levels fails.
-/

namespace Lisplet

/-- Applies a primitive procedure. -/
def Primitive.run (p : Primitive) (ev : Evaluator) (args : List Value) (scope : ScopeId) :
    Action Step :=
  match p with
  | .numbers op => return .value (← op.run args)
  | .lists op => return .value (← op.run args)
  | .tests op => return .value (← op.run args)
  | .control op => op.run ev args scope
  | .strings op => return .value (← op.run args)
  | .characters op => return .value (← op.run args)
  | .conversions op => return .value (← op.run args)
  | .output op => return .value (← op.run ev args)
  | .input op => return .value (← op.run ev args)
  | .ports op => return .value (← op.run ev args scope)
  | .system op => return .value (← op.run ev args)

namespace Evaluator

/-- Applies a procedure to arguments, or a special form to operands, on behalf of code in a scope.
The number of arguments is checked first. -/
def applyStep (ev : Evaluator) (proc : Value) (args : List Value) (scope : ScopeId) :
    Action Step :=
  match proc with
  | .atom (.primitive p) =>
    if p.arity.accepts args.length then p.run ev args scope
    else Action.fail (.arity p.arity p.name args.length)
  | .atom (.form f) =>
    if f.arity.accepts args.length then f.run ev args scope
    else Action.fail (.arity f.arity f.name args.length)
  | .atom (.closure id) => ev.applyClosure id args
  | v => Action.typeError .notApplicable v

/-- The value of the head of a call applied to operands. -/
def callStep (ev : Evaluator) (head : Value) (operands : List Value) (scope : ScopeId) :
    Action Step := do
  let proc ← ev.eval head scope
  match proc with
  | .atom (.form f) => ev.applyStep (.atom (.form f)) operands scope
  | proc =>
    if proc.isProcedure then
      let args ← ev.operands scope operands
      ev.applyStep proc args scope
    else Action.typeError .notApplicable proc

/-- The transformer that the head of a call names. -/
def transformerOf (head : Value) (scope : ScopeId) : Action (Option ClosureId) :=
  match head with
  | .atom (.sym name) => Action.transformer? scope name
  | _ => pure none

/-- One step of evaluating an expression in a scope. -/
def step (ev : Evaluator) (expr : Value) (scope : ScopeId) : Action Step :=
  match expr with
  | .atom (.sym name) => return .value (← Action.lookup scope name)
  | .atom a =>
    if (Value.atom a).isSelfEvaluating then pure (.value (.atom a))
    else Action.evaluationError (.notEvaluable a.kind)
  | .nil => Action.fail (.emptyList .evaluation)
  | .list _ _ _ (some _) => Action.shapeError .dottedCall
  | .list _ head operands none => do
    match ← transformerOf head scope with
    | some id => do
      let expansion ← Action.limited do
        let body ← ev.applyClosure id operands
        ev.finish body
      pure (.tailCall expansion scope)
    | none => ev.callStep head operands scope

/-- Repeats steps until a value comes out; the fuel bounds their number. -/
def trampoline (ev : Evaluator) : Nat → Value → ScopeId → Action Value
  | 0, _, _ => throw .exhausted
  | fuel + 1, expr, scope => do
    match ← ev.step expr scope with
    | .value v => pure v
    | .tailCall expr scope => ev.trampoline fuel expr scope

/-- The evaluator that allows this many nested evaluations, each of a bounded number of rounds. -/
def nested (rounds nesting : Nat) : Nat → Evaluator
  | 0 =>
    { eval := fun _ _ => Action.fault .nestedTooDeeply
      apply := fun _ _ _ => Action.fault .nestedTooDeeply
      rounds := rounds
      nesting := nesting }
  | depth + 1 =>
    { eval := fun expr scope => (nested rounds nesting depth).trampoline rounds expr scope
      apply := fun proc args scope => (nested rounds nesting depth).applyStep proc args scope
      rounds := rounds
      nesting := nesting }

end Evaluator

end Lisplet
