import Lisplet.Action

/-!
# Steps and evaluators

One step of evaluation ends with a value or with an expression that is still to be evaluated in a
scope and whose value is the value of the whole: a tail call. Forms and procedures are defined over
an evaluator that they are given, so that none of them refers to the evaluation of nested expressions
by itself; the bound on nesting is in how evaluators are made.
-/

namespace Lisplet

namespace Closure

/-- The count test of a call. Each sort of parameters has its own; a symbol alone takes any count. -/
def countArguments (c : Closure) (provided : Nat) : Action Unit :=
  let required := c.params.required.length
  match c.params.kind with
  | .fixed =>
    if provided ≠ required then Action.fail (.arity (.exact required) c.shownName provided)
    else pure ()
  | .mixed =>
    if provided < required then Action.fail (.arity (.atLeast required) c.shownName provided)
    else pure ()
  | .variadic => pure ()

/-- The scope of a call: a new one inside the scope that the closure was made in, where the parameters
are bound to the arguments and to a list of those that are left over. -/
def bindArguments (c : Closure) (args : List Value) : Action ScopeId := do
  let scope ← Action.newScope c.scope []
  c.countArguments args.length
  Action.defineEach scope (c.params.required.zip args)
  let restList ← Action.freshObject
  match c.params.rest with
  | none => pure scope
  | some name =>
    Action.define scope name (.ofList restList (args.drop c.params.required.length))
    pure scope

end Closure

/-- What a step of evaluation leads to. -/
inductive Step where
  /-- A value. -/
  | value (v : Value)
  /-- An expression whose value in a scope is the value of the whole. -/
  | tailCall (expr : Value) (scope : ScopeId)

/-- What forms and procedures need for the evaluation of other expressions. -/
structure Evaluator where
  /-- The value of an expression in a scope. -/
  eval : Value → ScopeId → Action Value
  /-- One step of applying a procedure to arguments on behalf of code in a scope. -/
  apply : Value → List Value → ScopeId → Action Step
  /-- The bound on the rounds of a loop. -/
  rounds : Nat
  /-- The bound on the nesting of sources, templates and printed values. -/
  nesting : Nat

namespace Evaluator

/-- Evaluates what a step leaves over. -/
def finish (ev : Evaluator) : Step → Action Value
  | .value v => pure v
  | .tailCall expr scope => ev.eval expr scope

/-- Evaluates expressions in order and leaves the last one over; none give the unspecified value. -/
def sequence (ev : Evaluator) (scope : ScopeId) : List Value → Action Step
  | [] => pure (.value .void)
  | [last] => pure (.tailCall last scope)
  | expr :: more => do
    let _ ← ev.eval expr scope
    ev.sequence scope more

/-- Evaluates expressions in order and gives the last value; none give the unspecified value. -/
def evalForms (ev : Evaluator) (scope : ScopeId) : List Value → Action Value
  | [] => pure .void
  | [last] => ev.eval last scope
  | expr :: more => do
    let _ ← ev.eval expr scope
    ev.evalForms scope more

/-- The values of operands from left to right. -/
def operands (ev : Evaluator) (scope : ScopeId) (exprs : List Value) : Action (List Value) :=
  exprs.mapM fun expr => ev.eval expr scope

/-- Applies a closure: its body is evaluated in the scope of the call, and the last expression of it is left
over. -/
def applyClosure (ev : Evaluator) (id : ClosureId) (args : List Value) : Action Step := do
  let s ← get
  match s.closures[id]? with
  | none => Action.fault .operandMissing
  | some c =>
    let scope ← c.bindArguments args
    ev.sequence scope c.body

/-- Applies a procedure and gives its value. -/
def call (ev : Evaluator) (proc : Value) (args : List Value) (scope : ScopeId) : Action Value :=
  Action.limited do
    let step ← ev.apply proc args scope
    ev.finish step

end Evaluator

/-- Makes a closure with parameters as a form writes them. -/
def makeClosure (name : Option Text) (form : Text) (params : Value) (body : List Value)
    (scope : ScopeId) : Action ClosureId := do
  let params ← Action.ofShape (Params.parse form params)
  Action.newClosure ⟨name, params, body, scope⟩

end Lisplet
