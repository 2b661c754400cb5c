import Lisplet.Evaluation.Template

/-!
# Special forms

The evaluation rules of the special forms. A form sees its operands as they are written, checks their
shape before it evaluates any of them, and leaves its last expression over as a tail call.
-/

namespace Lisplet

/-- An operand that is not there although the form's arity promises it. -/
def missingOperand {α : Type} : Action α := Action.fault .operandMissing

namespace Forms

/-- Splits a signature `(name . parameters)`. -/
def splitSignature (form : Text) (signature : Value) : Except ShapeError (Text × Value) :=
  match signature with
  | .list id (.atom (.sym name)) rest last => .ok (name, .assemble id rest last)
  | .list _ head _ _ => .error (.signatureName form head.kind)
  | _ => .error (.signatureEmpty form)

/-- `(define name value)` or `(define (name . parameters) body …)`: binds in the current scope. -/
def define (ev : Evaluator) (scope : ScopeId) : List Value → Action Step
  | .atom (.sym name) :: values =>
    match values with
    | [expr] => do
      let v ← ev.eval expr scope
      Action.define scope name v
      pure (.value .void)
    | _ => Action.shapeError (.defineValues name values.length)
  | .atom a :: _ => Action.shapeError (.defineTarget a.kind)
  | signature :: body => do
    let (name, params) ← Action.ofShape (splitSignature "define" signature)
    let c ← makeClosure (some name) "define" params body scope
    Action.define scope name (.atom (.closure c))
    pure (.value .void)
  | [] => missingOperand

/-- `(define-macro (name . parameters) body …)`: defines a transformer in the current scope. -/
def defineTransformer (scope : ScopeId) : List Value → Action Step
  | .atom a :: _ => Action.shapeError (.transformerTarget a.kind)
  | signature :: body => do
    let (name, params) ← Action.ofShape (splitSignature "define-macro" signature)
    let c ← makeClosure (some name) "define-macro" params body scope
    Action.defineTransformer scope name c
    pure (.value .void)
  | [] => missingOperand

/-- `(set! name value)`: changes the nearest binding of the name and makes none. -/
def assign (ev : Evaluator) (scope : ScopeId) : List Value → Action Step
  | [.atom (.sym name), expr] => do
    let v ← ev.eval expr scope
    Action.assign scope name v
    pure (.value .void)
  | [target, _] => Action.shapeError (.assignTarget target.kind)
  | _ => missingOperand

/-- `(lambda parameters body …)`. -/
def lambda (scope : ScopeId) : List Value → Action Step
  | params :: body => do
    let c ← makeClosure none "lambda" params body scope
    pure (.value (.atom (.closure c)))
  | [] => missingOperand

/-- `(if test then else)`; without the last operand a false test gives the unspecified value. -/
def conditional (ev : Evaluator) (scope : ScopeId) : List Value → Action Step
  | test :: yes :: no => do
    let t ← ev.eval test scope
    if t.isTruthy then pure (.tailCall yes scope)
    else match no with
      | expr :: _ => pure (.tailCall expr scope)
      | [] => pure (.value .void)
  | _ => missingOperand

/-- The operands of `and` up to the first that is false. -/
def conjunction (ev : Evaluator) (scope : ScopeId) : List Value → Action Step
  | [] => pure (.value (.bool true))
  | [last] => pure (.tailCall last scope)
  | expr :: more => do
    let v ← ev.eval expr scope
    if v.isTruthy then conjunction ev scope more else pure (.value (.bool false))

/-- The operands of `or` up to the first that is not false. -/
def disjunction (ev : Evaluator) (scope : ScopeId) : List Value → Action Step
  | [] => pure (.value (.bool false))
  | [last] => pure (.tailCall last scope)
  | expr :: more => do
    let v ← ev.eval expr scope
    if v.isTruthy then pure (.value v) else disjunction ev scope more

/-! ### Clauses -/

/-- The symbol of the clause that needs no test. -/
def elseName : Text := "else"

/-- The symbol before a receiver. -/
def arrowName : Text := "=>"

/-- Rejects clauses that are no proper lists with items, and an else clause that is not the last. -/
def checkClauses (nesting : Nat) : List Value → Action Unit
  | [] => pure ()
  | clause :: more =>
    match clause with
    | .list _ test _ none =>
      if test.isSymbol elseName && !more.isEmpty then Action.shapeError .elseNotLast
      else checkClauses nesting more
    | clause => do
      let shown ← Action.print .write clause nesting
      Action.shapeError (.clause shown)

/-- Applies the receiver of a clause to the value of its test. -/
def receive (ev : Evaluator) (scope : ScopeId) (receiver : List Value) (v : Value) :
    Action Step := do
  match receiver with
  | [expr] =>
    let proc ← ev.eval expr scope
    let proc ← Action.asProcedure (some "=>") proc
    let s ← get
    match proc with
    | .atom (.form f) =>
      Action.shapeError (.receiver (s.showProcedure (.form f)) f.arity)
    | .atom a =>
      if (s.procedureArity a).accepts 1 then ev.apply proc [v] scope
      else Action.shapeError (.receiver (s.showProcedure a) (s.procedureArity a))
    | _ => missingOperand
  | _ => Action.shapeError .receiverCount

/-- Tries clauses in order. -/
def tryClauses (ev : Evaluator) (scope : ScopeId) : List Value → Action Step
  | [] => pure (.value .void)
  | .list _ test body _ :: more =>
    if test.isSymbol elseName then ev.sequence scope body
    else do
      let v ← ev.eval test scope
      if v.isTruthy then
        match body with
        | [] => pure (.value v)
        | first :: rest =>
          if first.isSymbol arrowName then receive ev scope rest v else ev.sequence scope body
      else tryClauses ev scope more
  | _ :: _ => missingOperand

/-- `(cond clause …)`. -/
def cond (ev : Evaluator) (scope : ScopeId) (clauses : List Value) : Action Step := do
  checkClauses ev.nesting clauses
  tryClauses ev scope clauses

/-! ### Bindings -/

/-- A name with the expression of its value. -/
abbrev Binding := Text × Value

/-- Reads the bindings in a row. -/
def readBindings (nesting : Nat) (form : Text) : List Value → Action (List Binding)
  | [] => pure []
  | .list _ (.atom (.sym name)) [init] none :: more => do
    let rest ← readBindings nesting form more
    pure ((name, init) :: rest)
  | other :: _ => do
    let shown ← Action.print .write other nesting
    Action.shapeError (.binding form shown)

/-- Reads `((name init) …)`. -/
def bindings (nesting : Nat) (form : Text) (v : Value) : Action (List Binding) :=
  if v.isProper then readBindings nesting form v.items
  else Action.shapeError (.bindings form v.kind)

/-- The table of some names with their values; a repeated name keeps its last value. -/
def tableOf (names : List Text) (values : List Value) : Table Value :=
  (names.zip values).foldl (fun t (name, v) => Table.put name v t) []

/-- `(let name ((variable init) …) body …)`: a procedure that sees itself under the name, applied to
the values of the inits. -/
def bindNamed (ev : Evaluator) (scope : ScopeId) (name : Text) (spec : Value) (body : List Value) :
    Action Step := do
  if body.isEmpty then Action.shapeError (.namedBody name)
  else
    let pairs ← bindings ev.nesting "let" spec
    let loopScope ← Action.newScope scope []
    let c ← Action.newClosure ⟨some name, ⟨pairs.map (·.1), none⟩, body, loopScope⟩
    Action.define loopScope name (.atom (.closure c))
    let args ← ev.operands scope (pairs.map (·.2))
    ev.applyClosure c args

/-- `(let ((name init) …) body …)`: the inits are evaluated in the enclosing scope. -/
def bind (ev : Evaluator) (scope : ScopeId) : List Value → Action Step
  | .atom (.sym name) :: spec :: body => bindNamed ev scope name spec body
  | spec :: body => do
    let pairs ← bindings ev.nesting "let" spec
    let values ← ev.operands scope (pairs.map (·.2))
    let inner ← Action.newScope scope (tableOf (pairs.map (·.1)) values)
    ev.sequence inner body
  | [] => missingOperand

/-- Evaluates each init in a scope that has the bindings before it, and gives the innermost one. -/
def nestBindings (ev : Evaluator) : List Binding → ScopeId → Action ScopeId
  | [], scope => pure scope
  | (name, init) :: more, scope => do
    let v ← ev.eval init scope
    let inner ← Action.newScope scope [(name, v)]
    nestBindings ev more inner

/-- `(let* ((name init) …) body …)`: each init sees the bindings before it. -/
def bindSequentially (ev : Evaluator) (scope : ScopeId) : List Value → Action Step
  | spec :: body => do
    let pairs ← bindings ev.nesting "let*" spec
    let outer ← Action.newScope scope []
    let inner ← nestBindings ev pairs outer
    ev.sequence inner body
  | [] => missingOperand

/-- Evaluates inits in a scope and binds them there, one after another. -/
def fillBindings (ev : Evaluator) (scope : ScopeId) : List Binding → Action Unit
  | [] => pure ()
  | (name, init) :: more => do
    let v ← ev.eval init scope
    Action.define scope name v
    fillBindings ev scope more

/-- `(letrec ((name init) …) body …)`: the inits see all names, which are unspecified at first. -/
def bindRecursively (ev : Evaluator) (scope : ScopeId) : List Value → Action Step
  | spec :: body => do
    let pairs ← bindings ev.nesting "letrec" spec
    let names := pairs.map (·.1)
    let inner ← Action.newScope scope (tableOf names (names.map fun _ => .void))
    fillBindings ev inner pairs
    ev.sequence inner body
  | [] => missingOperand

/-! ### Loops

Every round of a loop has a scope of its own. It is made here when all values of its variables are there, with
the names bound in it, and not before the first value. That cannot be observed. Until its round begins, nothing
leads to the scope: no expression is evaluated in it, no closure or other scope has it around itself, and the
values are found in the scope around the loop or in that of the round before. A value that ends in a failure
leaves a scope behind that is never entered. What is left is the number of the scope in the store, and no
operation of the language shows or compares it. -/

/-- A loop variable with its first value and the expression of its next one. -/
structure LoopVariable where
  /-- The name of the variable. -/
  name : Text
  /-- The expression of its first value. -/
  init : Value
  /-- The expression of its next value; without one the variable keeps its value. -/
  step : Option Value

/-- A loop, taken apart. -/
structure Loop where
  /-- The loop variables. -/
  vars : List LoopVariable
  /-- The loop ends when this is true. -/
  test : Value
  /-- What is evaluated at the end. -/
  results : List Value
  /-- What is evaluated in every round. -/
  body : List Value

/-- Reads the loop variables in a row. -/
def readVariables (nesting : Nat) : List Value → Action (List LoopVariable)
  | [] => pure []
  | .list _ (.atom (.sym name)) [init] none :: more => do
    let rest ← readVariables nesting more
    pure (⟨name, init, none⟩ :: rest)
  | .list _ (.atom (.sym name)) [init, step] none :: more => do
    let rest ← readVariables nesting more
    pure (⟨name, init, some step⟩ :: rest)
  | other :: _ => do
    let shown ← Action.print .write other nesting
    Action.shapeError (.loopSpec shown)

/-- Reads `((name init step) …) (test result …) body …`. -/
def readLoop (nesting : Nat) (spec finish : Value) (body : List Value) : Action Loop := do
  if spec.isProper then
    let vars ← readVariables nesting spec.items
    match finish with
    | .list _ test results none => pure ⟨vars, test, results, body⟩
    | other =>
      let shown ← Action.print .write other nesting
      Action.shapeError (.loopEnd shown)
  else Action.shapeError (.loopSpecs spec.kind)

/-- The values of the loop variables for the next round, all seen from the scope of this one. -/
def nextValues (ev : Evaluator) (scope : ScopeId) : List LoopVariable → Action (List Value)
  | [] => pure []
  | x :: more => do
    let v ← match x.step with
      | none => Action.lookup scope x.name
      | some expr => ev.eval expr scope
    let vs ← nextValues ev scope more
    pure (v :: vs)

/-- Rounds of a loop, each in a scope of its own inside `outer`, which is opened when its values are there. -/
def rounds (ev : Evaluator) (loop : Loop) (outer : ScopeId) : Nat → ScopeId → Action Step
  | 0, _ => throw .exhausted
  | fuel + 1, scope => do
    let t ← ev.eval loop.test scope
    if t.isTruthy then ev.sequence scope loop.results
    else do
      let _ ← ev.evalForms scope loop.body
      let values ← nextValues ev scope loop.vars
      let next ← Action.newScope outer (tableOf (loop.vars.map (·.name)) values)
      rounds ev loop outer fuel next

/-- `(do ((name init step) …) (test result …) body …)`. -/
def loop (ev : Evaluator) (scope : ScopeId) : List Value → Action Step
  | spec :: finish :: body => do
    let loop ← readLoop ev.nesting spec finish body
    let values ← ev.operands scope (loop.vars.map (·.init))
    let first ← Action.newScope scope (tableOf (loop.vars.map (·.name)) values)
    rounds ev loop scope ev.rounds first
  | _ => missingOperand

end Forms

/-- Evaluates a special form with its operands. -/
def SpecialForm.run (form : SpecialForm) (ev : Evaluator) (operands : List Value)
    (scope : ScopeId) : Action Step :=
  match form with
  | .define => Forms.define ev scope operands
  | .assign => Forms.assign ev scope operands
  | .lambda => Forms.lambda scope operands
  | .conditional => Forms.conditional ev scope operands
  | .cond => Forms.cond ev scope operands
  | .conjunction => Forms.conjunction ev scope operands
  | .disjunction => Forms.disjunction ev scope operands
  | .bind => Forms.bind ev scope operands
  | .bindSequentially => Forms.bindSequentially ev scope operands
  | .bindRecursively => Forms.bindRecursively ev scope operands
  | .sequence => ev.sequence scope operands
  | .loop => Forms.loop ev scope operands
  | .quote => match operands with
    | v :: _ => pure (.value v)
    | [] => missingOperand
  | .quasiquote => match operands with
    | template :: _ =>
      if Template.nestsBelow ev.nesting template then do
        let v ← Template.fill ev scope template
        pure (.value v)
      else Action.fault .nestedTooDeeply
    | [] => missingOperand
  | .unquote => Action.shapeError .unquoteOutside
  | .unquoteSplicing => Action.shapeError .spliceOutside
  | .defineTransformer => Forms.defineTransformer scope operands

end Lisplet
