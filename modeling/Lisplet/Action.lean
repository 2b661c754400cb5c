import Lisplet.Store

/-!
# Actions on the store

An action runs on a store and ends with a value or with a signal; in both cases the store afterwards
is part of the outcome, so what was done before a failure stays done. The operations on scopes,
strings, closures, ports and files that evaluation is made of are actions.
-/

namespace Lisplet

/-- A computation on the store that may end with a signal. -/
abbrev Action := EStateM Signal Store

namespace Action

/-- Ends with a failure. -/
def fail {α : Type} (f : Failure) : Action α := throw (.failure f)

/-- Ends with a fault. -/
def fault {α : Type} (f : Fault) : Action α := fail (.fault f)

/-- Ends with a wrong kind. -/
def typeError {α : Type} (e : TypeError) (v : Value) : Action α := fail (.type e v)

/-- Ends with a wrong shape. -/
def shapeError {α : Type} (e : ShapeError) : Action α := fail (.shape e)

/-- Ends with another failure of evaluation. -/
def evaluationError {α : Type} (e : EvaluationError) : Action α := fail (.evaluation e)

/-- The value of an option, or a fault. -/
def orFault {α : Type} (f : Fault) : Option α → Action α
  | some a => pure a
  | none => fault f

/-- The result of a check of shape. -/
def ofShape {α : Type} : Except ShapeError α → Action α
  | .ok a => pure a
  | .error e => shapeError e

/-- Runs an action and then restores something in the store, however the action ends. -/
def ensuring {α : Type} (act : Action α) (restore : Store → Store) : Action α := fun s =>
  match act s with
  | .ok a s => .ok a (restore s)
  | .error e s => .error e (restore s)

/-- Runs an action whose nesting, when it is too deep, is a failure of the language. -/
def limited {α : Type} (act : Action α) : Action α := fun s =>
  match act s with
  | .error (.failure (.fault .nestedTooDeeply)) s => .error (.failure .tooDeep) s
  | outcome => outcome

/-! ### Objects -/

/-- A new identity. -/
def freshObject : Action ObjectId :=
  modifyGet fun s => (s.nextObject, { s with nextObject := s.nextObject + 1 })

/-- A new list of some items. -/
def newList (vs : List Value) : Action Value := do
  let id ← freshObject
  pure (.ofList id vs)

/-- A new float object. -/
def newFloat (x : Float) : Action Value := do
  let id ← freshObject
  pure (.atom (.float x id))

/-- A new string. -/
def newString (t : Text) : Action Value :=
  modifyGet fun s => (.str s.buffers.size, { s with buffers := s.buffers.push t })

/-- The content of a string. -/
def content (buffer : BufferId) : Action Text := do
  let s ← get
  pure (s.content buffer)

/-- Replaces the content of a string. -/
def setContent (buffer : BufferId) (t : Text) : Action Unit :=
  modify fun s => { s with buffers := s.buffers.set! buffer t }

/-- A new closure. -/
def newClosure (c : Closure) : Action ClosureId :=
  modifyGet fun s => (s.closures.size, { s with closures := s.closures.push c })

/-- A fresh symbol: a prefix, a dash and a number that no other fresh symbol has. -/
def freshSymbol (start : Text) : Action Value :=
  modifyGet fun s =>
    (.sym (start ++ text "-" ++ natText s.nextFresh), { s with nextFresh := s.nextFresh + 1 })

/-! ### Scopes -/

/-- A new scope inside another one. -/
def newScope (parent : ScopeId) (bindings : Table Value) : Action ScopeId :=
  modifyGet fun s => (s.scopes.size, { s with scopes := s.scopes.push ⟨bindings, [], some parent⟩ })

/-- Binds a name in a scope. -/
def define (scope : ScopeId) (name : Text) (v : Value) : Action Unit :=
  modify fun s => { s with scopes := s.scopes.define scope name v }

/-- Binds names in a scope, one after another. -/
def defineEach (scope : ScopeId) : List (Text × Value) → Action Unit
  | [] => pure ()
  | (name, v) :: more => do
    define scope name v
    defineEach scope more

/-- Changes the nearest binding of a name. -/
def assign (scope : ScopeId) (name : Text) (v : Value) : Action Unit := do
  let s ← get
  match s.scopes.binder? scope name with
  | none => fail (.unboundAssignment name)
  | some binder => define binder name v

/-- The value that a name means in a scope. -/
def lookup (scope : ScopeId) (name : Text) : Action Value := do
  let s ← get
  match s.scopes.lookup? scope name with
  | some v => pure v
  | none => fail (.unbound name)

/-- The transformer that a name means in a scope. -/
def transformer? (scope : ScopeId) (name : Text) : Action (Option ClosureId) := do
  let s ← get
  pure (s.scopes.transformer? scope name)

/-- Defines a transformer in a scope. -/
def defineTransformer (scope : ScopeId) (name : Text) (c : ClosureId) : Action Unit :=
  modify fun s => { s with scopes := s.scopes.defineTransformer scope name c }

/-! ### External forms -/

/-- The printed form of a value, when printing may go so deep. -/
def print (mode : PrintMode) (v : Value) (room : Nat := nestingLimit) : Action Text := do
  let s ← get
  match s.print mode v room with
  | .ok t => pure t
  | .error .nestedTooDeeply => fault .nestedTooDeeply
  | .error .numeralTooLong => fault .numeralTooLong

/-- The value of a datum, made of new objects. The two NaN literals denote one object each. -/
def instantiate : Datum → Action Value
  | .int n => pure (.int n)
  | .float x => newFloat x
  | .nan negative =>
    pure (.atom (.float (0.0 / 0.0) (if negative then negativeNan else positiveNan)))
  | .bool b => pure (.bool b)
  | .char c => pure (.char c)
  | .str t => newString t
  | .sym name => pure (.sym name)
  | .nil => pure .nil
  | .pair head tail => do
    let h ← instantiate head
    let t ← instantiate tail
    let id ← freshObject
    pure (.cons id h t)
  | .unreadable _ => pure .void

/-! ### Typed arguments -/

/-- Ends with a value that is not what a procedure asks for. -/
def mismatch {α : Type} (what : Expected) (who : Option Text) (v : Value) : Action α :=
  typeError (.expected what who) v

/-- The name of a symbol. -/
def asSymbol (who : Option Text) (v : Value) : Action Text :=
  match v with
  | .atom (.sym name) => pure name
  | v => mismatch .symbol who v

/-- A list, proper or dotted. -/
def asList (who : Option Text) (v : Value) : Action Value :=
  if v.isList then pure v else mismatch .list who v

/-- The items of a proper list. -/
def asItems (who : Option Text) (v : Value) : Action (List Value) :=
  if v.isProper then pure v.items else mismatch .properList who v

/-- A procedure. -/
def asProcedure (who : Option Text) (v : Value) : Action Value :=
  if v.isProcedure then pure v else mismatch .procedure who v

/-- The buffer of a string. -/
def asString (who : Option Text) (v : Value) : Action BufferId :=
  match v with
  | .atom (.str buffer) => pure buffer
  | v => mismatch .string who v

/-- A character. -/
def asChar (who : Option Text) (v : Value) : Action CodePoint :=
  match v with
  | .atom (.char c) => pure c
  | v => mismatch .char who v

/-- An integer. -/
def asInteger (who : Option Text) (v : Value) : Action Int :=
  match v with
  | .atom (.int n) => pure n
  | v => mismatch .integer who v

/-- A number, integer or float. -/
def asNumber (who : Option Text) (v : Value) : Action Value :=
  match v with
  | .atom (.int _) | .atom (.float _ _) => pure v
  | v => mismatch .number who v

/-- A port. -/
def asPort (who : Option Text) (v : Value) : Action PortId :=
  match v with
  | .atom (.port id) => pure id
  | v => mismatch .port who v

/-- The content of a string argument. -/
def asText (who : Option Text) (v : Value) : Action Text := do
  let buffer ← asString who v
  content buffer

end Action

end Lisplet
