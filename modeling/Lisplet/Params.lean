import Lisplet.Arity
import Lisplet.Failure
import Lisplet.Table
import Lisplet.Value.Chain

/-!
# Parameter patterns and closures

A parameter expression is a pattern on the arguments: a list of symbols takes one argument for each,
a dotted list takes the arguments that are left over as one list, and a symbol alone takes all of
them. `Params.parse` reads the expression; the counts of arguments that a pattern takes are its `Params.arity`.
-/

namespace Lisplet

/-- A parameter pattern: symbols for single arguments, and one for those that are left over. -/
structure Params where
  /-- The symbols that take one argument each. -/
  required : List Text
  /-- The symbol that takes the rest. -/
  rest : Option Text
  deriving DecidableEq

/-- The three sorts of parameter patterns. -/
inductive ParamsKind where
  | fixed
  | variadic
  | mixed
  deriving DecidableEq

namespace Params

/-- The sort of a pattern. -/
def kind (p : Params) : ParamsKind :=
  match p.rest with
  | none => .fixed
  | some _ => if p.required.isEmpty then .variadic else .mixed

/-- The argument counts that a pattern matches. -/
def arity (p : Params) : Arity :=
  match p.rest with
  | none => .exact p.required.length
  | some _ => .atLeast p.required.length

/-- The names in a row of symbols; the first other value is an error at its place in the row. -/
def symbolNames (form : Text) : Nat → List Value → Except ShapeError (List Text)
  | _, [] => .ok []
  | position, .atom (.sym name) :: more =>
    (symbolNames form (position + 1) more).map (name :: ·)
  | position, v :: _ => .error (.parameter form v.kind position)

/-- Reads a parameter expression of a form. -/
def parse (form : Text) (v : Value) : Except ShapeError Params :=
  match v with
  | .atom (.sym name) => .ok ⟨[], some name⟩
  | .atom a => .error (.parameters form a.kind)
  | v =>
    (symbolNames form 1 v.cells).map fun names =>
      if v.isProper then ⟨names, none⟩ else ⟨names.dropLast, names.getLast?⟩

end Params

/-- A procedure made by evaluation: parameters, a body and the scope that it was made in. -/
structure Closure where
  /-- The name that the procedure was defined under, if any. -/
  name : Option Text
  /-- Its parameters. -/
  params : Params
  /-- The expressions of its body. -/
  body : List Value
  /-- The scope that was current when it was made. -/
  scope : ScopeId

/-- The name that messages use. -/
def Closure.shownName (c : Closure) : Text := c.name.getD "anon"

end Lisplet
