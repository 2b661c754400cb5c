import Lisplet.Evaluation.Evaluator

/-!
# Templates

A quasiquoted template is copied with its holes filled: `(unquote e)` becomes the value of `e`, and
the items of a list put by `(unquote-splicing e)` join the items around it. A template is walked once,
so the holes of a template inside a template are filled as well. In tail position, where a list ends
in the two items `unquote` and `e`, the value of `e` becomes the tail. `Template.nestsBelow` bounds how
deep the walk goes; what is inside a hole does not count.
-/

namespace Lisplet.Template

/-- Whether a value is a proper list headed by this symbol. -/
def isHeaded (name : Text) : Value → Bool
  | .list _ head _ none => head.isSymbol name
  | _ => false

/-- The single operand of an unquoting list. -/
def operand (form : Text) : Value → Action Value
  | .list _ _ [e] none => pure e
  | .list _ _ rest _ => Action.shapeError (.unquoteOperand form rest.length)
  | _ => Action.fault .operandMissing

/-- The symbol of a filled hole. -/
def unquoteName : Text := "unquote"

/-- The symbol of a spliced hole. -/
def spliceName : Text := "unquote-splicing"

/-- The items that a splicing element contributes. -/
def spliced (ev : Evaluator) (scope : ScopeId) (element : Value) : Action (List Value) := do
  let e ← operand spliceName element
  let v ← ev.eval e scope
  if v.isProper then pure v.items else Action.typeError .notSpliceable v

/-- The expression of a hole in tail position, when the rest of a list is exactly such a hole. -/
def tailHole? : List Value → Option Value
  | [mark, e] => if mark.isSymbol unquoteName then some e else none
  | _ => none

mutual

/-- Whether the lists of a template outside its holes are nested less deep than a bound. -/
def nestsBelow (bound : Nat) (element : Value) : Bool :=
  match element with
  | .atom _ | .nil => true
  | .list id head rest last =>
    match bound with
    | 0 => false
    | bound + 1 =>
      let template := .list id head rest last
      isHeaded spliceName template || isHeaded unquoteName template ||
        (nestsBelow bound head && restNestsBelow bound last.isNone rest)

/-- Whether the elements after the first one are nested less deep than a bound. -/
def restNestsBelow (bound : Nat) (isProper : Bool) : List Value → Bool
  | [] => true
  | element :: more =>
    (if isProper then tailHole? (element :: more) else none).isSome ||
      (nestsBelow bound element && restNestsBelow bound isProper more)

end

/-- What is built of the rest of a template: items, and a tail if a hole in tail position gave it. -/
abbrev Filled := List Value × Option Value

mutual

/-- The items that one element of a template contributes: those of the list that a splicing element
gives, and one item for any other element. -/
def fillElement (ev : Evaluator) (scope : ScopeId) (element : Value) : Action (List Value) :=
  match element with
  | .atom a => pure [.atom a]
  | .nil => pure [.nil]
  | .list id head rest last =>
    if isHeaded spliceName (.list id head rest last) then
      spliced ev scope (.list id head rest last)
    else if isHeaded unquoteName (.list id head rest last) then do
      let e ← operand unquoteName (.list id head rest last)
      let v ← ev.eval e scope
      pure [v]
    else do
      let first ← fillElement ev scope head
      let (items, tail) ← fillRest ev scope last.isNone rest
      let newId ← Action.freshObject
      match tail with
      | some v => pure [.append newId (first ++ items) v]
      | none => pure [.assemble newId (first ++ items) last]

/-- Fills the elements after the first one. A proper template may end in a hole in tail position. -/
def fillRest (ev : Evaluator) (scope : ScopeId) (isProper : Bool) : List Value → Action Filled
  | [] => pure ([], none)
  | element :: more =>
    match (if isProper then tailHole? (element :: more) else none) with
    | some e => do
      let v ← ev.eval e scope
      pure ([], some v)
    | none => do
      let first ← fillElement ev scope element
      let (items, tail) ← fillRest ev scope isProper more
      pure (first ++ items, tail)

end

/-- Fills a template. There is nothing that a template could be spliced into as a whole. -/
def fill (ev : Evaluator) (scope : ScopeId) (template : Value) : Action Value := do
  if isHeaded spliceName template then Action.shapeError .spliceOutsideList
  else
    match ← fillElement ev scope template with
    | [v] => pure v
    | _ => Action.fault .operandMissing

end Lisplet.Template
