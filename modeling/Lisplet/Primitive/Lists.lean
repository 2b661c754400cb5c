import Lisplet.Evaluation.Evaluator

/-!
# List procedures

Every procedure that builds a list makes a new object. Taking the tail of a list is making a new list
of the items that remain; only `list-tail` by zero places gives back its argument.
-/

namespace Lisplet.ListOp

/-- The first item of a list argument. -/
def head (who : Text) (v : Value) : Action Value := do
  let l ← Action.asList (some who) v
  match l.head? with
  | some a => pure a
  | none => Action.fail (.emptyList .head)

/-- What follows the first item of a list. -/
def rest (l : Value) : Action Value := do
  let id ← Action.freshObject
  match l.tail? id with
  | some d => pure d
  | none => Action.fail (.emptyList .tail)

/-- What follows the first item of a list argument. -/
def tail (who : Text) (v : Value) : Action Value := do
  let l ← Action.asList (some who) v
  rest l

/-- The items of all arguments, which must be proper lists. -/
def allItems (who : Text) : List Value → Action (List Value)
  | [] => pure []
  | v :: more => do
    let vs ← Action.asItems (some who) v
    let ws ← allItems who more
    pure (vs ++ ws)

/-- The items of all arguments but the last, in front of the last. -/
def appendAll (who : Text) (args : List Value) : Action Value := do
  match args.getLast? with
  | none => pure .nil
  | some last =>
    let items ← allItems who args.dropLast
    let id ← Action.freshObject
    pure (.append id items last)

/-- Takes what follows the first item so many times. Where no list with items is left, the index that
was asked for is out of range. -/
def dropTimes (who : Text) (index : Int) : Nat → Value → Action Value
  | 0, v => pure v
  | k + 1, v =>
    if v.isPair then do
      let w ← rest v
      dropTimes who index k w
    else Action.evaluationError (.indexOutOfRange index who)

/-- The list that is left after `k` places. -/
def dropPlaces (who : Text) (v : Value) (k : Int) : Action Value :=
  if k < 0 then Action.typeError (.negative "index" who k) (.int k)
  else dropTimes who k k.toNat v

/-- The item at place `k`. -/
def itemAt (who : Text) (v : Value) (k : Int) : Action Value :=
  match (if k < 0 then none else v.items[k.toNat]?) with
  | some a => pure a
  | none => Action.evaluationError (.indexOutOfRange k who)

/-- Applies a list procedure. -/
def run (op : ListOp) (args : List Value) : Action Value := do
  match op, args with
  | .cons, [a, d] =>
    let id ← Action.freshObject
    pure (.cons id a d)
  | .car, [v] => head op.name v
  | .cdr, [v] => tail op.name v
  | .list, vs => Action.newList vs
  | .length, [v] =>
    let vs ← Action.asItems (some op.name) v
    pure (.int vs.length)
  | .append, vs => appendAll op.name vs
  | .reverse, [v] =>
    let vs ← Action.asItems (some op.name) v
    Action.newList vs.reverse
  | .listTail, [v, k] =>
    let l ← Action.asList (some op.name) v
    let k ← Action.asInteger (some op.name) k
    dropPlaces op.name l k
  | .listRef, [v, k] =>
    let l ← Action.asList (some op.name) v
    let k ← Action.asInteger (some op.name) k
    itemAt op.name l k
  | .isNull, [v] => pure (.bool v.isNil)
  | .isPair, [v] => pure (.bool v.isPair)
  | .isList, [v] => pure (.bool v.isProper)
  | _, _ => Action.fault .operandMissing

end Lisplet.ListOp
