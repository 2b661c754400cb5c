import Lisplet.Value

/-!
# Lists as chains of pairs

Every list is a chain: items one after another, ending in the empty list or in an atom. The
operations here take a list apart and build one in the flattened form that values have; building
needs the identity of the new list object. `Value.items` and `Value.ending` are the view through
which they are described: joining items in front of a value puts them in front of its items and keeps
its ending.
-/

namespace Lisplet.Value

/-- The leading items of a list; an atom has none. -/
def items : Value → List Value
  | .atom _ => []
  | .nil => []
  | .list _ head rest _ => head :: rest

/-- The atom that a value ends in, if it is not the empty list. An atom is its own ending. -/
def ending : Value → Option Atom
  | .atom a => some a
  | .nil => none
  | .list _ _ _ last => last

/-- The value with these items in front of an ending. -/
def assemble (id : ObjectId) : List Value → Option Atom → Value
  | [], none => .nil
  | [], some a => .atom a
  | head :: rest, last => .list id head rest last

/-- The items in front of another value, whose items they join. -/
def append (id : ObjectId) (front : List Value) (back : Value) : Value :=
  assemble id (front ++ back.items) back.ending

/-- The proper list of some items. -/
def ofList (id : ObjectId) (vs : List Value) : Value := assemble id vs none

/-- The list with a new first item. -/
def cons (id : ObjectId) (head tail : Value) : Value :=
  .list id head tail.items tail.ending

/-- The first item. -/
def head? : Value → Option Value
  | .list _ head _ _ => some head
  | _ => none

/-- What follows the first item; a remainder without items is the bare ending. -/
def tail? (id : ObjectId) : Value → Option Value
  | .list _ _ rest last => some (assemble id rest last)
  | _ => none

/-- The empty list or a list with items. -/
def isList : Value → Bool
  | .atom _ => false
  | _ => true

/-- The items in front of a tail as a list. A tail that is no list needs an item before it. -/
def construct? (id : ObjectId) (vs : List Value) (last : Option Value) : Option Value :=
  match last with
  | none => some (ofList id vs)
  | some tail =>
    if vs.isEmpty && !tail.isList then none else some (append id vs tail)

/-- A list with at least one item. -/
def isPair : Value → Bool
  | .list .. => true
  | _ => false

/-- The empty list. -/
def isNil : Value → Bool
  | .nil => true
  | _ => false

/-- A list that ends in the empty list. -/
def isProper : Value → Bool
  | .nil => true
  | .list _ _ _ none => true
  | _ => false

/-- Items and a final atom in one row. -/
def cells : Value → List Value
  | .list _ head rest last => (head :: rest) ++ (last.map Value.atom).toList
  | _ => []

/-- The number of items, a final atom counted as one more. -/
def length (v : Value) : Nat := v.cells.length

/-- The cell at a place counted from zero. -/
def nth? (v : Value) (n : Int) : Option Value :=
  if n < 0 then none else v.cells[n.toNat]?

/-- The last cell. -/
def last? (v : Value) : Option Value := v.cells.getLast?

/-- All cells but the last. -/
def butLast (v : Value) : List Value := v.cells.dropLast

theorem items_assemble (id : ObjectId) (vs : List Value) (last : Option Atom) :
    (assemble id vs last).items = vs := by
  cases vs <;> cases last <;> rfl

theorem ending_assemble (id : ObjectId) (vs : List Value) (last : Option Atom) :
    (assemble id vs last).ending = last := by
  cases vs <;> cases last <;> rfl

/-- Joining puts the new items in front and keeps the ending. -/
theorem items_append (id : ObjectId) (front : List Value) (back : Value) :
    (append id front back).items = front ++ back.items := by
  rw [append, items_assemble]

theorem ending_append (id : ObjectId) (front : List Value) (back : Value) :
    (append id front back).ending = back.ending := by
  rw [append, ending_assemble]

theorem items_cons (id : ObjectId) (head tail : Value) :
    (cons id head tail).items = head :: tail.items := rfl

theorem ending_cons (id : ObjectId) (head tail : Value) :
    (cons id head tail).ending = tail.ending := rfl

theorem head?_cons (id : ObjectId) (head tail : Value) :
    (cons id head tail).head? = some head := rfl

/-- What follows the first item of a new list has the items and the ending of the tail. -/
theorem tail?_cons (id id' : ObjectId) (head tail : Value) :
    (cons id head tail).tail? id' = some (assemble id' tail.items tail.ending) := rfl

end Lisplet.Value
