import Lisplet.Failure
import Lisplet.Table
import Lisplet.Value.Chain

/-!
# List objects

Lists as objects that several places hold. An object is a view of a stored row, from some place on, and
perhaps a tail. Rows never change and are shared by views: what follows the first item of a list is another
view of the same row. Taking the first item off a list in place moves the view of that one object; every
other operation makes a new object or none and changes no other.

Building a list unrolls its tail: as long as the tail is a list, its items join the items in front and its
own tail takes its place.
-/

namespace Lisplet

/-- What stands in a list: a value that is no list, or a list object. -/
inductive Cell where
  | atom (a : Atom)
  | object (id : ObjectId)

/-- Names one stored row. -/
abbrev RowId := Nat

/-- A view of a stored row from some place on, in front of a tail. -/
structure ListObject where
  row : RowId
  start : Nat
  last : Option Cell

/-- The stored rows and the list objects. -/
structure ListHeap where
  rows : Array (List Cell)
  objects : Array ListObject

/-- Why an operation on list objects is refused. -/
inductive ListFault where
  /-- An access to the empty list. -/
  | empty (e : EmptyListError)
  /-- A single dotted pair, which cannot become its bare tail in place. -/
  | dottedPair (id : ObjectId)
  /-- A tail that is no list without items in front of it. -/
  | tailWithoutItems
  /-- A place outside a list. -/
  | indexOutOfRange
  /-- A list object that does not exist. -/
  | noObject

/-- A computation on list objects that may be refused. -/
abbrev ListAction := EStateM ListFault ListHeap

namespace ListHeap

/-- No lists at all. -/
def initial : ListHeap := ⟨#[], #[]⟩

/-- Whether a cell is an atom or an object that exists. -/
def holds (heap : ListHeap) : Cell → Bool
  | .atom _ => true
  | .object id => id < heap.objects.size

/-- A stored row. -/
def row (heap : ListHeap) (id : RowId) : List Cell := heap.rows[id]?.getD []

/-- The leading items of a list object. -/
def elements (heap : ListHeap) (o : ListObject) : List Cell := (heap.row o.row).drop o.start

/-- Unrolls the tail behind some items. A tail is older than the list that it ends, so no more rounds are
needed than there are objects. -/
def unroll (heap : ListHeap) : Nat → List Cell → Option Cell → List Cell × Option Cell
  | 0, items, last => (items, last)
  | rounds + 1, items, last =>
    match last with
    | some (.object id) =>
      match heap.objects[id]? with
      | some o => heap.unroll rounds (items ++ heap.elements o) o.last
      | none => (items, last)
    | last => (items, last)

/-- The items behind the start of a list object, and its tail if it has one, in one row. -/
def cells (heap : ListHeap) (o : ListObject) : List Cell := heap.elements o ++ o.last.toList

/-- The number of cells of a list object. -/
def length (heap : ListHeap) (o : ListObject) : Nat :=
  let count := (heap.row o.row).length - o.start
  if o.last.isSome then count + 1 else count

/-- Whether a list object has neither items nor a tail. -/
def isEmpty (heap : ListHeap) (o : ListObject) : Bool :=
  o.start = (heap.row o.row).length && o.last.isNone

end ListHeap

namespace ListAction

/-- A list object that exists. -/
def object (id : ObjectId) : ListAction ListObject := do
  let heap ← get
  match heap.objects[id]? with
  | some o => pure o
  | none => throw .noObject

/-- A new object, a view of a row that is stored. -/
def view (row : RowId) (start : Nat) (last : Option Cell) : ListAction Cell :=
  modifyGet fun heap =>
    (.object heap.objects.size, { heap with objects := heap.objects.push ⟨row, start, last⟩ })

/-- A new object over a new row. -/
def allocate (items : List Cell) (last : Option Cell) : ListAction Cell := do
  let row ← modifyGet fun heap => (heap.rows.size, { heap with rows := heap.rows.push items })
  view row 0 last

/-! ### Building lists -/

/-- The items in front of a tail as a list. -/
def construct (items : List Cell) (last : Option Cell) : ListAction Cell := do
  let heap ← get
  let (items, last) := heap.unroll heap.objects.size items last
  if last.isSome && items.isEmpty then throw .tailWithoutItems
  else allocate items last

/-- The items in front of a tail, or the bare tail when there are no items and it is no list. -/
def join (items : List Cell) (last : Option Cell) : ListAction Cell := do
  let heap ← get
  match heap.unroll heap.objects.size items last with
  | ([], some tail) => pure tail
  | (items, last) => construct items last

/-- The list whose last item is its tail. -/
def dotted (items : List Cell) : ListAction Cell :=
  match items.getLast? with
  | none => construct [] none
  | some last => do
    match ← join items.dropLast (some last) with
    | .object id => pure (.object id)
    | .atom _ => throw .tailWithoutItems

/-- The list with a first item in front of a tail. -/
def cons (head tail : Cell) : ListAction Cell := construct [head] (some tail)

/-! ### Taking lists apart -/

/-- The first item. -/
def first (id : ObjectId) : ListAction Cell := do
  let o ← object id
  let heap ← get
  let row := heap.row o.row
  if o.start = row.length then throw (.empty .head)
  else
    match row[o.start]? with
    | some c => pure c
    | none => throw .indexOutOfRange

/-- What follows the first item: a further view of the row, or the bare tail where no item is left. -/
def rest (id : ObjectId) : ListAction Cell := do
  let o ← object id
  let heap ← get
  let row := heap.row o.row
  if o.start = row.length then throw (.empty .tail)
  else
    match o.last with
    | some tail =>
      if o.start + 1 = row.length then pure tail else view o.row (o.start + 1) (some tail)
    | none => view o.row (o.start + 1) none

/-- The first item and what follows it. -/
def splitFirst (id : ObjectId) : ListAction (Cell × Cell) := do
  let head ← first id
  let tail ← rest id
  pure (head, tail)

/-- Takes the first item off a list object in place. -/
def popFront (id : ObjectId) : ListAction Cell := do
  let head ← first id
  let o ← object id
  let heap ← get
  if o.start + 1 = (heap.row o.row).length && o.last.isSome then throw (.dottedPair id)
  else
    set { heap with objects := heap.objects.set! id { o with start := o.start + 1 } }
    pure head

/-! ### Enumerating lists -/

/-- All cells in order. -/
def iterate (id : ObjectId) : ListAction (List Cell) := do
  let o ← object id
  let heap ← get
  pure (heap.cells o)

/-- The cell at a place counted from zero. -/
def nth (id : ObjectId) (n : Int) : ListAction Cell := do
  let o ← object id
  let heap ← get
  if n < 0 ∨ heap.length o ≤ n then throw .indexOutOfRange
  else
    match (heap.row o.row)[o.start + n.toNat]?, o.last with
    | some c, _ => pure c
    | none, some tail => pure tail
    | none, none => throw .indexOutOfRange

/-- The last cell. -/
def last (id : ObjectId) : ListAction Cell := do
  let o ← object id
  let heap ← get
  if heap.isEmpty o then throw (.empty .last)
  else
    match o.last, (heap.row o.row).getLast? with
    | some tail, _ => pure tail
    | none, some c => pure c
    | none, none => throw .indexOutOfRange

/-- All cells but the last. -/
def butLast (id : ObjectId) : ListAction (List Cell) := do
  let o ← object id
  let heap ← get
  let count := heap.length o
  pure (if count = 0 then [] else (heap.cells o).take (count - 1))

end ListAction

/-! ### Commands -/

/-- An operation on list objects with its operands. -/
inductive ListCommand where
  | construct (items : List Cell) (last : Option Cell)
  | join (items : List Cell) (last : Option Cell)
  | dotted (items : List Cell)
  | cons (head tail : Cell)
  | first (id : ObjectId)
  | rest (id : ObjectId)
  | splitFirst (id : ObjectId)
  | popFront (id : ObjectId)
  | iterate (id : ObjectId)
  | nth (id : ObjectId) (n : Int)
  | last (id : ObjectId)
  | butLast (id : ObjectId)

/-- What an operation on list objects gives. -/
inductive ListAnswer where
  | value (c : Cell)
  | pair (head tail : Cell)
  | cells (cs : List Cell)

namespace ListCommand

/-- The operands of a command. -/
def operands : ListCommand → List Cell
  | .construct items tail | .join items tail => items ++ tail.toList
  | .dotted items => items
  | .cons head tail => [head, tail]
  | .first id | .rest id | .splitFirst id | .popFront id => [.object id]
  | .iterate id | .nth id _ | .last id | .butLast id => [.object id]

/-- Performs a command whose operands exist. -/
def performHeld : ListCommand → ListAction ListAnswer
  | .construct items tail => .value <$> ListAction.construct items tail
  | .join items tail => .value <$> ListAction.join items tail
  | .dotted items => .value <$> ListAction.dotted items
  | .cons head tail => .value <$> ListAction.cons head tail
  | .first id => .value <$> ListAction.first id
  | .rest id => .value <$> ListAction.rest id
  | .splitFirst id => (fun (head, tail) => .pair head tail) <$> ListAction.splitFirst id
  | .popFront id => .value <$> ListAction.popFront id
  | .iterate id => .cells <$> ListAction.iterate id
  | .nth id n => .value <$> ListAction.nth id n
  | .last id => .value <$> ListAction.last id
  | .butLast id => .cells <$> ListAction.butLast id

/-- Performs a command, and refuses operands that do not exist. -/
def perform (command : ListCommand) : ListAction ListAnswer := do
  let heap ← get
  if command.operands.all heap.holds then command.performHeld else throw .noObject

end ListCommand

namespace ListHeap

/-- The list objects after a command, whether it succeeds or is refused. -/
def after (heap : ListHeap) (command : ListCommand) : ListHeap :=
  match command.perform heap with
  | .ok _ heap => heap
  | .error _ heap => heap

/-- The list objects after some commands, of which any may be refused. -/
def run (commands : List ListCommand) (heap : ListHeap) : ListHeap := commands.foldl after heap

/-! ### Values of list objects -/

/-- The value of a cell, given those of the objects. -/
def cellValue (values : Array Value) : Cell → Value
  | .atom a => .atom a
  | .object id => values[id]?.getD .nil

/-- The values of the objects, oldest first; the cells of an object are older than it. -/
def values (heap : ListHeap) : Array Value :=
  heap.objects.foldl (fun values o => values.push (Value.append values.size
    ((heap.elements o).map (cellValue values)) ((o.last.map (cellValue values)).getD .nil))) #[]

/-- The value of a cell. -/
def value (heap : ListHeap) (c : Cell) : Value := cellValue heap.values c

/-- The failure of a refused operation. -/
def failure (heap : ListHeap) : ListFault → Failure
  | .empty e => .emptyList e
  | .dottedPair id => .type .dottedPair (heap.value (.object id))
  | .tailWithoutItems => .fault .tailWithoutItems
  | .indexOutOfRange => .fault .indexOutOfRange
  | .noObject => .fault .operandMissing

end ListHeap

end Lisplet
