import Lisplet.Primitive
import Lisplet.SpecialForm

/-!
# Values

Values are atoms and lists. A list keeps its leading items in one row and, if it does not end in the
empty list, the atom it ends in; so a list in another list's tail is always part of that row, and a
dotted list always has an item. Code is data: the evaluator walks the same lists.

Lists and floats carry the identity of the object they stand for, and strings, closures and ports are
nothing but an identity: what they hold is in the store. Symbols, characters, truth values, integers
and primitive procedures need none.
-/

namespace Lisplet

/-- Names one list or float object. -/
abbrev ObjectId := Nat

/-- Names one string buffer. -/
abbrev BufferId := Nat

/-- Names one closure. -/
abbrev ClosureId := Nat

/-- Names one port. -/
abbrev PortId := Nat

/-- Names one scope. -/
abbrev ScopeId := Nat

/-- A value that is no list. -/
inductive Atom where
  | int (n : Int)
  | float (x : Float) (id : ObjectId)
  | bool (b : Bool)
  | sym (name : Text)
  | str (buffer : BufferId)
  | char (c : CodePoint)
  /-- The unspecified value. -/
  | void
  | primitive (p : Primitive)
  | form (f : SpecialForm)
  | closure (id : ClosureId)
  | port (id : PortId)

/-- A value: an atom, the empty list, or a list with a first item, the other items and the atom it
ends in unless it ends in the empty list. -/
inductive Value where
  | atom (a : Atom)
  | nil
  | list (id : ObjectId) (head : Value) (rest : List Value) (last : Option Atom)

/-- The kinds that messages tell apart. -/
inductive Kind where
  | boolean
  | integer
  | float
  | symbol
  | string
  | char
  | list
  | dottedList
  | void
  | procedure
  | port
  deriving DecidableEq

/-- The name of a kind. -/
def Kind.name : Kind → Text
  | .boolean => "boolean"
  | .integer => "integer"
  | .float => "float"
  | .symbol => "symbol"
  | .string => "string"
  | .char => "char"
  | .list => "list"
  | .dottedList => "dotted list"
  | .void => "void"
  | .procedure => "procedure"
  | .port => "port"

/-- The kind of an atom. -/
def Atom.kind : Atom → Kind
  | .int _ => .integer
  | .float _ _ => .float
  | .bool _ => .boolean
  | .sym _ => .symbol
  | .str _ => .string
  | .char _ => .char
  | .void => .void
  | .primitive _ | .form _ | .closure _ => .procedure
  | .port _ => .port

namespace Value

/-- The integer as a value. -/
abbrev int (n : Int) : Value := .atom (.int n)

/-- The truth value as a value. -/
abbrev bool (b : Bool) : Value := .atom (.bool b)

/-- The symbol as a value. -/
abbrev sym (name : Text) : Value := .atom (.sym name)

/-- The string as a value. -/
abbrev str (buffer : BufferId) : Value := .atom (.str buffer)

/-- The character as a value. -/
abbrev char (c : CodePoint) : Value := .atom (.char c)

/-- The unspecified value. -/
abbrev void : Value := .atom .void

/-- The kind of a value. -/
def kind : Value → Kind
  | .atom a => a.kind
  | .nil => .list
  | .list _ _ _ none => .list
  | .list _ _ _ (some _) => .dottedList

/-- Only the false truth value counts as false. -/
def isTruthy : Value → Bool
  | .atom (.bool false) => false
  | _ => true

/-- Whether a value is its own value as code. -/
def isSelfEvaluating : Value → Bool
  | .atom (.int _) | .atom (.float _ _) | .atom (.bool _) | .atom (.str _) | .atom (.char _) => true
  | _ => false

/-- Whether a value is this very symbol. -/
def isSymbol (name : Text) : Value → Bool
  | .atom (.sym s) => s = name
  | _ => false

/-- Whether a value can be applied. -/
def isProcedure : Value → Bool
  | .atom (.primitive _) | .atom (.form _) | .atom (.closure _) => true
  | _ => false

theorem isTruthy_eq_false_iff (v : Value) : v.isTruthy = false ↔ v = .bool false := by
  constructor
  · intro h
    unfold isTruthy at h
    split at h
    · rfl
    · exact absurd h (by decide)
  · rintro rfl
    rfl

end Value

end Lisplet
