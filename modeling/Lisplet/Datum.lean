import Lisplet.Number.Numeral

/-!
# Data

A datum is what a source spells and what a printer spells out: atoms, the empty list, and pairs. It
holds no identity, so two data are the same exactly when they are spelled alike part by part; values
with identity are views of data with names for their objects.

Procedures, ports and the unspecified value have no spelling that reads back. As data they are
`unreadable` and carry the text that is shown for them.
-/

namespace Lisplet

/-- The external form of a value. -/
inductive Datum where
  | int (n : Int)
  | float (x : Float)
  /-- The shared float object of one of the two NaN literals. -/
  | nan (negative : Bool)
  | bool (b : Bool)
  | char (c : CodePoint)
  | str (content : Text)
  | sym (name : Text)
  | nil
  | pair (head tail : Datum)
  /-- A value that no source spells, with the text shown for it. -/
  | unreadable (shown : Text)

/-- How deep data may be nested when they are read, printed or filled in. Every operation counts its own
steps: so many for a list, and fewer for a quotation mark. -/
def nestingLimit : Nat := 25000

namespace Datum

/-- The list of some items, ending in a given datum. -/
def ofItems (items : List Datum) (last : Datum) : Datum := items.foldr pair last

/-- The proper list of some items. -/
def ofList (items : List Datum) : Datum := ofItems items nil

/-- A two-element list with a symbol in front. -/
def prefixed (name : Text) (d : Datum) : Datum := pair (sym name) (pair d nil)

/-- The datum of a numeral. -/
def ofNumeral : Numeral → Datum
  | .int n => int n
  | .float x => float x
  | .nan negative => nan negative

/-- The empty list or a list with items. -/
def isList : Datum → Bool
  | nil | pair _ _ => true
  | _ => false

/-- The leading items of a datum and what they end in. -/
def spine : Datum → List Datum × Datum
  | pair a d => (a :: d.spine.1, d.spine.2)
  | d => ([], d)

theorem ofItems_spine (d : Datum) : ofItems d.spine.1 d.spine.2 = d := by
  induction d with
  | pair a d _ ih => simpa [spine, ofItems] using ih
  | _ => rfl

end Datum

end Lisplet
