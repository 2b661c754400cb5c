import Lisplet.Datum.Printer
import Lisplet.Value

/-!
# What keeps a value from being printed

A value is printed by descending into its lists, and an integer in it needs a decimal text. Both have
their limits: `Value.obstacle?` gives the first thing in the order of printing that exceeds one. It never
descends deeper than the limit itself, so it ends soon for every value.
-/

namespace Lisplet

/-- Why a value has no printed form. -/
inductive PrintFault where
  /-- Lists are nested too deeply. -/
  | nestedTooDeeply
  /-- An integer has too many digits. -/
  | numeralTooLong

/-- How much deeper printing goes with a list. -/
def listDepth : Nat := 4

/-- How much deeper printing goes with a shorthand. -/
def shorthandDepth : Nat := 2

/-- What keeps an atom from being printed. -/
def Atom.obstacle? : Atom → Option PrintFault
  | .int n => if fitsDecimal n.natAbs then none else some .numeralTooLong
  | _ => none

namespace Value

/-- Whether a list is printed with a shorthand. -/
def hasShorthand (head : Value) (rest : List Value) (last : Option Atom) : Bool :=
  match head, rest, last with
  | .atom (.sym name), [_], none => (shorthands.lookup name).isSome
  | _, _, _ => false

mutual

/-- What keeps a value from being printed when printing may go so deep. -/
def obstacle? (room : Nat) : Value → Option PrintFault
  | .atom a => a.obstacle?
  | .nil => none
  | .list _ head rest last =>
    let depth := if hasShorthand head rest last then shorthandDepth else listDepth
    if room < depth then some .nestedTooDeeply
    else
      match obstacle? (room - depth) head with
      | some fault => some fault
      | none => obstacleIn? (room - depth) last rest

/-- What keeps the items of a row, or the atom it ends in, from being printed. -/
def obstacleIn? (room : Nat) (last : Option Atom) : List Value → Option PrintFault
  | [] => last.bind Atom.obstacle?
  | v :: vs =>
    match obstacle? room v with
    | some fault => some fault
    | none => obstacleIn? room last vs

end

end Value

end Lisplet
