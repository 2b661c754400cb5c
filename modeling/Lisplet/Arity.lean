import Lisplet.Number.Radix

/-!
# Argument counts

An arity says how many arguments a procedure takes: exactly so many, at least so many, any number, or
a number from a range.
-/

namespace Lisplet

/-- The admitted argument counts, from `minimum` to `maximum` or without an upper bound. -/
structure Arity where
  minimum : Int
  maximum : Option Int
  deriving DecidableEq

namespace Arity

/-- Exactly `n` arguments. -/
def exact (n : Int) : Arity := ⟨n, some n⟩

/-- `n` arguments or more. -/
def atLeast (n : Int) : Arity := ⟨n, none⟩

/-- Any number of arguments. -/
def any : Arity := ⟨0, none⟩

/-- From `least` to `most` arguments. -/
def range (least most : Int) : Arity := ⟨least, some most⟩

/-- From `least` to `most` arguments, unless that is empty. -/
def range? (least most : Int) : Option Arity :=
  if most < least then none else some (range least most)

/-- Whether a count is admitted. -/
def accepts (a : Arity) (count : Int) : Bool :=
  a.minimum ≤ count && match a.maximum with
    | none => true
    | some most => count ≤ most

/-- The wording of an arity. -/
def render (a : Arity) : Text :=
  match a.maximum with
  | none => if a.minimum = 0 then text "any" else text "at least " ++ integerText 10 a.minimum
  | some most =>
    if a.minimum = most then integerText 10 most
    else integerText 10 a.minimum ++ text " to " ++ integerText 10 most

theorem accepts_exact (n count : Int) : (exact n).accepts count = true ↔ count = n := by
  have h : (exact n).accepts count = (decide (n ≤ count) && decide (count ≤ n)) := rfl
  rw [h, Bool.and_eq_true, decide_eq_true_eq, decide_eq_true_eq]
  omega

theorem accepts_atLeast (n count : Int) : (atLeast n).accepts count = true ↔ n ≤ count := by
  have h : (atLeast n).accepts count = (decide (n ≤ count) && true) := rfl
  rw [h, Bool.and_true, decide_eq_true_eq]

end Arity

end Lisplet
