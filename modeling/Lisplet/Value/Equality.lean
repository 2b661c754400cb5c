import Lisplet.Number.Binary
import Lisplet.Value.Chain

/-!
# Equality of values

Two values are equivalent when no operation on identity tells them apart: atoms by kind and value,
strings, lists, closures and ports by identity, and all empty lists alike. A float is equivalent to
every float of the same value and, should it be a NaN, to its own object only.

Two values are equal when they have the same shape and the same contents: lists cell by cell, strings
by their code points, everything else by equivalence. Values are compared with a list of pairs that are
still to do, so that nesting costs no stack; `compareSpec` is the same notion by recursion.

Lists have a strict equality of their own, which compares cell by cell what agrees in class and in
value. It descends into nested lists, and how deep a stack lets it go is left aside.
-/

namespace Lisplet

/-- Equality of two floats that may be one object: the same value, or the same object. -/
def floatEquivalent (x : Float) (i : ObjectId) (y : Float) (j : ObjectId) : Bool :=
  x == y || (i == j && x.toBits == y.toBits)

/-- Equivalence of atoms. -/
def Atom.equivalent : Atom → Atom → Bool
  | .int m, .int n => m == n
  | .float x i, .float y j => floatEquivalent x i y j
  | .bool a, .bool b => a == b
  | .sym s, .sym t => decide (s = t)
  | .str i, .str j => i == j
  | .char c, .char d => decide (c = d)
  | .void, .void => true
  | .primitive p, .primitive q => decide (p = q)
  | .form f, .form g => decide (f = g)
  | .closure i, .closure j => i == j
  | .port i, .port j => i == j
  | _, _ => false

/-- Whether two atoms are one object: floats must agree in identity and in every bit. -/
def Atom.same : Atom → Atom → Bool
  | .float x i, .float y j => i == j && x.toBits == y.toBits
  | a, b => a.equivalent b

/-- Compares two strings by content and other atoms by equivalence. -/
def Atom.equal (content : BufferId → Text) : Atom → Atom → Bool
  | .str i, .str j => decide (content i = content j)
  | a, b => a.equivalent b

/-- The classes of atoms. -/
inductive AtomClass where
  | integer
  | float
  | boolean
  | symbol
  | string
  | char
  | void
  | atomicProcedure
  | compoundProcedure
  | port
  deriving DecidableEq

/-- The class of an atom. -/
def Atom.classOf : Atom → AtomClass
  | .int _ => .integer
  | .float _ _ => .float
  | .bool _ => .boolean
  | .sym _ => .symbol
  | .str _ => .string
  | .char _ => .char
  | .void => .void
  | .primitive _ | .form _ => .atomicProcedure
  | .closure _ => .compoundProcedure
  | .port _ => .port

/-- The integer that an atom counts as: booleans count as one and zero. -/
def Atom.integer? : Atom → Option Int
  | .int n => some n
  | .bool b => some (if b then 1 else 0)
  | _ => none

/-- Agreement in value. Numbers of different classes may agree, strings agree in content, and a NaN
agrees with nothing. -/
def Atom.agrees (content : BufferId → Text) (a b : Atom) : Bool :=
  match a, b, a.integer?, b.integer? with
  | .float x _, .float y _, _, _ => x == y
  | .str i, .str j, _, _ => decide (content i = content j)
  | _, _, some m, some n => m == n
  | .float x _, _, _, some n => compareIntFloat? n x == some .eq
  | _, .float y _, some m, _ => compareIntFloat? m y == some .eq
  | a, b, _, _ => a.equivalent b

/-- Strict equality of atoms: agreement in class and in value. -/
def Atom.strictlyEqual (content : BufferId → Text) (a b : Atom) : Bool :=
  decide (a.classOf = b.classOf) && a.agrees content b

namespace Value

mutual

/-- The number of constructors in a value. -/
def weight : Value → Nat
  | .atom _ => 1
  | .nil => 1
  | .list _ head rest _ => 2 + head.weight + weightRow rest

/-- The number of constructors in a row of values. -/
def weightRow : List Value → Nat
  | [] => 1
  | v :: vs => v.weight + weightRow vs

end

/-- The constructors in the left values of some pairs. -/
def pendingWeight : List (Value × Value) → Nat
  | [] => 0
  | p :: pending => p.1.weight + pendingWeight pending

theorem pendingWeight_append (ps qs : List (Value × Value)) :
    pendingWeight (ps ++ qs) = pendingWeight ps + pendingWeight qs := by
  induction ps with
  | nil => simp [pendingWeight]
  | cons p ps ih =>
    simp only [List.cons_append, pendingWeight, ih]
    omega

theorem pendingWeight_reverse (ps : List (Value × Value)) :
    pendingWeight ps.reverse = pendingWeight ps := by
  induction ps with
  | nil => rfl
  | cons p ps ih =>
    simp only [List.reverse_cons, pendingWeight_append, pendingWeight, ih]
    omega

theorem weight_le_pendingWeight {p : Value × Value} {pending : List (Value × Value)}
    (h : p ∈ pending) : p.1.weight ≤ pendingWeight pending := by
  induction h with
  | head => exact Nat.le_add_right _ _
  | tail _ _ ih => exact Nat.le_trans ih (Nat.le_add_left _ _)

/-- Pairing values up with others weighs no more than the values. -/
theorem pendingWeight_zip_le (vs ws : List Value) : pendingWeight (vs.zip ws) + 1 ≤ weightRow vs := by
  induction vs generalizing ws with
  | nil => simp [pendingWeight, weightRow]
  | cons v vs ih =>
    cases ws with
    | nil =>
      have h := ih []
      simp only [List.zip_nil_right, pendingWeight, weightRow] at *
      omega
    | cons w ws =>
      have h := ih ws
      simp only [List.zip_cons_cons, pendingWeight, weightRow] at *
      omega

theorem weightRow_append_le (vs : List Value) (last : Option Atom) :
    weightRow (vs ++ (last.map Value.atom).toList) ≤ weightRow vs + 1 := by
  induction vs with
  | nil => cases last <;> simp [weightRow, weight]
  | cons v vs ih =>
    simp only [List.cons_append, weightRow]
    omega

/-- The cells of a value weigh less than the value. -/
theorem pendingWeight_cells_lt (v w : Value) :
    pendingWeight (v.cells.zip w.cells) < v.weight := by
  cases v with
  | atom a => simp [cells, pendingWeight, weight]
  | nil => simp [cells, pendingWeight, weight]
  | list i head rest last =>
    have h := pendingWeight_zip_le (head :: rest ++ (last.map Value.atom).toList) w.cells
    have h' := weightRow_append_le (head :: rest) last
    simp only [cells, weight, weightRow] at *
    omega

/-- Whether two lists have the same number of cells and end in the same way. -/
def sameShape (v w : Value) : Bool :=
  v.length == w.length && v.isProper == w.isProper

/-- How two values are compared: a test for atoms and one for the identities of lists. -/
structure Comparison where
  /-- The test for atoms. -/
  atoms : Atom → Atom → Bool
  /-- The test for the identities of two lists. -/
  objects : ObjectId → ObjectId → Bool

/-- The test for the identities of two values, of which empty lists have none. -/
def Comparison.identities (c : Comparison) : Value → Value → Bool
  | .list i _ _ _, .list j _ _ _ => c.objects i j
  | _, _ => true

/-- Compares pairs of values, the last one that was added in front. Two lists of the same shape add
their cells, which are compared from the last to the first. -/
def comparePending (c : Comparison) : List (Value × Value) → Bool
  | [] => true
  | (v, w) :: pending =>
    match v, w with
    | .atom a, .atom b => c.atoms a b && comparePending c pending
    | .atom _, _ => false
    | _, .atom _ => false
    | v, w =>
      c.identities v w && sameShape v w &&
        comparePending c ((v.cells.zip w.cells).reverse ++ pending)
termination_by pending => pendingWeight pending
decreasing_by
  · simp only [pendingWeight, weight]
    omega
  · rw [pendingWeight_append, pendingWeight_reverse]
    have h := pendingWeight_cells_lt v w
    simp only [pendingWeight]
    omega

mutual

/-- Compares two values by recursion. -/
def compareSpec (c : Comparison) : Value → Value → Bool
  | .atom a, .atom b => c.atoms a b
  | .nil, .nil => true
  | .list i h r l, .list j h' r' l' =>
    c.objects i j && compareSpec c h h' && compareRow c r r' &&
      match l, l' with
      | none, none => true
      | some a, some b => c.atoms a b
      | _, _ => false
  | _, _ => false

/-- Compares two rows of values one by one. -/
def compareRow (c : Comparison) : List Value → List Value → Bool
  | [], [] => true
  | v :: vs, w :: ws => compareSpec c v w && compareRow c vs ws
  | _, _ => false

end

/-- Agreement in identity and in everything held. -/
def identical : Comparison := ⟨Atom.same, fun i j => i == j⟩

/-- Equality of shape and contents. -/
def alike (content : BufferId → Text) : Comparison := ⟨Atom.equal content, fun _ _ => true⟩

/-- Whether two values are one object. -/
def same (v w : Value) : Bool := comparePending identical [(v, w)]

/-- Equivalence of values. -/
def equivalent (v w : Value) : Bool :=
  match v, w with
  | .atom a, .atom b => a.equivalent b
  | _, _ => same v w

/-- Equality of values. -/
def equal (content : BufferId → Text) (v w : Value) : Bool :=
  comparePending (alike content) [(v, w)]

/-- Strict equality of values: lists of the same shape are compared cell by cell, and no list is of
the class of an atom. -/
def strictlyEqual (content : BufferId → Text) (v w : Value) : Bool :=
  match v, w with
  | .atom a, .atom b => a.strictlyEqual content b
  | .atom _, _ => false
  | _, .atom _ => false
  | v, w =>
    sameShape v w && (v.cells.zip w.cells).attach.all fun p => strictlyEqual content p.1.1 p.1.2
termination_by v.weight
decreasing_by
  exact Nat.lt_of_le_of_lt (weight_le_pendingWeight p.2) (pendingWeight_cells_lt v w)

end Value

end Lisplet
