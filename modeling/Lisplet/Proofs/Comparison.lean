import Mathlib.Tactic.Common
import Lisplet.Store

/-!
# Comparing values

Comparing a list of pending pairs is comparing each pair by recursion, so a comparison that keeps no stack
may be reasoned about along the structure of values, as may what holds of every atom in a value.
-/

namespace Lisplet

namespace Value

/-! ### The atoms of a value -/

mutual

/-- Whether every atom of a value has a property. -/
def Everywhere (p : Atom → Prop) : Value → Prop
  | .atom a => p a
  | .nil => True
  | .list _ head rest last => Everywhere p head ∧ EverywhereInRow p rest ∧ ∀ a ∈ last, p a

/-- Whether every atom of the values in a row has a property. -/
def EverywhereInRow (p : Atom → Prop) : List Value → Prop
  | [] => True
  | v :: vs => Everywhere p v ∧ EverywhereInRow p vs

end

mutual

theorem everywhere_of_forall {p : Atom → Prop} (h : ∀ a, p a) : ∀ v : Value, Everywhere p v
  | .atom a => h a
  | .nil => trivial
  | .list _ head rest _ => ⟨everywhere_of_forall h head, everywhereInRow_of_forall h rest, fun a _ => h a⟩

theorem everywhereInRow_of_forall {p : Atom → Prop} (h : ∀ a, p a) : ∀ vs : List Value,
    EverywhereInRow p vs
  | [] => trivial
  | v :: vs => ⟨everywhere_of_forall h v, everywhereInRow_of_forall h vs⟩

end

mutual

theorem Everywhere.imp {p q : Atom → Prop} (h : ∀ a, p a → q a) : ∀ {v : Value}, Everywhere p v →
    Everywhere q v
  | .atom a, hp => h a hp
  | .nil, _ => trivial
  | .list _ _ _ _, ⟨hhead, hrest, hlast⟩ =>
    ⟨hhead.imp h, EverywhereInRow.imp h hrest, fun a ha => h a (hlast a ha)⟩

theorem EverywhereInRow.imp {p q : Atom → Prop} (h : ∀ a, p a → q a) : ∀ {vs : List Value},
    EverywhereInRow p vs → EverywhereInRow q vs
  | [], _ => trivial
  | _ :: _, ⟨hv, hvs⟩ => ⟨hv.imp h, EverywhereInRow.imp h hvs⟩

end

/-! ### Comparing by recursion -/

/-- Two rows of the same length are compared one by one. -/
theorem compareRow_eq_all (c : Comparison) (vs ws : List Value) :
    compareRow c vs ws =
      (vs.length == ws.length && (vs.zip ws).all fun p => compareSpec c p.1 p.2) := by
  induction vs generalizing ws with
  | nil => cases ws <;> rfl
  | cons v vs ih =>
    cases ws with
    | nil => rfl
    | cons w ws =>
      rw [compareRow, ih, List.zip_cons_cons, List.all_cons, List.length_cons, List.length_cons,
        Bool.and_left_comm]
      simp

/-- What is no atom is a list. -/
theorem isList_of_ne_atom {v : Value} (h : ∀ a, v = atom a → False) : v.isList = true := by
  cases v with
  | atom a => exact (h a rfl).elim
  | nil | list => rfl

/-- Two lists are compared by their identities, their shape and their cells. -/
theorem compareSpec_eq_cells (c : Comparison) {v w : Value} (hv : v.isList = true)
    (hw : w.isList = true) :
    compareSpec c v w = (c.identities v w && sameShape v w &&
      (v.cells.zip w.cells).all fun p => compareSpec c p.1 p.2) := by
  cases v with
  | atom a => simp [isList] at hv
  | nil =>
    cases w with
    | atom a => simp [isList] at hw
    | nil => rfl
    | list j h' r' l' => simp [compareSpec, sameShape, length, cells]
  | list i h r l =>
    cases w with
    | atom a => simp [isList] at hw
    | nil => simp [compareSpec, sameShape, length, cells]
    | list j h' r' l' =>
      have hrows := compareRow_eq_all c r r'
      by_cases hlength : r.length = r'.length
      · cases l <;> cases l' <;>
          simp [compareSpec, Comparison.identities, sameShape, length, cells, isProper, hrows,
            List.zip_append, hlength] <;> ac_rfl
      · have hne : (r.length == r'.length) = false := beq_eq_false_iff_ne.mpr hlength
        cases l <;> cases l' <;>
          simp [compareSpec, sameShape, length, cells, isProper, hrows, hne]

/-- Comparing pending pairs is comparing each of them by recursion. -/
theorem comparePending_eq_all (c : Comparison) (pending : List (Value × Value)) :
    comparePending c pending = pending.all fun p => compareSpec c p.1 p.2 := by
  fun_induction comparePending c pending with
  | case1 => rfl
  | case2 pending a b ih => rw [List.all_cons, ih, compareSpec]
  | case3 w pending a hw =>
    cases w with
    | atom b => exact absurd rfl (hw b)
    | _ => rfl
  | case4 v pending b hv =>
    cases v with
    | atom a => exact absurd rfl (hv a)
    | _ => rfl
  | case5 pending v w _ hv hw ih =>
    rw [List.all_cons, ih, List.all_append, List.all_reverse,
      compareSpec_eq_cells c (isList_of_ne_atom hv) (isList_of_ne_atom hw)]
    simp only [Bool.and_assoc]

end Value

end Lisplet
