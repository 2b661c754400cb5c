import Mathlib
import Lisplet.Value.Equality

/-!
# Equality of floats

Equality by value is symmetric and transitive, and reflexive but for a NaN. Equivalence adds that an object
is equivalent to itself, and is reflexive throughout.
-/

namespace Lisplet

/-- A float is equal to itself by value unless it is a NaN. -/
theorem float_beq_self_iff {x : Float} : (x == x) = true ↔ x.isNaN = false := by
  rw [Float.beq_self_iff, Float.isNaN_eq_decide_eq_nan, decide_eq_false_iff_not]

theorem floatEquivalent_refl (x : Float) (i : ObjectId) : floatEquivalent x i x i = true := by
  simp [floatEquivalent]

theorem floatEquivalent_symm {x y : Float} {i j : ObjectId} (h : floatEquivalent x i y j = true) :
    floatEquivalent y j x i = true := by
  simp only [floatEquivalent, Bool.or_eq_true, Bool.and_eq_true, beq_iff_eq] at h ⊢
  rcases h with h | ⟨hid, hbits⟩
  · exact Or.inl (BEq.symm h)
  · exact Or.inr ⟨hid.symm, hbits.symm⟩

theorem floatEquivalent_trans {x y z : Float} {i j k : ObjectId}
    (h : floatEquivalent x i y j = true) (h' : floatEquivalent y j z k = true) :
    floatEquivalent x i z k = true := by
  simp only [floatEquivalent, Bool.or_eq_true, Bool.and_eq_true, beq_iff_eq, Float.toBits_inj]
    at h h' ⊢
  rcases h with h | ⟨hid, rfl⟩
  · rcases h' with h' | ⟨-, rfl⟩
    · exact Or.inl (BEq.trans h h')
    · exact Or.inl h
  · rcases h' with h' | ⟨hid', rfl⟩
    · exact Or.inl h'
    · exact Or.inr ⟨hid.trans hid', rfl⟩

/-- Off the NaNs equivalence is equality by value. -/
theorem float_beq_of_floatEquivalent {x y : Float} {i j : ObjectId} (hx : x.isNaN = false)
    (h : floatEquivalent x i y j = true) : (x == y) = true := by
  simp only [floatEquivalent, Bool.or_eq_true, Bool.and_eq_true, beq_iff_eq, Float.toBits_inj] at h
  rcases h with h | ⟨-, rfl⟩
  · exact h
  · exact float_beq_self_iff.mpr hx

end Lisplet
