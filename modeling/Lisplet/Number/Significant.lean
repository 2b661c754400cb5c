/-!
# Rounding to significant bits

Sizes that are estimated with floats are estimated here in exact arithmetic: a quotient of natural numbers
that is at least one is rounded to the nearest one with 53 significant bits, a tie going to the even one.
Quotients are pairs of a numerator and a positive denominator.
-/

namespace Lisplet

/-- The natural number nearest to a quotient; a tie goes to the even one. -/
def nearest (num den : Nat) : Nat :=
  let whole := num / den
  let rest := num % den
  if 2 * rest < den then whole
  else if den < 2 * rest then whole + 1
  else whole + whole % 2

/-- The nearest natural number is at most half a unit away. -/
theorem nearest_le_and_le (num : Nat) {den : Nat} (h : 0 < den) :
    2 * (den * nearest num den) ≤ 2 * num + den ∧ 2 * num ≤ 2 * (den * nearest num den) + den := by
  have whole := Nat.div_add_mod num den
  have rest := Nat.mod_lt num h
  have even : num / den % 2 < 2 := Nat.mod_lt _ (by decide)
  unfold nearest
  dsimp only
  split
  · omega
  · split
    · rw [Nat.mul_add]
      omega
    · rw [Nat.mul_add]
      rcases Nat.lt_succ_iff_lt_or_eq.mp even with h0 | h1
      · rw [Nat.lt_one_iff.mp h0]
        omega
      · rw [h1]
        omega

/-- The quotient with 53 significant bits that is nearest to another one. -/
def significant (num den : Nat) : Nat × Nat :=
  let size := (num / den).log2
  if size ≤ 52 then
    let scale := Nat.pow 2 (52 - size)
    (nearest (num * scale) den, scale)
  else
    let scale := Nat.pow 2 (size - 52)
    (nearest num (den * scale) * scale, 1)

/-- The whole part of the product of a quotient and a number when both and their product are rounded to 53
significant bits. -/
def estimatedProduct (num den count : Nat) : Nat :=
  let (a, b) := significant num den
  let (c, d) := significant count 1
  let (product, scale) := significant (a * c) (b * d)
  product / scale

example : nearest 5 2 = 2 ∧ nearest 7 2 = 4 ∧ nearest 8 3 = 3 := by decide

example : estimatedProduct 4 3 9000 = 12000 := by decide +kernel

example : estimatedProduct 1 1 (Nat.pow 2 63 - 1) = Nat.pow 2 63 := by decide +kernel

end Lisplet
