import Mathlib.Algebra.Order.Field.Power
import Mathlib.Data.Rat.Cast.Order
import Mathlib.Tactic.FieldSimp
import Mathlib.Tactic.Linarith
import Mathlib.Tactic.Ring
import Lisplet.Number.Decimal
import Lisplet.Proofs.Numerals

/-!
# Shortest decimals

Around every finite float lie the numbers that are nearer to it than to any other one, the two ends
included if its mantissa is even. These intervals do not meet, and the shortest decimal of a float lies in
its interval: a grid of seventeen digits is so fine that one of the two neighbours of the float on it does.
So two floats of the same shortest decimal are the same but for their signs.
-/

namespace Lisplet

/-! ### The interval of a float -/

namespace Binary

/-- The value of a finite float without its sign. -/
def value (b : Binary) : ℚ := b.mantissa * 2 ^ b.exponent

theorem value_eq_quarters (b : Binary) : b.value = 4 * b.mantissa * 2 ^ (b.exponent - 2) := by
  have hfour : (2 : ℚ) ^ b.exponent = 4 * 2 ^ (b.exponent - 2) := by
    rw [zpow_sub₀ (by norm_num)]
    norm_num
    ring
  rw [value, hfour]
  ring

/-- The distance to the lower end of the interval, in quarters of the last bit. -/
def quartersBelow (b : Binary) : ℕ := if b.closeBelow then 1 else 2

/-- The lower end of the interval. -/
def low (b : Binary) : ℚ := (4 * b.mantissa - b.quartersBelow) * 2 ^ (b.exponent - 2)

/-- The upper end of the interval. -/
def high (b : Binary) : ℚ := (4 * b.mantissa + 2) * 2 ^ (b.exponent - 2)

/-- A number lies in the interval of a float. -/
def Covers (b : Binary) (x : ℚ) : Prop :=
  if b.mantissa % 2 = 0 then b.low ≤ x ∧ x ≤ b.high else b.low < x ∧ x < b.high

/-- The parts of some float: a mantissa of at most fifty-three bits, and of no less above the least
exponent. The interval is narrow below a power of two that is no least one. -/
structure IsFloat (b : Binary) : Prop where
  mantissa_lt : b.mantissa < 2 ^ 53
  least_le : -1074 ≤ b.exponent
  le_mantissa : -1074 < b.exponent → 2 ^ 52 ≤ b.mantissa
  closeBelow_iff : b.closeBelow = true ↔ b.mantissa = 2 ^ 52 ∧ -1074 < b.exponent

/-- A float is taken apart into the parts of a float. -/
theorem isFloat_ofFloat (x : Float) : (ofFloat x).IsFloat := by
  have hfraction : x.toBits.toNat % 2 ^ 52 < 2 ^ 52 := Nat.mod_lt _ (Nat.two_pow_pos 52)
  unfold ofFloat
  simp only [Nat.pow_eq]
  generalize x.toBits.toNat % 2 ^ 52 = fraction at *
  generalize x.toBits.toNat / 2 ^ 52 % 2 ^ 11 = field
  split
  · refine ⟨?_, le_refl _, fun h => absurd h (lt_irrefl _), ?_⟩
    · exact lt_trans hfraction (Nat.pow_lt_pow_right (by decide) (by decide))
    · simp
  · next hfield =>
    refine ⟨?_, ?_, fun _ => Nat.le_add_left _ _, ?_⟩
    · dsimp only
      omega
    · dsimp only
      omega
    · simp only [Bool.and_eq_true, decide_eq_true_eq]
      omega

variable {b b' : Binary} {x : ℚ}

theorem Covers.le (h : b.Covers x) : b.low ≤ x ∧ x ≤ b.high := by
  unfold Covers at h
  split at h
  · exact h
  · exact ⟨h.1.le, h.2.le⟩

/-- What lies strictly between the ends is in the interval. -/
theorem covers_of_lt (h : b.low < x) (h' : x < b.high) : b.Covers x := by
  unfold Covers
  split
  · exact ⟨h.le, h'.le⟩
  · exact ⟨h, h'⟩

/-- The ends belong to the interval of an even mantissa only. -/
theorem Covers.even_of_eq (h : b.Covers x) (he : x = b.low ∨ x = b.high) : b.mantissa % 2 = 0 := by
  unfold Covers at h
  split at h
  · assumption
  · rcases he with rfl | rfl
    · exact absurd h.1 (lt_irrefl _)
    · exact absurd h.2 (lt_irrefl _)

theorem quartersBelow_cases (b : Binary) :
    b.closeBelow = true ∧ b.quartersBelow = 1 ∨ b.closeBelow = false ∧ b.quartersBelow = 2 := by
  unfold quartersBelow
  cases b.closeBelow <;> simp

/-- The interval of a positive float holds positive numbers only. -/
theorem Covers.pos (h : b.Covers x) (hpos : 0 < b.mantissa) : 0 < x := by
  have hquarters : b.quartersBelow < 4 * b.mantissa := by
    have hcases := b.quartersBelow_cases
    omega
  have hquarters' : (b.quartersBelow : ℚ) < 4 * b.mantissa := by exact_mod_cast hquarters
  have hlow : 0 < b.low := mul_pos (sub_pos.mpr hquarters') (zpow_pos (by norm_num) _)
  exact hlow.trans_le h.le.1

/-- Zero lies in its own interval. -/
theorem covers_zero (h : b.mantissa = 0) : b.Covers 0 := by
  have hunit : (0 : ℚ) < 2 ^ (b.exponent - 2) := zpow_pos (by norm_num) _
  rw [Covers, if_pos (by rw [h]), low, high, h]
  constructor
  · exact mul_nonpos_of_nonpos_of_nonneg (by simp) hunit.le
  · positivity

/-- The interval of a float ends where that of a greater one begins or before, and the ends meet only if
one of the mantissas is odd. -/
theorem high_le_low (h : b.IsFloat) (h' : b'.IsFloat)
    (hlt : b.exponent < b'.exponent ∨ b.exponent = b'.exponent ∧ b.mantissa < b'.mantissa) :
    b.high ≤ b'.low ∧ (b.high = b'.low → ¬(b.mantissa % 2 = 0 ∧ b'.mantissa % 2 = 0)) := by
  -- Both ends are counted in quarters of the last bit of the smaller float.
  obtain ⟨n, hn⟩ : ∃ n : ℕ, b'.exponent = b.exponent + n :=
    ⟨(b'.exponent - b.exponent).toNat, by omega⟩
  have hunit : (0 : ℚ) < 2 ^ (b.exponent - 2) := zpow_pos (by norm_num) _
  have hhigh : b.high = ((4 * b.mantissa + 2 : ℤ) : ℚ) * 2 ^ (b.exponent - 2) := by
    rw [high]
    push_cast
    ring
  have hlow : b'.low = (((4 * b'.mantissa - b'.quartersBelow) * 2 ^ n : ℤ) : ℚ) *
      2 ^ (b.exponent - 2) := by
    rw [low, hn, show b.exponent + n - 2 = (n : ℤ) + (b.exponent - 2) by ring,
      zpow_add₀ (by norm_num), zpow_natCast]
    push_cast
    ring
  rw [hhigh, hlow, mul_le_mul_iff_left₀ hunit, mul_left_inj' hunit.ne', Int.cast_le, Int.cast_inj]
  have hquarters := b'.quartersBelow_cases
  have hclose := h'.closeBelow_iff
  rcases hlt with hexp | ⟨hexp, hmantissa⟩
  · have hpow : (2 : ℤ) ≤ 2 ^ n := by
      obtain ⟨k, rfl⟩ : ∃ k, n = k + 1 := ⟨n - 1, by omega⟩
      have hpos : (0 : ℤ) < 2 ^ k := by positivity
      rw [pow_succ]
      omega
    have hlarge := h'.le_mantissa (by have := h.least_le; omega)
    have hsmall := h.mantissa_lt
    have hdouble : (4 * (b'.mantissa : ℤ) - b'.quartersBelow) * 2 ≤
        (4 * b'.mantissa - b'.quartersBelow) * 2 ^ n :=
      mul_le_mul_of_nonneg_left hpow (by omega)
    rcases hquarters with ⟨hc, hq⟩ | ⟨hc, hq⟩
    · constructor <;> omega
    · have hne : b'.mantissa ≠ 2 ^ 52 := by
        intro he
        rw [hclose.mpr ⟨he, by have := h.least_le; omega⟩] at hc
        simp at hc
      constructor <;> omega
  · obtain rfl : n = 0 := by omega
    simp only [pow_zero, mul_one]
    constructor <;> omega

/-- The intervals of different floats do not meet. -/
theorem eq_of_covers (h : b.IsFloat) (h' : b'.IsFloat) (hx : b.Covers x) (hx' : b'.Covers x) :
    b.mantissa = b'.mantissa ∧ b.exponent = b'.exponent := by
  have hnot : ∀ {b b' : Binary}, b.IsFloat → b'.IsFloat → b.Covers x → b'.Covers x →
      ¬(b.exponent < b'.exponent ∨ b.exponent = b'.exponent ∧ b.mantissa < b'.mantissa) := by
    intro b b' h h' hx hx' hlt
    obtain ⟨hle, hmeet⟩ := high_le_low h h' hlt
    have hhigh : x = b.high := le_antisymm hx.le.2 (hle.trans hx'.le.1)
    have hlow : x = b'.low := le_antisymm (hx.le.2.trans hle) hx'.le.1
    exact hmeet (hhigh.symm.trans hlow) ⟨hx.even_of_eq (Or.inr hhigh), hx'.even_of_eq (Or.inl hlow)⟩
  have hfirst := hnot h h' hx hx'
  have hsecond := hnot h' h hx' hx
  omega

/-- A float with a sign is known from its mantissa, its exponent and its sign. -/
theorem toBits_eq {x y : Float} (hsign : floatIsNegative x = floatIsNegative y)
    (hmantissa : (ofFloat x).mantissa = (ofFloat y).mantissa)
    (hexponent : (ofFloat x).exponent = (ofFloat y).exponent) : x.toBits = y.toBits := by
  have hx := x.toBits.toNat_lt
  have hy := y.toBits.toNat_lt
  unfold ofFloat at hmantissa hexponent
  unfold floatIsNegative at hsign
  simp only [Nat.pow_eq] at hsign hmantissa hexponent
  rw [← UInt64.toNat_inj]
  generalize x.toBits.toNat = m at *
  generalize y.toBits.toNat = n at *
  have hsign' : (m / 2 ^ 63 = 1) ↔ (n / 2 ^ 63 = 1) := by
    rw [← beq_iff_eq, ← beq_iff_eq (b := 1), hsign]
  split at hmantissa <;> split at hmantissa <;> simp only [*, if_true, if_false] at hexponent <;>
    dsimp only at hmantissa hexponent <;> omega

end Binary

/-! ### Grids -/

namespace Decimal

/-- The value of a decimal. -/
def value (d : Decimal) : ℚ := d.digits * 10 ^ d.exponent

/-- Scaling by a power of ten keeps the denominator positive. -/
theorem scaleByTen_spec (num : ℕ) {den : ℕ} (hden : 0 < den) (power : ℤ) :
    0 < (scaleByTen num den power).2 ∧
      ((scaleByTen num den power).1 : ℚ) / (scaleByTen num den power).2 = num / den * 10 ^ power := by
  unfold scaleByTen
  simp only [Nat.pow_eq]
  split
  · next h =>
    obtain ⟨n, rfl⟩ := Int.eq_ofNat_of_zero_le h
    refine ⟨hden, ?_⟩
    simp only [Int.toNat_natCast, zpow_natCast]
    push_cast
    ring
  · next h =>
    obtain ⟨n, rfl⟩ : ∃ n : ℕ, power = -n := ⟨(-power).toNat, by omega⟩
    refine ⟨Nat.mul_pos hden (Nat.pow_pos (by decide)), ?_⟩
    simp only [neg_neg, Int.toNat_natCast, zpow_neg, zpow_natCast]
    push_cast
    field_simp

/-- The denominator of an interval is positive. -/
theorem Neighbourhood.denominator_pos (b : Binary) : 0 < (ofBinary b).denominator := by
  unfold ofBinary
  simp only [Nat.pow_eq]
  split
  · exact Nat.one_pos
  · exact Nat.two_pow_pos _

/-- A quarter of the last bit as a fraction. -/
theorem Neighbourhood.exists_unit (exponent : ℤ) : ∃ scale den : ℕ,
    (if 2 ≤ exponent then (Nat.pow 2 (exponent - 2).toNat, 1) else (1, Nat.pow 2 (2 - exponent).toNat)) =
      (scale, den) ∧ 0 < den ∧ (scale : ℚ) / den = 2 ^ (exponent - 2) := by
  simp only [Nat.pow_eq]
  split
  · next he =>
    obtain ⟨n, hn⟩ := Int.eq_ofNat_of_zero_le (show 0 ≤ exponent - 2 by omega)
    refine ⟨_, _, rfl, Nat.one_pos, ?_⟩
    rw [hn, Int.toNat_natCast, zpow_natCast]
    push_cast
    ring
  · next he =>
    obtain ⟨n, hn⟩ : ∃ n : ℕ, exponent - 2 = -n := ⟨(2 - exponent).toNat, by omega⟩
    refine ⟨_, _, rfl, Nat.two_pow_pos _, ?_⟩
    rw [hn, show 2 - exponent = n by omega, Int.toNat_natCast, zpow_neg, zpow_natCast]
    push_cast
    ring

/-- The numerators of an interval count quarters of the last bit. -/
theorem Neighbourhood.ofBinary_spec {b : Binary} (h : 0 < b.mantissa) :
    ((ofBinary b).value : ℚ) / (ofBinary b).denominator = b.value ∧
      ((ofBinary b).lower : ℚ) / (ofBinary b).denominator = b.low ∧
      ((ofBinary b).upper : ℚ) / (ofBinary b).denominator = b.high := by
  obtain ⟨scale, den, hpair, hden, hunit⟩ := exists_unit b.exponent
  have hquarters : (if b.closeBelow then 1 else 2) = b.quartersBelow := rfl
  have hle : b.quartersBelow ≤ 4 * b.mantissa := by
    have hcases := b.quartersBelow_cases
    omega
  simp only [ofBinary, hpair, hquarters]
  rw [b.value_eq_quarters, Binary.low, Binary.high, ← hunit]
  push_cast [Nat.cast_sub hle]
  exact ⟨by ring, by ring, by ring⟩

/-- A fraction reads back exactly if it lies in the interval of the float. -/
theorem Neighbourhood.contains_iff {b : Binary} (h : 0 < b.mantissa) (num : ℕ) {den : ℕ}
    (hden : 0 < den) : (ofBinary b).contains num den = true ↔ b.Covers (num / den) := by
  obtain ⟨-, hlow, hhigh⟩ := ofBinary_spec h
  have hpos : (0 : ℚ) < (ofBinary b).denominator := Nat.cast_pos.mpr (denominator_pos b)
  have hden' : (0 : ℚ) < den := Nat.cast_pos.mpr hden
  have hclosed : (ofBinary b).closed = true ↔ b.mantissa % 2 = 0 := beq_iff_eq
  rw [Binary.Covers, ← hlow, ← hhigh]
  unfold contains
  split
  · next hc =>
    rw [if_pos (hclosed.mp hc), Bool.and_eq_true, decide_eq_true_eq, decide_eq_true_eq,
      div_le_div_iff₀ hpos hden', div_le_div_iff₀ hden' hpos]
    norm_cast
  · next hc =>
    rw [if_neg (fun he => hc (hclosed.mpr he)), Bool.and_eq_true, decide_eq_true_eq, decide_eq_true_eq,
      div_lt_div_iff₀ hpos hden', div_lt_div_iff₀ hden' hpos]
    norm_cast

/-- A number of a grid reads back exactly if it lies in the interval of the float. -/
theorem Neighbourhood.contains_scaleByTen_iff {b : Binary} (h : 0 < b.mantissa) (n : ℕ) (power : ℤ) :
    (ofBinary b).contains (scaleByTen n 1 power).1 (scaleByTen n 1 power).2 = true ↔
      b.Covers (n * 10 ^ power) := by
  obtain ⟨hpos, hscaled⟩ := scaleByTen_spec n Nat.one_pos power
  rw [contains_iff h _ hpos, hscaled, Nat.cast_one, div_one]

/-- A number that is found on a grid lies in the interval. -/
theorem Neighbourhood.covers_of_onGrid? {b : Binary} (h : 0 < b.mantissa) {power : ℤ} {d : Decimal}
    (hd : (ofBinary b).onGrid? power = some d) : b.Covers d.value := by
  unfold onGrid? at hd
  dsimp only at hd
  split at hd
  · next hfits =>
    rw [← Option.some.inj hd]
    exact (contains_scaleByTen_iff h _ power).mp (Bool.and_eq_true_iff.mp hfits).1
  · split at hd
    · next hfits =>
      rw [← Option.some.inj hd]
      exact (contains_scaleByTen_iff h _ power).mp hfits
    · simp at hd

/-- Half a step of a fine grid is less than the distance to either end of the interval. -/
theorem half_step_lt {b : Binary} (h : b.IsFloat) {step : ℚ} (hstep : step * 10 ^ 16 ≤ b.value) :
    step / 2 < b.value - b.low ∧ step / 2 < b.high - b.value := by
  have hunit : (0 : ℚ) < 2 ^ (b.exponent - 2) := zpow_pos (by norm_num) _
  have habove : 2 * b.mantissa < 2 * 10 ^ 16 :=
    Nat.mul_lt_mul_of_pos_left (h.mantissa_lt.trans (by norm_num)) (by decide)
  have hbelow : 2 * b.mantissa < b.quartersBelow * 10 ^ 16 := by
    rcases b.quartersBelow_cases with ⟨hc, hq⟩ | ⟨-, hq⟩
    · rw [hq, (h.closeBelow_iff.mp hc).1]
      norm_num
    · rw [hq]
      exact habove
  have hbelow' : (2 * b.mantissa : ℚ) < b.quartersBelow * 10 ^ 16 := by exact_mod_cast hbelow
  have habove' : (2 * b.mantissa : ℚ) < 2 * 10 ^ 16 := by exact_mod_cast habove
  rw [b.value_eq_quarters] at hstep
  rw [Binary.low, Binary.high, b.value_eq_quarters]
  constructor <;> nlinarith

/-- On a grid that is fine enough one of the neighbours of a float lies in its interval. -/
theorem Neighbourhood.isSome_onGrid? {b : Binary} (h : b.IsFloat) (hpos : 0 < b.mantissa) {power : ℤ}
    (hfine : (10 : ℚ) ^ power * 10 ^ 16 ≤ b.value) : ((ofBinary b).onGrid? power).isSome = true := by
  obtain ⟨hden, hscaled⟩ := scaleByTen_spec (ofBinary b).value (denominator_pos b) (-power)
  have hstep : (0 : ℚ) < 10 ^ power := zpow_pos (by norm_num) _
  rw [(ofBinary_spec hpos).1, zpow_neg] at hscaled
  -- The float lies between its two neighbours on the grid.
  have hbetween : ∀ num den : ℕ, 0 < den → (num : ℚ) / den = b.value * (10 ^ power)⁻¹ →
      ((num / den : ℕ) : ℚ) * 10 ^ power ≤ b.value ∧
        b.value < ((num / den + 1 : ℕ) : ℚ) * 10 ^ power := by
    intro num den hden hquotient
    have hvalue : b.value = num / den * 10 ^ power := by
      rw [hquotient, inv_mul_cancel_right₀ hstep.ne']
    have hden' : (0 : ℚ) < den := Nat.cast_pos.mpr hden
    rw [hvalue, mul_le_mul_iff_left₀ hstep, mul_lt_mul_iff_left₀ hstep, le_div_iff₀ hden', div_lt_iff₀ hden']
    constructor
    · exact_mod_cast Nat.div_mul_le_self num den
    · exact_mod_cast Nat.lt_mul_of_div_lt (Nat.lt_succ_self _) hden
  obtain ⟨hbelow, habove⟩ := hbetween _ _ hden hscaled
  obtain ⟨hlow, hhigh⟩ := half_step_lt h hfine
  unfold onGrid?
  dsimp only
  generalize (scaleByTen (ofBinary b).value (ofBinary b).denominator (-power)).1 /
    (scaleByTen (ofBinary b).value (ofBinary b).denominator (-power)).2 = below at *
  -- The nearer neighbour is at most half a step away, and half a step is inside the interval.
  have hfits : (ofBinary b).contains (scaleByTen below 1 power).1 (scaleByTen below 1 power).2 = true ∨
      (ofBinary b).contains (scaleByTen (below + 1) 1 power).1 (scaleByTen (below + 1) 1 power).2 = true := by
    have hnext : ((below + 1 : ℕ) : ℚ) * 10 ^ power = below * 10 ^ power + 10 ^ power := by
      push_cast
      ring
    rw [hnext] at habove
    rcases le_total (b.value - below * 10 ^ power) (10 ^ power / 2) with hnear | hnear
    · have hnearest := Binary.covers_of_lt (b := b) (x := below * 10 ^ power) (by linarith) (by linarith)
      exact Or.inl ((contains_scaleByTen_iff hpos below power).mpr hnearest)
    · refine Or.inr ((contains_scaleByTen_iff hpos (below + 1) power).mpr ?_)
      rw [hnext]
      exact Binary.covers_of_lt (by linarith) (by linarith)
  split
  · rfl
  · next hnot =>
    split
    · rfl
    · next hnot' => simp_all

/-! ### The first digit -/

/-- A number with so many digits is no less than the power of ten of its first digit. -/
theorem pow_length_digitsOnto_le (fuel n : ℕ) (rest : Text) (hn : 0 < n) :
    10 ^ (digitsOnto 10 fuel n rest).length ≤ n * 10 ^ (rest.length + 1) := by
  induction fuel generalizing n rest with
  | zero =>
    rw [digitsOnto, pow_succ]
    nlinarith [Nat.pow_pos (n := rest.length) (show 0 < 10 by decide)]
  | succ fuel ih =>
    rw [digitsOnto]
    split
    · rw [List.length_cons]
      exact Nat.le_mul_of_pos_left _ hn
    · have hle := ih (n / 10) (digitCode (n % 10) :: rest) (by omega)
      rw [List.length_cons, pow_succ] at hle
      have hdiv : n / 10 * 10 ≤ n := Nat.div_mul_le_self n 10
      calc 10 ^ (digitsOnto 10 fuel (n / 10) (digitCode (n % 10) :: rest)).length
          ≤ n / 10 * (10 ^ (rest.length + 1) * 10) := hle
        _ = n / 10 * 10 * 10 ^ (rest.length + 1) := by ring
        _ ≤ n * 10 ^ (rest.length + 1) := Nat.mul_le_mul_right _ hdiv

/-- The power that is found makes the fraction at least one, if there is fuel enough. -/
theorem le_mul_pow_powerBelowOne {num den fuel : ℕ} (h : den ≤ num * 10 ^ fuel) (k : ℕ) :
    ∃ j, powerBelowOne num den fuel k = k + j ∧ den ≤ num * 10 ^ j := by
  induction fuel generalizing num k with
  | zero => exact ⟨0, rfl, h⟩
  | succ fuel ih =>
    rw [powerBelowOne]
    split
    · next hle => exact ⟨0, rfl, by simpa using hle⟩
    · have hmore : den ≤ num * 10 * 10 ^ fuel := by rwa [mul_assoc, ← pow_succ']
      obtain ⟨j, hj, hle⟩ := ih hmore (k + 1)
      exact ⟨j + 1, by omega, by rwa [pow_succ', ← mul_assoc]⟩

/-- A positive fraction that is not too small is no less than the power of ten of its first digit. -/
theorem pow_leadingPower_le {num den : ℕ} (hden : 0 < den) (hsmall : den ≤ num * 10 ^ 400) :
    (10 : ℚ) ^ leadingPower num den ≤ num / den := by
  have hden' : (0 : ℚ) < den := Nat.cast_pos.mpr hden
  unfold leadingPower
  split
  · next hle =>
    have hquotient : 0 < num / den := Nat.div_pos hle hden
    have hlength := pow_length_digitsOnto_le ((num / den).log2 + 1) (num / den) [] hquotient
    obtain ⟨n, hn⟩ : ∃ n, (natDigits 10 (num / den)).length = n + 1 := by
      refine ⟨_, (Nat.sub_add_cancel (List.length_pos_iff.mpr ?_)).symm⟩
      exact (Numeral.natDigits_ten _).1
    have hpow : 10 ^ n ≤ num / den := by
      rw [show digitsOnto 10 _ _ _ = natDigits 10 (num / den) from rfl, hn, pow_succ] at hlength
      simpa using hlength
    rw [hn, Nat.cast_add, Nat.cast_one, add_sub_cancel_right, zpow_natCast, le_div_iff₀ hden']
    exact_mod_cast (Nat.mul_le_mul_right den hpow).trans (Nat.div_mul_le_self num den)
  · obtain ⟨j, hj, hle⟩ := le_mul_pow_powerBelowOne hsmall 0
    rw [hj, zero_add, zpow_neg, zpow_natCast, le_div_iff₀ hden', inv_mul_le_iff₀ (by positivity), mul_comm]
    exact_mod_cast hle

/-! ### The shortest decimal -/

/-- If one of the grids has a number that reads back, the search gives a number that does. -/
theorem Neighbourhood.covers_search {b : Binary} (h : 0 < b.mantissa) (lead : ℤ) {fuel count n : ℕ}
    (hn : count ≤ n ∧ n < count + fuel)
    (hsome : ((ofBinary b).onGrid? (lead + 1 - n)).isSome = true) :
    b.Covers ((ofBinary b).search lead fuel count).value := by
  induction fuel generalizing count with
  | zero => omega
  | succ fuel ih =>
    rw [search]
    split
    · next hd => exact covers_of_onGrid? h hd
    · next hnone =>
      have hne : count ≠ n := by
        rintro rfl
        rw [hnone] at hsome
        simp at hsome
      exact ih (by omega)

/-- The shortest decimal of a positive float lies in its interval. -/
theorem covers_shortest {b : Binary} (h : b.IsFloat) (hpos : 0 < b.mantissa) :
    b.Covers (shortest b).value := by
  have hden := Neighbourhood.denominator_pos b
  have hvalue := (Neighbourhood.ofBinary_spec hpos).1
  have hden' : (0 : ℚ) < (Neighbourhood.ofBinary b).denominator := Nat.cast_pos.mpr hden
  have hsmall : (Neighbourhood.ofBinary b).denominator ≤ (Neighbourhood.ofBinary b).value * 10 ^ 400 := by
    -- The least positive float is a power of two that is greater than that power of ten.
    have hleast : (1 : ℚ) ≤ b.value * 10 ^ 400 := by
      have hexp : (2 : ℚ) ^ (-1200 : ℤ) ≤ 2 ^ b.exponent :=
        zpow_le_zpow_right₀ (by norm_num) (by have := h.least_le; omega)
      have hmantissa : (1 : ℚ) ≤ b.mantissa := Nat.one_le_cast.mpr hpos
      have hten : (2 : ℚ) ^ (1200 : ℤ) ≤ 10 ^ 400 := by
        rw [show (1200 : ℤ) = ((3 * 400 : ℕ) : ℤ) by norm_num, zpow_natCast, pow_mul]
        exact pow_le_pow_left₀ (by norm_num) (by norm_num) 400
      have hunit : (0 : ℚ) < 2 ^ (1200 : ℤ) := zpow_pos (by norm_num) _
      rw [zpow_neg] at hexp
      calc (1 : ℚ) = (2 ^ (1200 : ℤ))⁻¹ * 2 ^ (1200 : ℤ) := (inv_mul_cancel₀ hunit.ne').symm
        _ ≤ 2 ^ b.exponent * 10 ^ 400 := mul_le_mul hexp hten hunit.le (zpow_pos (by norm_num) _).le
        _ ≤ b.value * 10 ^ 400 := by
          refine mul_le_mul_of_nonneg_right ?_ (by positivity)
          exact le_mul_of_one_le_left (zpow_pos (by norm_num) _).le hmantissa
    rw [← hvalue, div_mul_eq_mul_div, le_div_iff₀ hden', one_mul] at hleast
    exact_mod_cast hleast
  have hlead := pow_leadingPower_le hden hsmall
  rw [hvalue] at hlead
  unfold shortest
  dsimp only
  refine Neighbourhood.covers_search hpos _ (n := 17) ⟨by decide, by decide⟩ ?_
  refine Neighbourhood.isSome_onGrid? h hpos ?_
  calc (10 : ℚ) ^ (leadingPower (Neighbourhood.ofBinary b).value (Neighbourhood.ofBinary b).denominator +
        1 - (17 : ℕ)) * 10 ^ 16
      = 10 ^ leadingPower (Neighbourhood.ofBinary b).value (Neighbourhood.ofBinary b).denominator := by
        rw [← zpow_natCast (10 : ℚ) 16, ← zpow_add₀ (by norm_num)]
        congr 1
        push_cast
        ring
    _ ≤ b.value := hlead

end Decimal

end Lisplet
