import Mathlib
import Lisplet.Number.Numeral

/-!
# Floats that numerals denote

No numeral but the two names of NaN denotes a NaN: rounding gives none, and neither does the product or the
quotient of a float and a positive number of finite size, which is how decimals become floats.
-/

namespace Lisplet

open Float.Model Float.Model.UnpackedFloat

/-! ### Operations that give no NaN -/

/-- Rounding gives no NaN. -/
theorem isNaN_roundWithAccuracy (spec : Format) (sign : Sign) (mantissa : ℕ) (exponent : ℤ)
    (accuracy : Accuracy) : (roundWithAccuracy spec sign mantissa exponent accuracy).isNaN = false := by
  unfold roundWithAccuracy
  dsimp only
  split <;> rfl

/-- The bits of a float with a finite magnitude are not those of a NaN. -/
theorem pack_finite_ne_packedNaN (sign : Sign) (mantissa : ℕ) (exponent : ℤ) (hpos : 0 < mantissa) :
    UnpackedFloat.pack Format.binary64 (.finite sign mantissa exponent hpos) ≠
      packedNaN Format.binary64 := by
  intro he
  have hexponent := congrArg unpackExponent he
  have hmantissa := congrArg unpackMantissa he
  rw [UnpackedFloat.pack] at hexponent hmantissa
  dsimp only at hexponent hmantissa
  split at hexponent
  · next hlarge =>
    rw [if_pos hlarge, packedInfinity, packedNaN, unpackMantissa_packComponents,
      unpackMantissa_packComponents] at hmantissa
    exact absurd hmantissa (by decide)
  · next hlarge =>
    have hones : (-1#11).toNat = 2047 := by decide
    split at hexponent
    · rw [packedNaN, unpackExponent_packComponents, unpackExponent_packComponents, ← BitVec.toNat_inj,
        BitVec.toNat_ofNat, hones] at hexponent
      omega
    · rw [packedNaN, unpackExponent_packComponents, unpackExponent_packComponents] at hexponent
      exact absurd hexponent (by decide)

/-- A float that is put together from parts that are no NaN is none. -/
theorem isNaN_pack {f : UnpackedFloat} (h : f.isNaN = false) :
    (Float.ofModel (Float.Model.pack f)).isNaN = false := by
  have hne : UnpackedFloat.pack Format.binary64 f ≠ packedNaN Format.binary64 := by
    cases f with
    | notANumber => simp [UnpackedFloat.isNaN] at h
    | infinity sign => cases sign <;> decide
    | zero sign => cases sign <;> decide
    | finite sign mantissa exponent hpos => exact pack_finite_ne_packedNaN sign mantissa exponent hpos
  have hiff := isNaN_unpack_iff_of_valid (@valid_pack Format.binary64 f)
  rw [Bool.eq_false_iff]
  exact fun hnan => hne (hiff.mp hnan)

/-- Neither zero nor infinite. -/
def isScale : UnpackedFloat → Bool
  | .finite .. => true
  | _ => false

section Operations

variable {f g : UnpackedFloat} (spec : Format)

theorem isNaN_mul (hf : f.isNaN = false) (hg : isScale g = true) : (mul spec f g).isNaN = false := by
  cases g with
  | finite =>
    cases f with
    | notANumber => simp [UnpackedFloat.isNaN] at hf
    | finite => exact isNaN_roundWithAccuracy ..
    | _ => rfl
  | _ => simp [isScale] at hg

theorem isNaN_div (hf : f.isNaN = false) (hg : isScale g = true) : (div spec f g).isNaN = false := by
  cases g with
  | finite =>
    cases f with
    | notANumber => simp [UnpackedFloat.isNaN] at hf
    | finite => exact isNaN_roundWithAccuracy ..
    | _ => rfl
  | _ => simp [isScale] at hg

theorem isNaN_ofNat (n : ℕ) : (UnpackedFloat.ofNat spec n).isNaN = false := by
  unfold UnpackedFloat.ofNat UnpackedFloat.ofInt UnpackedFloat.normalize
  split
  · exact isNaN_roundWithAccuracy ..
  · rfl
  · exact isNaN_roundWithAccuracy ..

theorem isNaN_unpacked_ofScientific (m : ℕ) (e : ℤ) :
    (UnpackedFloat.ofScientific spec m e).isNaN = false := by
  unfold UnpackedFloat.ofScientific
  split
  · rfl
  · split
    · rfl
    · split
      · rfl
      · split
        · exact isNaN_mul spec rfl rfl
        · exact isNaN_div spec rfl rfl

end Operations

/-! ### Decimals -/

theorem isScale_powersOfTen {e : ℕ} (h : e < Float.exactlyRepresentablePowersOfTen.size) :
    isScale (Float.exactlyRepresentablePowersOfTen[e]).toModel.unpack = true := by
  have hall : ∀ p ∈ Float.exactlyRepresentablePowersOfTen, isScale p.toModel.unpack = true := by decide
  exact hall _ (Array.getElem_mem h)

/-- A decimal is no NaN as a float. -/
theorem isNaN_ofScientific (m : ℕ) (negative : Bool) (e : ℕ) :
    (Float.ofScientific m negative e).isNaN = false := by
  unfold Float.ofScientific
  split
  · have hmantissa : m.toUInt64.toFloat.toModel.unpack.isNaN = false := isNaN_pack (isNaN_ofNat _ _)
    dsimp only
    split
    · exact isNaN_pack (isNaN_div _ hmantissa (isScale_powersOfTen _))
    · exact isNaN_pack (isNaN_mul _ hmantissa (isScale_powersOfTen _))
  · exact isNaN_pack (isNaN_unpacked_ofScientific _ _ _)

theorem isNaN_neg {x : Float} (h : x.isNaN = false) : (-x).isNaN = false := by
  refine isNaN_pack ?_
  have hparts : x.toModel.unpack.isNaN = false := h
  generalize x.toModel.unpack = f at hparts
  cases f <;> first | rfl | exact hparts

theorem isNaN_floatOfDecimal (negative : Bool) (mantissa count : ℕ) (exponent : ℤ) :
    (floatOfDecimal negative mantissa count exponent).isNaN = false := by
  have hmagnitude : (if mantissa = 0 ∨ exponent + count < -400 then 0.0
      else if 400 < exponent then 1.0 / 0.0
      else Float.ofScientific mantissa (exponent < 0) exponent.natAbs).isNaN = false := by
    split
    · exact isNaN_ofScientific ..
    · split
      · rfl
      · exact isNaN_ofScientific ..
  unfold floatOfDecimal
  dsimp only
  split
  · exact isNaN_neg hmagnitude
  · exact hmagnitude

/-! ### Numerals -/

namespace Numeral

theorem isNaN_of_special? {t : Text} {x : Float} (h : special? t = some (.float x)) : x.isNaN = false := by
  unfold special? at h
  split at h
  · obtain rfl : _ = x := by simpa using h
    rfl
  · split at h
    · obtain rfl : _ = x := by simpa using h
      rfl
    · split at h
      · simp at h
      · split at h <;> simp at h

/-- A radix mark announces an integer. -/
theorem marked?_ne_float (t : Text) (x : Float) : marked? t ≠ some (.float x) := by
  intro h
  unfold marked? at h
  split at h
  · split at h
    · simp only [Option.bind_eq_some_iff, Option.map_eq_some_iff] at h
      obtain ⟨_, _, _, _, he⟩ := h
      simp at he
    · simp at h
  · simp at h

/-- A numeral of a float denotes no NaN. -/
theorem isNaN_of_parse {t : Text} {x : Float} (h : parse t = .ok (some (.float x))) : x.isNaN = false := by
  unfold parse at h
  dsimp only at h
  split at h
  · split at h <;> simp at h
  · split at h
    · obtain rfl : _ = x := by simpa using h
      exact isNaN_floatOfDecimal ..
    · split at h
      · next hspecial =>
        obtain rfl := Option.some.inj (Except.ok.inj h)
        exact isNaN_of_special? hspecial
      · exact absurd (Except.ok.inj h) (marked?_ne_float t x)

end Numeral

end Lisplet
