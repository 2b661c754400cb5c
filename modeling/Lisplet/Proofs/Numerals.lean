import Mathlib.Algebra.Group.Nat.Defs
import Lisplet.Proofs.Lexemes

/-!
# What numerals denote

A sign and decimal digits denote an integer unless they are too many; a word with a radix mark denotes
the same integer as a numeral and as a token. The decimal text of an integer denotes that integer.
-/

namespace Lisplet

namespace Numeral

/-- A decimal integer as it is written, with its value and the number of its digits. -/
inductive DecimalWord : Text → Int → Nat → Prop
  | intro {negative : Bool} {sign digits : Text} : IsSign negative sign → digits ≠ [] →
      (∀ c ∈ digits, c.isDecimal = true) →
      DecimalWord (sign ++ digits) (signed negative (decimalValue digits)) digits.length

/-- No sign is a decimal digit. -/
theorem splitSign_of_decimals {negative : Bool} {sign digits : Text} (hs : IsSign negative sign)
    (hd : ∀ c ∈ digits, c.isDecimal = true) : splitSign (sign ++ digits) = (negative, digits) := by
  apply splitSign_append hs
  intro c hc
  have hdecimal := hd c (List.mem_of_mem_head? hc)
  constructor <;> rintro rfl <;> exact absurd hdecimal (by decide)

/-- A decimal integer is read unless it has too many digits. -/
theorem parse_of_decimalWord {w : Text} {n : Int} {count : Nat} (h : DecimalWord w n count) :
    parse w = if maxDecimalDigits < count then .error .mk else .ok (some (.int n)) := by
  obtain ⟨hs, hne, hd⟩ := h
  have hall : ∀ {digits : Text}, digits ≠ [] → (∀ c ∈ digits, c.isDecimal = true) →
      (!digits.isEmpty && digits.all CodePoint.isDecimal) = true := by
    intro digits hne hd
    simpa [hne] using hd
  rw [parse, splitSign_of_decimals hs hd]
  simp only [hall hne hd, if_true]

/-- Only a decimal integer has too many digits. -/
theorem parse_eq_error_iff {w : Text} :
    parse w = .error .mk ↔ ∃ n count, DecimalWord w n count ∧ maxDecimalDigits < count := by
  constructor
  · intro h
    rcases hs : splitSign w with ⟨negative, body⟩
    rw [parse, hs] at h
    by_cases hb : (!body.isEmpty && body.all CodePoint.isDecimal) = true
    · have hb' := hb
      simp only [Bool.and_eq_true, Bool.not_eq_true', List.isEmpty_eq_false_iff, List.all_eq_true]
        at hb'
      obtain ⟨sign, hsign, rfl⟩ := exists_sign hs
      refine ⟨_, _, .intro hsign hb'.1 hb'.2, ?_⟩
      by_contra hle
      simp [hb, hle] at h
    · simp only [hb] at h
      cases hp : parseFloatParts? body with
      | some parts => simp [hp] at h
      | none => cases hx : special? w <;> simp [hp, hx] at h
  · rintro ⟨n, count, hw, hlong⟩
    rw [parse_of_decimalWord hw, if_pos hlong]

/-- A numeral that begins with a hash is an integer with a radix mark. -/
theorem parse_hash (t : Text) : parse ('#' :: t) = .ok (marked? ('#' :: t)) := by
  have hdecimal : CodePoint.isDecimal '#' = false := by decide
  have hspecial : special? ('#' :: t) = none := by
    simp [special?, Text.ofString]
  have hfloat : parseFloatParts? ('#' :: t) = none := by
    simp [parseFloatParts?, hdecimal]
  have hsign : splitSign ('#' :: t) = (false, ('#' : CodePoint) :: t) := by
    simp [splitSign]
  simp [parse, hsign, hdecimal, hfloat, hspecial]

/-- A word with a radix mark is read as the integer that it denotes. -/
theorem parse_of_radixWord {w : Text} {n : Int} (h : Token.RadixWord w n) :
    parse w = .ok (some (.int n)) := by
  obtain ⟨hmark, hsign, hdigits⟩ := h
  obtain ⟨hradix, hten, _⟩ := Token.radixOfLetter?_of_mem hmark
  have hd := isSome_digitsValue?_iff.mp (Option.isSome_of_eq_some hdigits)
  obtain ⟨c, body, he⟩ := List.exists_cons_of_ne_nil (List.append_ne_nil_of_right_ne_nil _ hd.1)
  rw [parse_hash, he, marked?, if_pos rfl, hradix, Option.bind_some, ← he,
    Integer.read?_of_digits hten hsign hd.1 hd.2, hdigits]
  rfl

end Numeral

/-! ### Written integers -/

/-- A digit below ten is the decimal digit of that value. -/
theorem decimalValue?_digitCode {d : Nat} (h : d < 10) : (digitCode d).decimalValue? = some d := by
  have hall : ∀ d < 10, (digitCode d).decimalValue? = some d := by decide
  exact hall d h

theorem valueOfDigits_concat (radix : Nat) (ds : List Nat) (d : Nat) :
    valueOfDigits radix (ds ++ [d]) = valueOfDigits radix ds * radix + d := by
  rw [valueOfDigits, List.foldl_append]
  rfl

/-- With fuel for every binary digit the digits of a number denote it. -/
theorem digitsOnto_spec {radix : Nat} (hr : 2 ≤ radix) {fuel n : Nat} (hpos : 0 < fuel)
    (h : n < 2 ^ fuel) (rest : Text) :
    ∃ ds, digitsOnto radix fuel n rest = ds.map digitCode ++ rest ∧ ds ≠ [] ∧
      (∀ d ∈ ds, d < radix) ∧ valueOfDigits radix ds = n := by
  induction fuel generalizing n rest with
  | zero => omega
  | succ fuel ih =>
    have hdigit : n % radix < radix := Nat.mod_lt _ (by omega)
    rw [digitsOnto]
    by_cases hn : n < radix
    · refine ⟨[n % radix], by simp [hn], List.cons_ne_nil _ _, by simpa using hdigit, ?_⟩
      simp [valueOfDigits, Nat.mod_eq_of_lt hn]
    · have hquotient : n / radix < 2 ^ fuel := by
        rw [Nat.pow_succ] at h
        have hdouble := Nat.mul_le_mul_right (2 ^ fuel) hr
        exact Nat.div_lt_of_lt_mul (by omega)
      have hfuel : 0 < fuel := by
        have hone : 1 ≤ n / radix := (Nat.one_le_div_iff (by omega)).mpr (by omega)
        by_contra hzero
        simp only [Nat.eq_zero_of_not_pos hzero, Nat.pow_zero] at hquotient
        omega
      obtain ⟨ds, hds, _, hlt, hvalue⟩ := ih hfuel hquotient (digitCode (n % radix) :: rest)
      refine ⟨ds ++ [n % radix], ?_, by simp, ?_, ?_⟩
      · simp only [hn, if_false, hds, List.map_append, List.map_singleton, List.append_assoc,
          List.singleton_append]
      · intro d hd
        rcases List.mem_append.mp hd with hd | hd
        · exact hlt d hd
        · rwa [List.mem_singleton.mp hd]
      · rw [valueOfDigits_concat, hvalue, Nat.mul_comm]
        exact Nat.div_add_mod n radix

/-- The digits of a number denote it. -/
theorem natDigits_spec {radix : Nat} (hr : 2 ≤ radix) (n : Nat) :
    ∃ ds, natDigits radix n = ds.map digitCode ∧ ds ≠ [] ∧ (∀ d ∈ ds, d < radix) ∧
      valueOfDigits radix ds = n := by
  obtain ⟨ds, hds, h⟩ := digitsOnto_spec hr (Nat.succ_pos _) (Nat.lt_log2_self (n := n)) []
  exact ⟨ds, hds.trans (List.append_nil _), h⟩

namespace Numeral

/-- Written decimal digits have the values that they are written for. -/
theorem filterMap_map_digitCode {ds : List Nat} (h : ∀ d ∈ ds, d < 10) :
    (ds.map digitCode).filterMap CodePoint.decimalValue? = ds := by
  induction ds with
  | nil => rfl
  | cons d ds ih =>
    obtain ⟨hd, hds⟩ := List.forall_mem_cons.mp h
    rw [List.map_cons, List.filterMap_cons_some (decimalValue?_digitCode hd), ih hds]

/-- The decimal digits of a number are written digits and denote it. -/
theorem natDigits_ten (n : Nat) : natDigits 10 n ≠ [] ∧
    (∀ c ∈ natDigits 10 n, ∃ d < 10, c = digitCode d) ∧ decimalValue (natDigits 10 n) = n := by
  obtain ⟨ds, hds, hne, hlt, hvalue⟩ := natDigits_spec (Nat.le_add_left 2 8) n
  rw [hds]
  refine ⟨by simpa using hne, ?_, ?_⟩
  · intro c hc
    obtain ⟨d, hd, rfl⟩ := List.mem_map.mp hc
    exact ⟨d, hlt d hd, rfl⟩
  · rw [decimalValue, filterMap_map_digitCode hlt, hvalue]

/-- The decimal text of an integer is a decimal integer of that value. -/
theorem decimalWord_integerText (n : Int) :
    DecimalWord (integerText 10 n) n (natDigits 10 n.natAbs).length := by
  obtain ⟨hne, hdigits, hvalue⟩ := natDigits_ten n.natAbs
  have hdecimal : ∀ c ∈ natDigits 10 n.natAbs, c.isDecimal = true := by
    intro c hc
    obtain ⟨d, hd, rfl⟩ := hdigits c hc
    rw [CodePoint.isDecimal, decimalValue?_digitCode hd]
    rfl
  rw [integerText]
  by_cases hn : n < 0
  · have hsign : IsSign true [('-' : CodePoint)] := rfl
    have hword := DecimalWord.intro hsign hne hdecimal
    rw [hvalue, signed, if_pos rfl, show -(n.natAbs : Int) = n by omega] at hword
    rw [if_pos hn]
    exact hword
  · have hsign : IsSign false [] := Or.inl rfl
    have hword := DecimalWord.intro hsign hne hdecimal
    rw [hvalue, signed, if_neg Bool.false_ne_true, show (n.natAbs : Int) = n by omega] at hword
    rw [if_neg hn]
    exact hword

end Numeral

end Lisplet
