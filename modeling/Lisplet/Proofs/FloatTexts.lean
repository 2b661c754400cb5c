import Mathlib
import Lisplet.Proofs.ShortestDecimals
import Lisplet.Proofs.WrittenForm

/-!
# The texts of floats

The text of a finite float is a sign or none and the digits of its shortest decimal, laid out with a point,
an exponent or both. Whatever the layout, the text is a numeral whose parts have the value of that decimal;
so the text tells the float, and two floats of one text are the same float, unless they are NaN.
-/

namespace Lisplet

namespace Numeral

/-! ### Values of digits -/

theorem valueOfDigits_append (radix : ℕ) (ds es : List ℕ) :
    valueOfDigits radix (ds ++ es) = valueOfDigits radix ds * radix ^ es.length + valueOfDigits radix es := by
  induction es using List.reverseRecOn with
  | nil => simp [valueOfDigits]
  | append_singleton es e ih =>
    rw [← List.append_assoc, valueOfDigits_concat, valueOfDigits_concat, ih, List.length_append,
      List.length_singleton, pow_succ]
    ring

/-- Code points that are all decimal digits of ten values. -/
def IsDigits (t : Text) : Prop := ∀ c ∈ t, ∃ d < 10, c = digitCode d

/-- What a decimal digit is and is not. -/
theorem digitCode_spec {d : ℕ} (h : d < 10) : (digitCode d).isDecimal = true ∧
    (digitCode d).isDelimiter = false ∧ digitCode d ∉ text "#@-+i" := by
  have hall : ∀ d < 10, (digitCode d).isDecimal = true ∧ (digitCode d).isDelimiter = false ∧
      digitCode d ∉ text "#@-+i" := by decide
  exact hall d h

theorem IsDigits.isDecimal {t : Text} (h : IsDigits t) : ∀ c ∈ t, c.isDecimal = true := by
  intro c hc
  obtain ⟨d, hd, rfl⟩ := h c hc
  exact (digitCode_spec hd).1

theorem IsDigits.noDelimiter {t : Text} (h : IsDigits t) : ∀ c ∈ t, c.isDelimiter = false := by
  intro c hc
  obtain ⟨d, hd, rfl⟩ := h c hc
  exact (digitCode_spec hd).2.1

theorem IsDigits.append {s t : Text} (hs : IsDigits s) (ht : IsDigits t) : IsDigits (s ++ t) :=
  fun c hc => (List.mem_append.mp hc).elim (hs c) (ht c)

theorem isDigits_zeros (n : ℕ) : IsDigits (List.replicate n (CodePoint.ofChar '0')) := by
  intro c hc
  rw [List.eq_of_mem_replicate hc]
  exact ⟨0, by decide, by decide⟩

/-- One zero. -/
theorem zero_isDigits : text "0" ≠ [] ∧ IsDigits (text "0") := ⟨List.cons_ne_nil _ _, isDigits_zeros 1⟩

theorem isDigits_natText (n : ℕ) : IsDigits (natText n) := (natDigits_ten n).2.1

/-- Digits have one value each. -/
theorem length_filterMap_decimalValue? {t : Text} (h : ∀ c ∈ t, c.isDecimal = true) :
    (t.filterMap CodePoint.decimalValue?).length = t.length := by
  induction t with
  | nil => rfl
  | cons c t ih =>
    obtain ⟨hc, ht⟩ := List.forall_mem_cons.mp h
    obtain ⟨d, hd⟩ := Option.isSome_iff_exists.mp hc
    rw [List.filterMap_cons_some hd, List.length_cons, List.length_cons, ih ht]

theorem decimalValue_append (s : Text) {t : Text} (ht : IsDigits t) :
    decimalValue (s ++ t) = decimalValue s * 10 ^ t.length + decimalValue t := by
  rw [decimalValue, List.filterMap_append, valueOfDigits_append,
    length_filterMap_decimalValue? ht.isDecimal]
  rfl

theorem decimalValue_zeros (n : ℕ) : decimalValue (List.replicate n (CodePoint.ofChar '0')) = 0 := by
  induction n with
  | zero => rfl
  | succ n ih =>
    have hone : IsDigits [CodePoint.ofChar '0'] := isDigits_zeros 1
    rw [List.replicate_succ', decimalValue_append _ hone, ih, zero_mul, zero_add]
    decide

/-- Zeros behind a number multiply it by powers of ten. -/
theorem decimalValue_append_zeros (t : Text) (n : ℕ) :
    decimalValue (t ++ List.replicate n (CodePoint.ofChar '0')) = decimalValue t * 10 ^ n := by
  rw [decimalValue_append t (isDigits_zeros n), decimalValue_zeros, List.length_replicate, add_zero]

/-- Zeros in front of a number do not change it. -/
theorem decimalValue_zeros_append (n : ℕ) {t : Text} (h : IsDigits t) :
    decimalValue (List.replicate n (CodePoint.ofChar '0') ++ t) = decimalValue t := by
  rw [decimalValue_append _ h, decimalValue_zeros, zero_mul, zero_add]

/-! ### Numerals of floats -/

/-- The value of a float numeral without its sign. -/
def FloatParts.magnitude (parts : FloatParts) : ℚ :=
  decimalValue (parts.whole ++ parts.fraction) *
    10 ^ (signed parts.exponent.1 (decimalValue parts.exponent.2) - parts.fraction.length)

/-- A float numeral without sign that begins with a digit, and its value. -/
structure IsFloatBody (t : Text) (x : ℚ) : Prop where
  /-- The numeral has parts of that value. -/
  exists_parts : ∃ parts, parseFloatParts? t = some parts ∧ parts.magnitude = x
  /-- A digit stands in front. -/
  exists_digit : ∃ d < 10, ∃ rest, t = digitCode d :: rest
  /-- The numeral has no delimiter in it. -/
  noDelimiter : ∀ c ∈ t, c.isDelimiter = false
  /-- The numeral has more in it than digits. -/
  exists_mark : ∃ c ∈ t, c.isDecimal = false

/-- Digits end where no digit follows. -/
theorem span_digits {digits more : Text} (h : IsDigits digits) (hmore : ∀ c ∈ more.head?, c.isDecimal = false) :
    (digits ++ more).takeWhile CodePoint.isDecimal = digits ∧
      (digits ++ more).dropWhile CodePoint.isDecimal = more := by
  rw [List.takeWhile_append_of_pos h.isDecimal, List.dropWhile_append_of_pos h.isDecimal]
  cases more with
  | nil => simp
  | cons c more => simp [hmore c rfl]

/-- Digits with a point between them and an exponent or none. -/
theorem parseFloatParts?_pointed {whole fraction tail : Text} {exponent : Bool × Text}
    (hne : whole ≠ []) (hwhole : IsDigits whole) (hfraction : IsDigits fraction)
    (htail : parseExponent? tail = some exponent) (hmark : ∀ c ∈ tail.head?, c.isDecimal = false) :
    parseFloatParts? (whole ++ ('.' : CodePoint) :: (fraction ++ tail)) = some ⟨whole, fraction, exponent⟩ := by
  have hpoint : ∀ c ∈ (('.' : CodePoint) :: (fraction ++ tail)).head?, c.isDecimal = false := by
    rintro c ⟨rfl⟩
    decide
  obtain ⟨htake, hdrop⟩ := span_digits hwhole hpoint
  obtain ⟨htake', hdrop'⟩ := span_digits hfraction hmark
  simp [parseFloatParts?, htake, hdrop, htake', hdrop', hne, htail]

/-- Digits and an exponent. -/
theorem parseFloatParts?_exponent {whole digits : Text} {exponent : Bool × Text} (hne : whole ≠ [])
    (hwhole : IsDigits whole) (htail : parseExponent? (('e' : CodePoint) :: digits) = some exponent) :
    parseFloatParts? (whole ++ ('e' : CodePoint) :: digits) = some ⟨whole, [], exponent⟩ := by
  have hmark : ∀ c ∈ (('e' : CodePoint) :: digits).head?, c.isDecimal = false := by
    rintro c ⟨rfl⟩
    decide
  obtain ⟨htake, hdrop⟩ := span_digits hwhole hmark
  have hpoint : ('e' : CodePoint) ≠ ('.' : CodePoint) := by decide
  simp [parseFloatParts?, htake, hdrop, hne, htail, hpoint]

/-- A numeral has one value. -/
theorem IsFloatBody.eq_of_eq {t : Text} {x y : ℚ} (h : IsFloatBody t x) (h' : IsFloatBody t y) : x = y := by
  obtain ⟨parts, hparts, rfl⟩ := h.exists_parts
  obtain ⟨parts', hparts', rfl⟩ := h'.exists_parts
  rw [hparts] at hparts'
  rw [Option.some.inj hparts']

/-- A numeral with a sign or none is read as a float. -/
theorem IsFloatBody.exists_parse {negative : Bool} {sign body : Text} {x : ℚ} (h : IsFloatBody body x)
    (hsign : IsSign negative sign) :
    splitSign (sign ++ body) = (negative, body) ∧ ∃ y, parse (sign ++ body) = .ok (some (.float y)) := by
  obtain ⟨parts, hparts, -⟩ := h.exists_parts
  obtain ⟨d, hd, rest, rfl⟩ := h.exists_digit
  obtain ⟨c, hc, hmark⟩ := h.exists_mark
  have hsplit : splitSign (sign ++ digitCode d :: rest) = (negative, digitCode d :: rest) := by
    refine splitSign_append hsign ?_
    rintro c ⟨rfl⟩
    have hnot := (digitCode_spec hd).2.2
    constructor <;> intro he <;> rw [he] at hnot <;> exact hnot (by decide)
  refine ⟨hsplit, parts.value negative, ?_⟩
  have hall : (digitCode d :: rest).all CodePoint.isDecimal = false := by
    rw [List.all_eq_false]
    exact ⟨c, hc, by simp [hmark]⟩
  rw [parse, hsplit]
  simp only [hall, Bool.and_false, Bool.false_eq_true, if_false, hparts]

end Numeral

open Numeral Token Float.Model.UnpackedFloat

namespace FloatStyle

/-! ### Layouts -/

/-- Digits with a point are a numeral. -/
theorem isFloatBody_pointed {whole fraction : Text} (hne : whole ≠ []) (hwhole : IsDigits whole)
    (hfraction : IsDigits fraction) :
    IsFloatBody (whole ++ ('.' : CodePoint) :: fraction)
      (decimalValue (whole ++ fraction) * 10 ^ (-(fraction.length : ℤ))) where
  exists_parts := by
    have htail : parseExponent? [] = some (false, []) := rfl
    have hparts := parseFloatParts?_pointed hne hwhole hfraction htail (by simp)
    rw [List.append_nil] at hparts
    refine ⟨_, hparts, ?_⟩
    have hzero : signed false (decimalValue []) = 0 := by decide
    rw [FloatParts.magnitude, hzero, zero_sub]
  exists_digit := by
    obtain ⟨c, rest, rfl⟩ := List.exists_cons_of_ne_nil hne
    obtain ⟨d, hd, rfl⟩ := hwhole c List.mem_cons_self
    exact ⟨d, hd, _, rfl⟩
  noDelimiter := by
    rw [List.forall_mem_append, List.forall_mem_cons]
    exact ⟨hwhole.noDelimiter, by decide, hfraction.noDelimiter⟩
  exists_mark := ⟨'.', by simp, by decide⟩

/-- Digits that are laid out with a point are a numeral of their value. -/
theorem isFloatBody_positional {digits : Text} (hne : digits ≠ []) (h : IsDigits digits) (place : ℤ) :
    IsFloatBody (positional digits place) (decimalValue digits * 10 ^ (place - digits.length)) := by
  unfold positional
  split
  · next hplace =>
    -- All digits behind the point, with zeros between.
    have hbody := isFloatBody_pointed zero_isDigits.1 zero_isDigits.2
      ((isDigits_zeros (-place).toNat).append h)
    have hvalue : decimalValue (text "0" ++
        (List.replicate (-place).toNat (CodePoint.ofChar '0') ++ digits)) = decimalValue digits := by
      have hzero : text "0" = List.replicate 1 (CodePoint.ofChar '0') := rfl
      rw [hzero, decimalValue_zeros_append 1 ((isDigits_zeros _).append h), decimalValue_zeros_append _ h]
    have hlength : -((List.replicate (-place).toNat (CodePoint.ofChar '0') ++ digits).length : ℤ) =
        place - digits.length := by
      rw [List.length_append, List.length_replicate]
      omega
    rw [hvalue, hlength] at hbody
    rw [List.append_assoc]
    exact hbody
  · next hplace =>
    dsimp only
    split
    · next hlong =>
      -- All digits in front of the point, filled up with zeros.
      have hbody := isFloatBody_pointed (List.append_ne_nil_of_left_ne_nil hne _)
        (h.append (isDigits_zeros (place.toNat - digits.length))) zero_isDigits.2
      have hvalue : (decimalValue ((digits ++ List.replicate (place.toNat - digits.length)
          (CodePoint.ofChar '0')) ++ text "0") : ℚ) * 10 ^ (-((text "0").length : ℤ)) =
          decimalValue digits * 10 ^ (place - digits.length) := by
        have hzero : text "0" = List.replicate 1 (CodePoint.ofChar '0') := rfl
        have hexp : place - digits.length = ((place.toNat - digits.length : ℕ) : ℤ) := by omega
        rw [hzero, decimalValue_append_zeros, decimalValue_append_zeros, hexp, zpow_natCast,
          List.length_replicate, pow_one]
        push_cast
        rw [zpow_neg, zpow_one, mul_inv_cancel_right₀ (by norm_num)]
      rw [hvalue] at hbody
      exact hbody
    · next hlong =>
      -- The point stands among the digits.
      have htake : digits.take place.toNat ≠ [] := by
        rw [Ne, List.take_eq_nil_iff, not_or]
        exact ⟨by omega, hne⟩
      have hbody := isFloatBody_pointed htake (fun c hc => h c (List.mem_of_mem_take hc))
        (fun c hc => h c (List.mem_of_mem_drop hc) : IsDigits (digits.drop place.toNat))
      have hexp : -((digits.drop place.toNat).length : ℤ) = place - digits.length := by
        rw [List.length_drop]
        omega
      rw [List.take_append_drop, hexp] at hbody
      rw [List.append_assoc]
      exact hbody

/-- An exponent is a sign or none and digits. -/
theorem parseExponent?_append {negative : Bool} {sign digits : Text} (hsign : IsSign negative sign)
    (hne : digits ≠ []) (h : IsDigits digits) :
    parseExponent? (('e' : CodePoint) :: (sign ++ digits)) = some (negative, digits) := by
  have hsplit := splitSign_of_decimals hsign h.isDecimal
  have hall : digits.all CodePoint.isDecimal = true := List.all_eq_true.mpr h.isDecimal
  simp [parseExponent?, hsplit, hne, hall]

/-- A digit, a point and digits unless there are none, and an exponent are a numeral. -/
theorem isFloatBody_exponent {negative : Bool} {fraction sign digits : Text} {d : ℕ} (hd : d < 10)
    (hfraction : IsDigits fraction) (hsign : IsSign negative sign) (hne : digits ≠ [])
    (h : IsDigits digits) :
    IsFloatBody ((digitCode d :: if fraction.isEmpty then [] else ('.' : CodePoint) :: fraction) ++
        ('e' : CodePoint) :: (sign ++ digits))
      (decimalValue (digitCode d :: fraction) *
        10 ^ (signed negative (decimalValue digits) - fraction.length)) where
  exists_parts := by
    have htail := parseExponent?_append hsign hne h
    have hone : IsDigits [digitCode d] := by simpa [IsDigits] using ⟨d, hd, rfl⟩
    cases fraction with
    | nil => exact ⟨_, parseFloatParts?_exponent (List.cons_ne_nil _ _) hone htail, rfl⟩
    | cons c fraction =>
      have hmark : ∀ c ∈ (('e' : CodePoint) :: (sign ++ digits)).head?, c.isDecimal = false := by
        rintro c ⟨rfl⟩
        decide
      exact ⟨_, parseFloatParts?_pointed (List.cons_ne_nil _ _) hone hfraction htail hmark, rfl⟩
  exists_digit := ⟨d, hd, _, rfl⟩
  noDelimiter := by
    have hpoint : ∀ c ∈ (if fraction.isEmpty then [] else ('.' : CodePoint) :: fraction),
        c.isDelimiter = false := by
      split
      · simp
      · exact List.forall_mem_cons.mpr ⟨by decide, hfraction.noDelimiter⟩
    simp only [List.forall_mem_append, List.forall_mem_cons]
    exact ⟨⟨(digitCode_spec hd).2.1, hpoint⟩, by decide, isDelimiter_of_isSign hsign, h.noDelimiter⟩
  exists_mark := ⟨'e', by simp, by decide⟩

/-- Digits that are laid out with an exponent are a numeral of their value. -/
theorem isFloatBody_scientific (style : FloatStyle) {digits : Text} (hne : digits ≠ []) (h : IsDigits digits)
    (power : ℤ) :
    IsFloatBody (style.scientific digits power)
      (decimalValue digits * 10 ^ (power + 1 - digits.length)) := by
  obtain ⟨c, fraction, rfl⟩ := List.exists_cons_of_ne_nil hne
  obtain ⟨⟨d, hd, rfl⟩, hfraction⟩ := List.forall_mem_cons.mp h
  obtain ⟨negative, sign, hsign, hmark, hpower⟩ : ∃ negative sign, IsSign negative sign ∧
      text (if power < 0 then "e-" else "e+") = ('e' : CodePoint) :: sign ∧
      signed negative power.natAbs = power := by
    by_cases hneg : power < 0
    · refine ⟨true, ['-'], rfl, by rw [if_pos hneg]; rfl, ?_⟩
      rw [signed, if_pos rfl]
      omega
    · refine ⟨false, ['+'], Or.inr rfl, by rw [if_neg hneg]; rfl, ?_⟩
      rw [signed, if_neg Bool.false_ne_true]
      omega
  have hpadded := (isDigits_zeros (style.exponentDigits - (natText power.natAbs).length)).append
    (isDigits_natText power.natAbs)
  have hne : natText power.natAbs ≠ [] := (natDigits_ten _).1
  have hbody := isFloatBody_exponent hd hfraction hsign (List.append_ne_nil_of_right_ne_nil _ hne) hpadded
  have hvalue : decimalValue (natText power.natAbs) = power.natAbs := (natDigits_ten _).2.2
  have hexp : power - fraction.length = power + 1 - (digitCode d :: fraction).length := by
    rw [List.length_cons]
    omega
  rw [decimalValue_zeros_append _ (isDigits_natText _), hvalue, hpower, hexp] at hbody
  have htext : style.scientific (digitCode d :: fraction) power =
      (digitCode d :: if fraction.isEmpty then [] else ('.' : CodePoint) :: fraction) ++
        ('e' : CodePoint) :: (sign ++ (List.replicate
          (style.exponentDigits - (natText power.natAbs).length) (CodePoint.ofChar '0') ++
            natText power.natAbs)) := by
    simp only [scientific, List.drop_one, List.tail_cons, hmark]
    cases fraction <;> simp [Text.ofString]
  rw [htext]
  exact hbody

/-! ### The digits of a shortest decimal -/

/-- A text is what is left of it without its zeros at the end, and these zeros. -/
theorem exists_zeros (t : Text) : ∃ n, t =
    (t.reverse.dropWhile fun c => decide (c = CodePoint.ofChar '0')).reverse ++
      List.replicate n (CodePoint.ofChar '0') := by
  refine ⟨(t.reverse.takeWhile fun c => decide (c = CodePoint.ofChar '0')).length, ?_⟩
  have hzeros : (t.reverse.takeWhile fun c => decide (c = CodePoint.ofChar '0')) =
      List.replicate (t.reverse.takeWhile fun c => decide (c = CodePoint.ofChar '0')).length
        (CodePoint.ofChar '0') := by
    refine List.eq_replicate_of_mem fun c hc => ?_
    have hzero := List.mem_takeWhile_imp hc
    exact of_decide_eq_true hzero
  have hsplit := congrArg List.reverse
    (List.takeWhile_append_dropWhile (p := fun c => decide (c = CodePoint.ofChar '0')) (l := t.reverse))
  rw [List.reverse_append, List.reverse_reverse, hzeros, List.reverse_replicate] at hsplit
  simpa using hsplit.symm

/-- A positive finite float is written as a numeral of its shortest decimal. -/
theorem isFloatBody_magnitude (style : FloatStyle) {b : Binary}
    (hpos : 0 < (Decimal.shortest b).digits) :
    IsFloatBody (style.magnitude b) (Decimal.shortest b).value := by
  unfold magnitude
  dsimp only
  generalize Decimal.shortest b = d at *
  obtain ⟨n, hn⟩ := exists_zeros (natText d.digits)
  have hall : IsDigits (natText d.digits) := isDigits_natText _
  have hvalue : decimalValue (natText d.digits) = d.digits := (natDigits_ten _).2.2
  generalize ((natText d.digits).reverse.dropWhile fun c =>
    decide (c = CodePoint.ofChar '0')).reverse = digits at *
  rw [hn] at hall hvalue ⊢
  rw [decimalValue_append_zeros] at hvalue
  have hdigits : IsDigits digits := fun c hc => hall c (List.mem_append_left _ hc)
  have hne : digits ≠ [] := by
    rintro rfl
    rw [show decimalValue [] = 0 from rfl, zero_mul] at hvalue
    omega
  -- Zeros at the end are dropped from the digits and counted in the exponent.
  have hscaled : d.value = decimalValue digits * 10 ^ (d.exponent + n) := by
    rw [Decimal.value, ← hvalue, zpow_add₀ (by norm_num), zpow_natCast]
    push_cast
    ring
  have hplace : d.exponent + ((digits ++ List.replicate n (CodePoint.ofChar '0')).length : ℤ) - 1 + 1 -
      digits.length = d.exponent + n := by
    rw [List.length_append, List.length_replicate]
    push_cast
    ring
  rw [hscaled, ← hplace]
  split
  · exact isFloatBody_positional hne hdigits _
  · exact isFloatBody_scientific style hne hdigits _

end FloatStyle

/-! ### The texts of floats -/

/-- A finite float is written as a sign or none and a numeral whose value lies in its interval. -/
theorem exists_body_floatText {x : Float} (hnan : x.isNaN = false) (hinf : x.isInf = false) :
    ∃ sign body r, floatText x = sign ++ body ∧ IsSign (floatIsNegative x) sign ∧ IsFloatBody body r ∧
      (Binary.ofFloat x).Covers r := by
  obtain ⟨sign, hsign, htext⟩ : ∃ sign, IsSign (floatIsNegative x) sign ∧
      (if floatIsNegative x then text "-" else []) = sign := by
    cases floatIsNegative x
    · exact ⟨[], Or.inl rfl, rfl⟩
    · exact ⟨['-'], rfl, rfl⟩
  rw [floatText, FloatStyle.render, hnan, hinf]
  simp only [Bool.false_eq_true, if_false, htext]
  have hfloat := Binary.isFloat_ofFloat x
  generalize Binary.ofFloat x = b at *
  split
  · next hzero =>
    refine ⟨sign, _, 0, rfl, hsign, ?_, ?_⟩
    · have hbody := FloatStyle.isFloatBody_pointed zero_isDigits.1 zero_isDigits.2 zero_isDigits.2
      have hvalue : decimalValue (text "0" ++ text "0") = 0 := by decide
      rw [hvalue, Nat.cast_zero, zero_mul] at hbody
      exact hbody
    · exact Binary.covers_zero hzero
  · next hzero =>
    have hcovers := Decimal.covers_shortest hfloat (Nat.pos_of_ne_zero hzero)
    have hvalue := hcovers.pos (Nat.pos_of_ne_zero hzero)
    have hdigits : 0 < (Decimal.shortest b).digits := by
      refine Nat.pos_of_ne_zero fun hnone => ?_
      rw [Decimal.value, hnone, Nat.cast_zero, zero_mul] at hvalue
      exact absurd hvalue (lt_irrefl _)
    exact ⟨sign, _, _, rfl, hsign, FloatStyle.isFloatBody_magnitude _ hdigits, hcovers⟩

/-- An infinite float has the greatest exponent and no fraction. -/
theorem Binary.ofFloat_of_isInf {x : Float} (h : x.isInf = true) :
    (ofFloat x).mantissa = 2 ^ 52 ∧ (ofFloat x).exponent = 972 := by
  have hparts : x.toBits.toNat / 2 ^ 52 % 2 ^ 11 = 2047 ∧ x.toBits.toNat % 2 ^ 52 = 0 := by
    have hinf : (unpack Float.Model.Format.binary64 x.toBits.toBitVec).isInf = true := h
    unfold unpack at hinf
    dsimp only at hinf
    split at hinf
    · next hexponent =>
      split at hinf
      · next hmantissa =>
        rw [unpackExponent_def, ← BitVec.toNat_inj] at hexponent
        rw [unpackMantissa_def, ← BitVec.toNat_inj] at hmantissa
        rw [← Nat.shiftRight_eq_div_pow]
        exact ⟨by simpa using hexponent, by simpa using hmantissa⟩
      · simp [isInf] at hinf
    · split at hinf
      · split at hinf <;> simp [isInf] at hinf
      · simp [isInf] at hinf
  unfold ofFloat
  simp only [Nat.pow_eq, hparts.1, hparts.2]
  decide

/-- The two infinities are written by name. -/
theorem floatText_of_isInf {x : Float} (hnan : x.isNaN = false) (hinf : x.isInf = true) :
    floatText x = if floatIsNegative x then text "-inf.0" else text "+inf.0" := by
  rw [floatText, FloatStyle.render, hnan, hinf]
  rfl

/-- No finite float is written as an infinity. -/
theorem Numeral.IsFloatBody.append_ne_infinity {negative : Bool} {sign body : Text} {r : ℚ}
    (h : IsFloatBody body r) (hsign : IsSign negative sign) (infinite : Bool) :
    sign ++ body ≠ if infinite then text "-inf.0" else text "+inf.0" := by
  intro he
  have hsplit := (h.exists_parse hsign).1
  obtain ⟨d, hd, rest, rfl⟩ := h.exists_digit
  have hbody : digitCode d :: rest = text "inf.0" := by
    rw [he] at hsplit
    cases infinite <;> exact (congrArg Prod.snd hsplit).symm
  have hnot := (digitCode_spec hd).2.2
  rw [(List.cons.inj hbody).1] at hnot
  exact hnot (by decide)

/-- A float that is no NaN is known from its text. -/
theorem floatText_injective {x y : Float} (hx : x.isNaN = false) (hy : y.isNaN = false)
    (h : floatText x = floatText y) : x = y := by
  rw [← Float.toBits_inj]
  cases hinf : x.isInf with
  | true =>
    have hnames := floatText_of_isInf hx hinf
    cases hinf' : y.isInf with
    | true =>
      have hsign : floatIsNegative x = floatIsNegative y := by
        rw [hnames, floatText_of_isInf hy hinf'] at h
        revert h
        cases floatIsNegative x <;> cases floatIsNegative y <;> decide
      obtain ⟨hmantissa, hexponent⟩ := Binary.ofFloat_of_isInf hinf
      obtain ⟨hmantissa', hexponent'⟩ := Binary.ofFloat_of_isInf hinf'
      exact Binary.toBits_eq hsign (hmantissa.trans hmantissa'.symm) (hexponent.trans hexponent'.symm)
    | false =>
      obtain ⟨sign, body, r, htext, hsign, hbody, -⟩ := exists_body_floatText hy hinf'
      rw [hnames, htext] at h
      exact absurd h.symm (hbody.append_ne_infinity hsign _)
  | false =>
    obtain ⟨sign, body, r, htext, hsign, hbody, hcovers⟩ := exists_body_floatText hx hinf
    cases hinf' : y.isInf with
    | true =>
      rw [floatText_of_isInf hy hinf', htext] at h
      exact absurd h (hbody.append_ne_infinity hsign _)
    | false =>
      obtain ⟨sign', body', r', htext', hsign', hbody', hcovers'⟩ := exists_body_floatText hy hinf'
      have hsplit := (hbody.exists_parse hsign).1
      rw [← htext, h, htext', (hbody'.exists_parse hsign').1, Prod.mk.injEq] at hsplit
      obtain ⟨hnegative, rfl⟩ := hsplit
      -- Both floats have the same decimal in their intervals, and intervals of different floats share none.
      obtain rfl := hbody.eq_of_eq hbody'
      obtain ⟨hmantissa, hexponent⟩ :=
        Binary.eq_of_covers (Binary.isFloat_ofFloat x) (Binary.isFloat_ofFloat y) hcovers hcovers'
      exact Binary.toBits_eq hnegative.symm hmantissa hexponent

/-- The text of a float that is no NaN is a word that begins with no hash or at sign and is read as a
float. -/
theorem floatText_spec {x : Float} (h : x.isNaN = false) : IsWord (floatText x) ∧
    (∀ c ∈ (floatText x).head?, c ∉ text "#@") ∧ ∃ y, parse (floatText x) = .ok (some (.float y)) := by
  cases hinf : x.isInf with
  | true =>
    rw [floatText_of_isInf h hinf]
    cases floatIsNegative x with
    | true => exact ⟨⟨by decide, by decide⟩, by decide, _, rfl⟩
    | false => exact ⟨⟨by decide, by decide⟩, by decide, _, rfl⟩
  | false =>
    obtain ⟨sign, body, r, htext, hsign, hbody, -⟩ := exists_body_floatText h hinf
    have hparse := (hbody.exists_parse hsign).2
    obtain ⟨d, hd, rest, rfl⟩ := hbody.exists_digit
    rw [htext]
    refine ⟨⟨List.append_ne_nil_of_right_ne_nil _ (List.cons_ne_nil _ _), ?_⟩, ?_, hparse⟩
    · rw [List.forall_mem_append]
      exact ⟨isDelimiter_of_isSign hsign, hbody.noDelimiter⟩
    · have hdigit : digitCode d ∉ text "#@" := fun hmem =>
        (digitCode_spec hd).2.2 (List.mem_append_left (text "-+i") hmem)
      cases sign with
      | nil =>
        rintro c ⟨rfl⟩
        exact hdigit
      | cons c sign =>
        rintro c ⟨rfl⟩
        rcases mem_isSign hsign List.mem_cons_self with rfl | rfl <;> decide

end Lisplet
