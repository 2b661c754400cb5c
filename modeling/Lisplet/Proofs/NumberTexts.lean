import Lisplet.Proofs.Concatenation
import Lisplet.Proofs.Leaks
import Lisplet.Proofs.ShortestDecimals

/-!
# Texts of integers

An integer is written with a minus sign, if it is negative, and the digits of its magnitude in a radix, and four
readers take that text apart again: `string->number`, the grammar of numerals, the scan and the reader of data.
The digits denote the magnitude and do not begin with a zero, unless they are a single one; a radix mark in front
of them makes one token up to the next delimiter; so every reader finds the integer again, and what follows in a
source is read as if nothing had stood before it.
-/

namespace Lisplet

open Token

/-! ### Digits -/

/-- A digit is written as a digit of every radix above it. -/
theorem radixDigit?_digitCode {radix d : Nat} (hradix : radix ≤ 36) (hd : d < radix) :
    radixDigit? radix (digitCode d) = some d := by
  have hall : ∀ d < 36, asciiDigitValue? (digitCode d) = some d := by decide
  exact radixDigit?_eq_some_iff.mpr ⟨hall d (by omega), hd⟩

/-- Written digits denote the number that they are written for. -/
theorem digitsValue?_natDigits {radix : Nat} (htwo : 2 ≤ radix) (hradix : radix ≤ 36) (n : Nat) :
    digitsValue? radix (natDigits radix n) = some n := by
  obtain ⟨ds, hds, hne, hlt, hvalue⟩ := natDigits_spec htwo n
  have hdigits : (ds.map digitCode).mapM (radixDigit? radix) = some ds := by
    clear hds hne hvalue
    induction ds with
    | nil => rfl
    | cons d ds ih =>
      obtain ⟨hd, hmore⟩ := List.forall_mem_cons.mp hlt
      rw [List.map_cons, List.mapM_cons, radixDigit?_digitCode hradix hd, ih hmore]
      rfl
  have hnonempty : (ds.map digitCode).isEmpty = false := by simpa using hne
  rw [hds, digitsValue?, hnonempty, if_neg Bool.false_ne_true, hdigits, Option.map_some, hvalue]

/-- The first digit of a positive number is no zero. -/
theorem head?_digitsOnto {radix : Nat} (htwo : 2 ≤ radix) {fuel n : Nat} (hn : 0 < n) (h : n < 2 ^ fuel)
    (rest : Text) : ∃ d, 0 < d ∧ d < radix ∧ (digitsOnto radix fuel n rest).head? = some (digitCode d) := by
  induction fuel generalizing n rest with
  | zero => omega
  | succ fuel ih =>
    rw [digitsOnto]
    by_cases hsmall : n < radix
    · refine ⟨n, hn, hsmall, ?_⟩
      simp [hsmall, Nat.mod_eq_of_lt hsmall]
    · have hquotient : n / radix < 2 ^ fuel := by
        have hdouble := Nat.mul_le_mul_right (2 ^ fuel) htwo
        rw [Nat.pow_succ] at h
        exact Nat.div_lt_of_lt_mul (by omega)
      simp only [hsmall, if_false]
      exact ih (Nat.div_pos (Nat.le_of_not_lt hsmall) (by omega)) hquotient _

/-- Only zero is written with a leading zero. -/
theorem eq_zero_of_head?_natDigits {radix : Nat} (htwo : 2 ≤ radix) (hradix : radix ≤ 36) {n : Nat}
    (h : (natDigits radix n).head? = some (digitCode 0)) : n = 0 := by
  by_contra hn
  obtain ⟨d, hpos, hd, hhead⟩ := head?_digitsOnto htwo (Nat.pos_of_ne_zero hn) Nat.lt_log2_self []
  have hsame : digitCode d = digitCode 0 := Option.some.inj (hhead.symm.trans h)
  have hvalue := radixDigit?_digitCode hradix hd
  rw [hsame, radixDigit?_digitCode hradix (by omega)] at hvalue
  exact absurd (Option.some.inj hvalue) (by omega)

/-- A number below a power of ten has no more digits than that. -/
theorem length_natDigits_le {n k : Nat} (hk : 0 < k) (h : n < 10 ^ k) : (natDigits 10 n).length ≤ k := by
  by_cases hn : n = 0
  · rw [hn]
    exact hk
  · have hpow := Decimal.pow_length_digitsOnto_le (n.log2 + 1) n [] (Nat.pos_of_ne_zero hn)
    have hless : 10 ^ (natDigits 10 n).length < 10 ^ (k + 1) := by
      rw [Nat.pow_succ]
      exact Nat.lt_of_le_of_lt hpow (Nat.mul_lt_mul_of_pos_right h (by decide))
    exact Nat.le_of_lt_succ ((Nat.pow_lt_pow_iff_right (by decide)).mp hless)

/-- A decimal digit is worth less than four binary ones. -/
theorem log2_le_of_lt {n k : Nat} (h : n < 10 ^ k) : n.log2 ≤ 4 * k := by
  by_cases hn : n = 0
  · rw [hn, Nat.log2_zero]
    exact Nat.zero_le _
  · have hbinary : 10 ^ k ≤ 2 ^ (4 * k) := by
      rw [Nat.pow_mul]
      exact Nat.pow_le_pow_left (by decide) k
    exact Nat.le_of_lt ((Nat.log2_lt hn).mpr (Nat.lt_of_lt_of_le h hbinary))

/-- A number below the bound has a decimal text. -/
theorem fitsDecimal_of_lt {n : Nat} (h : n < 10 ^ maxDecimalDigits) : fitsDecimal n = true := by
  have hlog := log2_le_of_lt h
  have hlength := length_natDigits_le (by decide) h
  simp only [fitsDecimal, hlog, hlength, decide_true, Bool.and_self]

/-! ### The text of an integer -/

/-- The numeral of an integer in a radix: a minus sign if it is negative, and digits of the radix that denote its
magnitude, the first of them no zero unless it is the only one. -/
def IsNumeral (radix : Nat) (n : Int) (t : Text) : Prop :=
  ∃ digits, t = (if n < 0 then [('-' : CodePoint)] else []) ++ digits ∧ digits ≠ [] ∧
    (∀ c ∈ digits, (radixDigit? radix c).isSome = true) ∧ digitsValue? radix digits = some n.natAbs ∧
    (digits.head? = some ('0' : CodePoint) → digits = ['0'])

/-- The radixes that integers are written in. -/
def writtenRadixes : List Nat := [2, 8, 10, 16]

theorem bounds_of_mem_writtenRadixes {radix : Nat} (h : radix ∈ writtenRadixes) : 2 ≤ radix ∧ radix ≤ 36 := by
  simp only [writtenRadixes, List.mem_cons, List.not_mem_nil, or_false] at h
  omega

theorem isNumeral_integerText {radix : Nat} (htwo : 2 ≤ radix) (hradix : radix ≤ 36) (n : Int) :
    IsNumeral radix n (integerText radix n) := by
  have hvalue := digitsValue?_natDigits htwo hradix n.natAbs
  obtain ⟨hne, hdigits⟩ := isSome_digitsValue?_iff.mp (Option.isSome_of_eq_some hvalue)
  refine ⟨natDigits radix n.natAbs, ?_, hne, hdigits, hvalue, fun hhead => ?_⟩
  · rw [integerText]
    split <;> rfl
  · rw [eq_zero_of_head?_natDigits htwo hradix hhead, natDigits, Nat.log2_zero, digitsOnto]
    simp only [Nat.zero_mod, show 0 < radix by omega, if_true]
    rfl

/-- The sign of a numeral and its digits make up the integer. -/
theorem IsNumeral.exists_sign {radix : Nat} {n : Int} {t : Text} (h : IsNumeral radix n t) :
    ∃ negative sign digits, IsSign negative sign ∧ t = sign ++ digits ∧
      digitsValue? radix digits = some n.natAbs ∧ signed negative n.natAbs = n := by
  obtain ⟨digits, rfl, -, -, hvalue, -⟩ := h
  by_cases hn : n < 0
  · refine ⟨true, _, digits, ?_, rfl, hvalue, ?_⟩
    · simp [IsSign, hn]
    · simp only [signed, if_true]
      omega
  · refine ⟨false, _, digits, ?_, rfl, hvalue, ?_⟩
    · simp [IsSign, hn]
    · simp only [signed, Bool.false_eq_true, if_false]
      omega

/-- The permissive reader reads a numeral of another radix than ten. -/
theorem IsNumeral.read? {radix : Nat} {n : Int} {t : Text} (h : IsNumeral radix n t) (hten : radix ≠ 10) :
    Integer.read? radix t = some n := by
  obtain ⟨negative, sign, digits, hsign, rfl, hvalue, hn⟩ := h.exists_sign
  obtain ⟨hne, hdigits⟩ := isSome_digitsValue?_iff.mp (Option.isSome_of_eq_some hvalue)
  rw [Integer.read?_of_digits hten hsign hne hdigits, hvalue, Option.map_some, hn]

/-- With its mark in front a numeral is a word that denotes the integer. -/
theorem IsNumeral.radixWord {letter : CodePoint} {radix : Nat} {n : Int} {t : Text} (h : IsNumeral radix n t)
    (hmark : (letter, radix) ∈ radixMarks) : RadixWord ('#' :: letter :: t) n := by
  obtain ⟨negative, sign, digits, hsign, rfl, hvalue, hn⟩ := h.exists_sign
  have hword := RadixWord.intro hmark hsign hvalue
  rwa [hn] at hword

/-- The decimal text of an integer that is not too long is a numeral. -/
theorem parse_integerText {n : Int} (h : n.natAbs < 10 ^ maxDecimalDigits) :
    Numeral.parse (integerText 10 n) = .ok (some (.int n)) := by
  have hfits := fitsDecimal_of_lt h
  simp only [fitsDecimal, Bool.and_eq_true, decide_eq_true_eq] at hfits
  rw [Numeral.parse_of_decimalWord (Numeral.decimalWord_integerText n), if_neg (Nat.not_lt_of_le hfits.2)]

/-! ### Integers in a source -/

/-- What announces the radix of an integer in a source; decimal integers need no mark. -/
def radixMark (radix : Nat) : Text :=
  match radixMarks.find? fun e => e.2 = radix with
  | some (letter, _) => [('#' : CodePoint), letter]
  | none => []

/-- An integer in a source is one token in front of a delimiter or the end, and denotes itself. -/
theorem exists_integer_token {radix : Nat} (hradix : radix ∈ writtenRadixes) {n : Int}
    (hn : radix = 10 → n.natAbs < 10 ^ maxDecimalDigits) : ∃ token : Token,
      token.lexeme = radixMark radix ++ integerText radix n ∧ DenotesAtom token (.int n) ∧ ¬token.IsTooLong ∧
        ∀ rest, EndsWord rest → Stands token rest := by
  obtain ⟨htwo, hsmall⟩ := bounds_of_mem_writtenRadixes hradix
  have hnumeral := isNumeral_integerText htwo hsmall n
  -- The three marked radixes are alike; decimal integers are symbols that are read as numerals.
  have hmarked : ∀ letter, (letter, radix) ∈ radixMarks → radixMark radix = [('#' : CodePoint), letter] →
      ∃ token : Token, token.lexeme = radixMark radix ++ integerText radix n ∧ DenotesAtom token (.int n) ∧
        ¬token.IsTooLong ∧ ∀ rest, EndsWord rest → Stands token rest := by
    intro letter hmem hmark
    have hword := hnumeral.radixWord hmem
    refine ⟨⟨.radix, _⟩, ?_, .radix hword, ?_, fun rest hrest => .radix hword hrest⟩
    · rw [hmark]
      rfl
    · rintro ⟨hkind, -⟩
      cases hkind
  simp only [writtenRadixes, List.mem_cons, List.not_mem_nil, or_false] at hradix
  rcases hradix with rfl | rfl | rfl | rfl
  · exact hmarked 'b' (by decide) rfl
  · exact hmarked 'o' (by decide) rfl
  · have hparse := parse_integerText (hn rfl)
    refine ⟨⟨.symbol, _⟩, rfl, .numeral hparse, not_isTooLong_of_parse hparse, fun rest hrest => ?_⟩
    refine stands_symbol_of_not_hash (isWord_integerText n) (fun hhash => ?_) hrest
    exact (plain_of_mem_integerText (List.mem_of_mem_head? hhash)).2.1 rfl
  · exact hmarked 'x' (by decide) rfl

/-- A token that is a datum of its own is read as that, and what follows it as if nothing had stood before. -/
theorem readAll_atom {token : Token} {d : Datum} (h : DenotesAtom token d) (hlong : ¬token.IsTooLong)
    {rest : Text} (hstands : Stands token rest) (limit : Nat) : readAll limit (token.lexeme ++ rest) =
      ⟨d :: (readAll limit rest).forms, (readAll limit rest).failure⟩ := by
  have hstep : Reader.start.step limit token = .ok (Reader.start.behind [d]) := by
    rw [Reader.step_atom limit rfl h.kind.1 h.kind.2, Reader.atom?_of_denotesAtom h hlong]
    rfl
  rw [readAll, scan_append_of_stands hstands, Reader.run_cons_ok hstep, Reader.run_behind]
  rfl

/-! ### Writing and reading -/

namespace ConversionOp

/-- The radix that an argument asks for. -/
theorem radix_eq {radix : Nat} (h : radix ∈ writtenRadixes) (who : Text) (s : Store) :
    ConversionOp.radix who [.int radix] s = .ok radix s := by
  simp only [writtenRadixes, List.mem_cons, List.not_mem_nil, or_false] at h
  rcases h with rfl | rfl | rfl | rfl <;> rfl

/-- The text that an integer is written as. -/
theorem writeNumber_int {radix : Nat} {n : Int} (hn : radix = 10 → n.natAbs < 10 ^ maxDecimalDigits) (s : Store) :
    writeNumber radix (.int n) s = .ok (integerText radix n) s := by
  unfold writeNumber
  split
  next hten =>
    have hprint : s.print .display (.int n) 0 = .ok (integerText 10 n) := by
      rw [Store.print, Value.obstacle?, Atom.obstacle?, if_pos (fitsDecimal_of_lt (hn hten))]
      rfl
    rw [Action.print, get_bind, hprint, hten]
    rfl
  next => rfl

/-- An integer is written to a new string. -/
theorem run_numberToString {radix : Nat} (hradix : radix ∈ writtenRadixes) {n : Int}
    (hn : radix = 10 → n.natAbs < 10 ^ maxDecimalDigits) (s : Store) :
    numberToString.run [.int n, .int radix] s =
      .ok (.str s.buffers.size) { s with buffers := s.buffers.push (integerText radix n) } := by
  have hnumber : Action.asNumber (some numberToString.name) (.int n) s = .ok (.int n) s := rfl
  rw [run, bind_of_ok hnumber, bind_of_ok (radix_eq hradix _ s), bind_of_ok (writeNumber_int hn s)]
  rfl

/-- A string that holds the text of an integer is read as that integer. -/
theorem run_stringToNumber {radix : Nat} (hradix : radix ∈ writtenRadixes) {n : Int}
    (hn : radix = 10 → n.natAbs < 10 ^ maxDecimalDigits) {s : Store} {b : BufferId}
    (hb : s.content b = integerText radix n) :
    stringToNumber.run [.str b, .int radix] s = .ok (.int n) s := by
  have htext : Action.asText (some stringToNumber.name) (.str b) s = .ok (integerText radix n) s := by
    rw [← hb]
    rfl
  rw [run, bind_of_ok htext, bind_of_ok (radix_eq hradix _ s), readNumber]
  split
  next hten =>
    rw [hten, parse_integerText (hn hten)]
    rfl
  next hten =>
    obtain ⟨htwo, hsmall⟩ := bounds_of_mem_writtenRadixes hradix
    rw [(isNumeral_integerText htwo hsmall n).read? hten]
    rfl

end ConversionOp

/-- What is read back from the text of an integer in a radix: the text is its numeral, a string that holds the text
is read as the integer, and in a source the text with its mark in front is one form, whatever follows a delimiter
behind it. -/
structure ReadsBack (ev : Evaluator) (scope : ScopeId) (radix : Nat) (n : Int) (t : Text) : Prop where
  numeral : IsNumeral radix n t
  toNumber {s : Store} {b : BufferId} (hb : s.content b = t) :
    (Primitive.conversions .stringToNumber).call ev [.str b, .int radix] scope s = .ok (.value (.int n)) s
  read (limit : Nat) : readAll limit (radixMark radix ++ t) = ⟨[.int n], none⟩
  read_in_front (limit : Nat) {c : CodePoint} (hc : c.isDelimiter = true) (more : Text) :
    readAll limit (radixMark radix ++ t ++ c :: more) =
      ⟨.int n :: (readAll limit (c :: more)).forms, (readAll limit (c :: more)).failure⟩

theorem readsBack_integerText (ev : Evaluator) (scope : ScopeId) {radix : Nat} (hradix : radix ∈ writtenRadixes)
    {n : Int} (hn : radix = 10 → n.natAbs < 10 ^ maxDecimalDigits) :
    ReadsBack ev scope radix n (integerText radix n) := by
  obtain ⟨token, hlexeme, hdenotes, hlong, hstands⟩ := exists_integer_token hradix hn
  obtain ⟨htwo, hsmall⟩ := bounds_of_mem_writtenRadixes hradix
  refine ⟨isNumeral_integerText htwo hsmall n, fun hb => ?_, fun limit => ?_, fun limit c hc more => ?_⟩
  · rw [Primitive.call_of_accepts rfl]
    exact bind_of_ok (ConversionOp.run_stringToNumber hradix hn hb)
  · have hread := readAll_atom hdenotes hlong (hstands [] (by simp [EndsWord])) limit
    rw [List.append_nil, hlexeme] at hread
    rw [hread]
    rfl
  · have hends : EndsWord (c :: more) := by simpa [EndsWord] using hc
    rw [← hlexeme]
    exact readAll_atom hdenotes hlong (hstands _ hends) limit

/-- An integer is written in every radix to a string from which it is read back. -/
theorem number_text_reads_back (ev : Evaluator) (scope : ScopeId) (s : Store) {radix : Nat}
    (hradix : radix ∈ writtenRadixes) {n : Int} (hn : radix = 10 → n.natAbs < 10 ^ maxDecimalDigits) :
    ∃ b s',
      (Primitive.conversions .numberToString).call ev [.int n, .int radix] scope s = .ok (.value (.str b)) s' ∧
      ReadsBack ev scope radix n (s'.content b) := by
  refine ⟨s.buffers.size, { s with buffers := s.buffers.push (integerText radix n) }, ?_, ?_⟩
  · rw [Primitive.call_of_accepts rfl]
    exact bind_of_ok (ConversionOp.run_numberToString hradix hn s)
  · have hcontent : Store.content { s with buffers := s.buffers.push (integerText radix n) } s.buffers.size =
        integerText radix n := by
      rw [Store.content, Array.getElem?_push_size]
      rfl
    rw [hcontent]
    exact readsBack_integerText ev scope hradix hn

/-- A negative integer in hexadecimal. -/
theorem number_text_reads_back_hexadecimal :
    16 ∈ writtenRadixes ∧ (16 = 10 → (-255 : Int).natAbs < 10 ^ maxDecimalDigits) ∧
      ∃ b s', (Primitive.conversions .numberToString).call exampleEvaluator [.int (-255), .int (16 : Nat)] rootScope
        exampleStore = .ok (.value (.str b)) s' ∧ ReadsBack exampleEvaluator rootScope 16 (-255) (s'.content b) := by
  have hradix : 16 ∈ writtenRadixes := by decide
  have hn : 16 = 10 → (-255 : Int).natAbs < 10 ^ maxDecimalDigits := fun h => absurd h (by decide)
  exact ⟨hradix, hn, number_text_reads_back exampleEvaluator rootScope exampleStore hradix hn⟩

/-- Its text with the mark in front. -/
example : radixMark 16 ++ integerText 16 (-255) = text "#x-ff" := by decide

end Lisplet
