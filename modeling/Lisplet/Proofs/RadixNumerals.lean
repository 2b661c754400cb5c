import Lisplet.Proofs.NumberTexts
import Lisplet.Proofs.TypedIntegers

/-!
# Integers of a radix, read in three ways

`string->number` with a radix and the grammar of numerals behind a radix mark use the permissive reader, and the scan
asks for a sign and digits. So the first two agree on every text; all three agree on a sign and digits, and on every
text that has only signs and digits in it. In other texts, with blanks, underscores, a mark of their own or digits of
another script, the scan finds no integer, and the permissive reader finds one if it may be typed so.
-/

namespace Lisplet

open Token

/-- A sign or none and digits of a radix, with the integer that they denote. -/
inductive SignedDigits (radix : Nat) : Text → Int → Prop
  | intro {negative : Bool} {sign digits : Text} {n : Nat} : IsSign negative sign →
      digitsValue? radix digits = some n → SignedDigits radix (sign ++ digits) (signed negative n)

/-- A sign or a digit of a radix. -/
def IsSignOrDigit (radix : Nat) (c : CodePoint) : Prop := c = '-' ∨ c = '+' ∨ (radixDigit? radix c).isSome = true

/-- A word with a radix mark is the mark and a sign and digits. -/
theorem Token.radixWord_iff {letter : CodePoint} {radix : Nat} (hmark : (letter, radix) ∈ radixMarks) {t : Text}
    {n : Int} : RadixWord ('#' :: letter :: t) n ↔ SignedDigits radix t n := by
  constructor
  · generalize hw : ('#' : CodePoint) :: letter :: t = w
    rintro ⟨hmark', hsign, hdigits⟩
    obtain ⟨-, htail⟩ := List.cons.inj hw
    obtain ⟨rfl, rfl⟩ := List.cons.inj htail
    have hradix := (radixOfLetter?_of_mem hmark').1
    rw [(radixOfLetter?_of_mem hmark).1] at hradix
    cases hradix
    exact .intro hsign hdigits
  · rintro ⟨hsign, hdigits⟩
    exact .intro hmark hsign hdigits

/-- With its mark a text is one token with a radix mark exactly when it is a sign and digits. -/
theorem Token.scan_radixToken_iff {letter : CodePoint} {radix : Nat} (hmark : (letter, radix) ∈ radixMarks)
    {t : Text} : scan ('#' :: letter :: t) = ⟨[⟨.radix, '#' :: letter :: t⟩], none⟩ ↔ ∃ n, SignedDigits radix t n := by
  constructor
  · intro hscan
    obtain ⟨rest, hspells, -⟩ := exists_spells_scan ('#' :: letter :: t)
    obtain ⟨more, hstands⟩ := hspells.exists_stands ⟨.radix, '#' :: letter :: t⟩ (by rw [hscan]; simp)
    cases hstands with
    | radix hword _ => exact ⟨_, (radixWord_iff hmark).mp hword⟩
  · rintro ⟨n, hdigits⟩
    have hstands : Stands ⟨.radix, '#' :: letter :: t⟩ [] :=
      .radix ((radixWord_iff hmark).mpr hdigits) (by simp [EndsWord])
    have hscan := scan_append_of_stands hstands
    rw [List.append_nil] at hscan
    exact hscan

namespace SignedDigits

variable {radix : Nat} {t : Text} {n : Int}

/-- In a sign and digits there is nothing else. -/
theorem isSignOrDigit (h : SignedDigits radix t n) : ∀ c ∈ t, IsSignOrDigit radix c := by
  obtain ⟨hsign, hvalue⟩ := h
  obtain ⟨-, hdigits⟩ := isSome_digitsValue?_iff.mp (Option.isSome_of_eq_some hvalue)
  refine List.forall_mem_append.mpr ⟨fun c hc => ?_, fun c hc => .inr (.inr (hdigits c hc))⟩
  rcases mem_isSign hsign hc with rfl | rfl
  · exact .inl rfl
  · exact .inr (.inl rfl)

/-- The permissive reader reads a sign and digits. -/
theorem read?_eq (h : SignedDigits radix t n) (hten : radix ≠ 10) : Integer.read? radix t = some n := by
  obtain ⟨hsign, hvalue⟩ := h
  obtain ⟨hne, hdigits⟩ := isSome_digitsValue?_iff.mp (Option.isSome_of_eq_some hvalue)
  rw [Integer.read?_of_digits hten hsign hne hdigits, hvalue, Option.map_some]

end SignedDigits

theorem IsSignOrDigit.val_lt {radix : Nat} {c : CodePoint} (h : IsSignOrDigit radix c) : 32 < c.val ∧ c.val < 128 := by
  rcases h with rfl | rfl | hdigit
  · decide
  · decide
  · have hv := val_of_isSome_radixDigit? hdigit
    omega

theorem IsSignOrDigit.ne_underscore {radix : Nat} {c : CodePoint} (h : IsSignOrDigit radix c) : c ≠ '_' := by
  rcases h with rfl | rfl | hdigit
  · decide
  · decide
  · exact ne_of_isSome_radixDigit? hdigit (by decide)

namespace Integer

/-- A row of digits without underscores is the digits. -/
theorem DigitRow.digitsValue?_eq {radix : Nat} {t : Text} {ds : List Nat} (h : DigitRow radix t ds)
    (hplain : ∀ c ∈ t, c ≠ '_') : digitsValue? radix t = some (valueOfDigits radix ds) := by
  obtain ⟨digits, hdrop, hvalue⟩ := exists_digitsValue?_iff.mpr ⟨ds, h, rfl⟩
  have hne : t ≠ [] := by
    rintro rfl
    cases h
  rw [dropUnderscores_of_forall_ne hplain true fun _ => hne] at hdrop
  rwa [Option.some.inj hdrop]

/-- No letter that announces a radix is a sign or a digit of it. -/
theorem not_isSignOrDigit_of_mem_markLetters {radix : Nat} {c : CodePoint} (h : (radix, c) ∈ markLetters) :
    ¬IsSignOrDigit radix c := by
  have hsigns : ∀ e ∈ markLetters, e.2 ≠ '-' ∧ e.2 ≠ '+' := by decide
  rintro (rfl | rfl | hdigit)
  · exact (hsigns _ h).1 rfl
  · exact (hsigns _ h).2 rfl
  · rw [(radixDigit?_of_mem_markLetters h).1] at hdigit
    cases hdigit

/-- Among signs and digits there are no blanks. -/
theorem eq_nil_of_blanks {radix : Nat} {blanks : Text} (hblank : ∀ c ∈ blanks, isOuterBlank c = true)
    (hplain : ∀ c ∈ blanks, IsSignOrDigit radix c) : blanks = [] := by
  refine List.eq_nil_iff_forall_not_mem.mpr fun c hc => ?_
  have hno := isOuterBlank_eq_false (hplain c hc).val_lt.1
  rw [hblank c hc] at hno
  cases hno

/-- Nothing but a sign and digits may be typed with signs and digits alone. -/
theorem IsTyped.signedDigits {radix : Nat} {t : Text} {n : Int} (h : IsTyped radix t n)
    (hplain : ∀ c ∈ t, IsSignOrDigit radix c) : SignedDigits radix t n := by
  obtain ⟨hbefore, hsign, hmark, hrow, hafter⟩ := h
  simp only [List.forall_mem_append] at hplain
  obtain ⟨⟨hplainBefore, -, hplainMark, hplainDigits⟩, hplainAfter⟩ := hplain
  have hdigits := hrow.digitsValue?_eq fun c hc => (hplainDigits c hc).ne_underscore
  rw [eq_nil_of_blanks hbefore hplainBefore, eq_nil_of_blanks hafter hplainAfter, List.append_nil, List.nil_append]
  cases hmark with
  | none => exact .intro hsign hdigits
  | letter hc | underscore hc => exact absurd (hplainMark _ (by simp)) (not_isSignOrDigit_of_mem_markLetters hc)

end Integer

/-- A sign and digits are what the permissive reader reads where nothing but signs and digits stands. -/
theorem signedDigits_iff {radix : Nat} (hten : radix ≠ 10) {t : Text} {n : Int} :
    SignedDigits radix t n ↔ Integer.read? radix t = some n ∧ ∀ c ∈ t, IsSignOrDigit radix c := by
  constructor
  · exact fun h => ⟨h.read?_eq hten, h.isSignOrDigit⟩
  · rintro ⟨hread, hplain⟩
    have htyped := (Integer.read?_eq_some_iff hten).mp hread
    rw [Integer.toAscii_of_ascii fun c hc => (hplain c hc).val_lt.2] at htyped
    exact htyped.signedDigits hplain

/-! ### The three ways -/

/-- An integer that was read, or false. -/
def Value.integerOrFalse : Option Int → Value
  | some n => .int n
  | none => .bool false

/-- The grammar of numerals reads what stands behind a radix mark permissively. -/
theorem Numeral.parse_mark {letter : CodePoint} {radix : Nat} (hmark : (letter, radix) ∈ radixMarks) (t : Text) :
    parse ('#' :: letter :: t) = .ok ((Integer.read? radix t).map .int) := by
  have hradix := (radixOfLetter?_of_mem hmark).1
  rw [parse_hash]
  cases t with
  | nil => rfl
  | cons c body => rw [marked?, if_pos rfl, hradix, Option.bind_some]

/-- With a radix other than ten `string->number` reads permissively. -/
theorem ConversionOp.run_stringToNumber_permissive {radix : Nat} (hradix : radix ∈ writtenRadixes) (hten : radix ≠ 10)
    (s : Store) (b : BufferId) : stringToNumber.run [.str b, .int radix] s =
      .ok (.integerOrFalse (Integer.read? radix (s.content b))) s := by
  have htext : Action.asText (some stringToNumber.name) (.str b) s = .ok (s.content b) s := rfl
  rw [run, bind_of_ok htext, bind_of_ok (radix_eq hradix _ s), readNumber, if_neg hten]
  cases Integer.read? radix (s.content b) <;> rfl

/-- What three readers make of a text in a radix: `string->number`, the grammar of numerals with the mark in front of
the text, and the scan, again with the mark. -/
structure ReadersOfRadix (ev : Evaluator) (scope : ScopeId) (letter : CodePoint) (radix : Nat) (t : Text) : Prop where
  /-- `string->number` gives what the permissive reader finds, or false. -/
  toNumber {s : Store} {b : BufferId} (hb : s.content b = t) :
    (Primitive.conversions .stringToNumber).call ev [.str b, .int radix] scope s =
      .ok (.value (.integerOrFalse (Integer.read? radix t))) s
  /-- So does the grammar of numerals, on every text. -/
  parse : Numeral.parse ('#' :: letter :: t) = .ok ((Integer.read? radix t).map .int)
  typed {n : Int} : Integer.read? radix t = some n ↔ Integer.IsTyped radix (Integer.toAscii t) n
  /-- The scan asks for a sign and digits. -/
  token : scan ('#' :: letter :: t) = ⟨[⟨.radix, '#' :: letter :: t⟩], none⟩ ↔ ∃ n, SignedDigits radix t n
  /-- These denote the same integer in every way. -/
  agree {n : Int} (h : SignedDigits radix t n) : Integer.read? radix t = some n ∧
    ∀ limit, readAll limit ('#' :: letter :: t) = ⟨[.int n], none⟩
  /-- The ways part exactly where an integer is typed with something else than signs and digits. -/
  apart : (∃ n, SignedDigits radix t n) ↔
    (Integer.read? radix t).isSome = true ∧ ∀ c ∈ t, IsSignOrDigit radix c

/-- The three readers of a radix agree on a sign and digits, and the two permissive ones on all texts. -/
theorem radix_readers_agree (ev : Evaluator) (scope : ScopeId) {letter : CodePoint} {radix : Nat}
    (hmark : (letter, radix) ∈ radixMarks) (t : Text) : ReadersOfRadix ev scope letter radix t := by
  obtain ⟨-, hten, -⟩ := radixOfLetter?_of_mem hmark
  have hradix : radix ∈ writtenRadixes := by
    have hall : ∀ e ∈ radixMarks, e.2 ∈ writtenRadixes := by decide
    exact hall _ hmark
  refine ⟨fun {s b} hb => ?_, Numeral.parse_mark hmark t, Integer.read?_eq_some_iff hten, scan_radixToken_iff hmark,
    fun {n} h => ⟨h.read?_eq hten, fun limit => ?_⟩, ?_⟩
  · rw [Primitive.call_of_accepts rfl, ← hb]
    exact bind_of_ok (ConversionOp.run_stringToNumber_permissive hradix hten s b)
  · have hword := (radixWord_iff hmark).mpr h
    have hlong : ¬Token.IsTooLong ⟨.radix, '#' :: letter :: t⟩ := fun hlong => by cases hlong.1
    have hread := readAll_atom (.radix hword) hlong (.radix hword (by simp [EndsWord] : EndsWord [])) limit
    rw [List.append_nil] at hread
    rw [hread]
    rfl
  · rw [Option.isSome_iff_exists, ← exists_and_right]
    exact exists_congr fun n => signedDigits_iff hten

/-- A negative integer in hexadecimal, with letters of both cases. -/
theorem radix_readers_agree_hexadecimal : (('x' : CodePoint), 16) ∈ radixMarks ∧
    ReadersOfRadix exampleEvaluator rootScope 'x' 16 "-1Fa" := by
  have hmark : (('x' : CodePoint), 16) ∈ radixMarks := by decide
  exact ⟨hmark, radix_readers_agree exampleEvaluator rootScope hmark "-1Fa"⟩

/-- A string with an underscore between two binary digits. -/
def underscoreStore : Store := { exampleStore with buffers := #["1_0"] }

/-- The readers do not agree on all texts about what is an integer. -/
theorem not_radix_readers_agree : ¬∀ letter radix t, (letter, radix) ∈ radixMarks → ∀ ev scope s b,
    s.content b = t → ((∃ n, (Primitive.conversions .stringToNumber).call ev [.str b, .int radix] scope s =
      .ok (.value (.int n)) s) ↔ scan ('#' :: letter :: t) = ⟨[⟨.radix, '#' :: letter :: t⟩], none⟩) := by
  intro h
  have hmark : (('b' : CodePoint), 2) ∈ radixMarks := by decide
  have hnumber : (Primitive.conversions .stringToNumber).call exampleEvaluator [.str 0, .int (2 : Nat)] rootScope
      underscoreStore = .ok (.value (.int 2)) underscoreStore := by
    have hread : Integer.read? 2 (text "1_0") = some 2 := by decide
    rw [Primitive.call_of_accepts rfl]
    refine bind_of_ok ((ConversionOp.run_stringToNumber_permissive (by decide) (by decide) underscoreStore 0).trans ?_)
    rw [show underscoreStore.content 0 = text "1_0" from rfl, hread]
    rfl
  obtain ⟨n, hdigits⟩ := (scan_radixToken_iff hmark).mp
    ((h 'b' 2 (text "1_0") hmark exampleEvaluator rootScope underscoreStore 0 rfl).mp ⟨2, hnumber⟩)
  rcases hdigits.isSignOrDigit '_' (by decide) with hminus | hplus | hdigit
  · exact absurd hminus (by decide)
  · exact absurd hplus (by decide)
  · exact absurd hdigit (by decide)

end Lisplet
