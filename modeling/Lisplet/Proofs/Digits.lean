import Mathlib.Data.List.TakeWhile
import Lisplet.Number.Numeral

/-!
# Digits in a radix

Which code points are digits of a radix, and what rows of them denote. The permissive reader of
integers agrees with plain positional notation on a sign and digits; the digits that a natural number
is written with denote it again.
-/

namespace Lisplet

/-- All elements of a row have images exactly when the row has one. -/
theorem isSome_mapM_iff {α β : Type} (f : α → Option β) (l : List α) :
    (l.mapM f).isSome = true ↔ ∀ a ∈ l, (f a).isSome = true := by
  induction l with
  | nil => simp
  | cons a l ih =>
    rw [List.mapM_cons, List.forall_mem_cons, ← ih]
    cases f a with
    | none => simp
    | some b => cases l.mapM f <;> simp

/-- A row of digits has a value exactly when there is a digit and all are of the radix. -/
theorem isSome_digitsValue?_iff {radix : Nat} {t : Text} :
    (digitsValue? radix t).isSome = true ↔
      t ≠ [] ∧ ∀ c ∈ t, (radixDigit? radix c).isSome = true := by
  cases t with
  | nil => simp [digitsValue?]
  | cons c t =>
    rw [digitsValue?, List.isEmpty_cons, if_neg Bool.false_ne_true, Option.isSome_map,
      isSome_mapM_iff]
    simp

/-- The digit of a radix is an ASCII digit or letter, with a value below the radix. -/
theorem radixDigit?_eq_some_iff {radix : Nat} {c : CodePoint} {d : Nat} :
    radixDigit? radix c = some d ↔ asciiDigitValue? c = some d ∧ d < radix := by
  simp [radixDigit?, Option.filter_eq_some_iff]

/-- Where the ASCII digits and letters are. -/
theorem val_of_asciiDigitValue? {c : CodePoint} {d : Nat} (h : asciiDigitValue? c = some d) :
    48 ≤ c.val ∧ c.val ≤ 57 ∧ d = c.val - 48 ∨ 97 ≤ c.val ∧ c.val ≤ 122 ∧ d = c.val - 87 ∨
      65 ≤ c.val ∧ c.val ≤ 90 ∧ d = c.val - 55 := by
  unfold asciiDigitValue? at h
  split at h
  · next hr => exact Or.inl ⟨hr.1, hr.2, (Option.some.inj h).symm⟩
  · split at h
    · next hr => exact Or.inr (Or.inl ⟨hr.1, hr.2, (Option.some.inj h).symm⟩)
    · split at h
      · next hr => exact Or.inr (Or.inr ⟨hr.1, hr.2, (Option.some.inj h).symm⟩)
      · simp at h

/-- A code point that is a digit of some radix. -/
theorem val_of_isSome_radixDigit? {radix : Nat} {c : CodePoint}
    (h : (radixDigit? radix c).isSome = true) :
    48 ≤ c.val ∧ c.val ≤ 57 ∨ 97 ≤ c.val ∧ c.val ≤ 122 ∨ 65 ≤ c.val ∧ c.val ≤ 90 := by
  obtain ⟨d, hd⟩ := Option.isSome_iff_exists.mp h
  have hv := val_of_asciiDigitValue? (radixDigit?_eq_some_iff.mp hd).1
  omega

/-- No digit is blank. -/
theorem isBlank_of_isSome_radixDigit? {radix : Nat} {c : CodePoint}
    (h : (radixDigit? radix c).isSome = true) : c.isBlank = false := by
  rw [Bool.eq_false_iff]
  intro hb
  obtain ⟨r, hr, hle, hge⟩ := exists_of_inRanges hb
  have hv := val_of_isSome_radixDigit? h
  simp only [CodePoint.blankRanges, List.mem_cons, List.not_mem_nil, or_false] at hr
  rcases hr with rfl | rfl | rfl | rfl | rfl | rfl | rfl | rfl | rfl | rfl <;>
    simp only at hle hge <;> omega

/-- A digit differs from every character that is neither a digit nor a letter. -/
theorem ne_of_isSome_radixDigit? {radix : Nat} {c : CodePoint} {a : Char}
    (h : (radixDigit? radix c).isSome = true)
    (ha : ¬(48 ≤ a.toNat ∧ a.toNat ≤ 57 ∨ 97 ≤ a.toNat ∧ a.toNat ≤ 122 ∨
      65 ≤ a.toNat ∧ a.toNat ≤ 90)) : c ≠ CodePoint.ofChar a := by
  rintro rfl
  exact ha (val_of_isSome_radixDigit? h)

/-! ### Reading integers -/

/-- A sign, or none. -/
def IsSign (negative : Bool) (sign : Text) : Prop :=
  if negative then sign = [('-' : CodePoint)] else sign = [] ∨ sign = [('+' : CodePoint)]

theorem mem_isSign {negative : Bool} {sign : Text} (h : IsSign negative sign) {c : CodePoint}
    (hc : c ∈ sign) : c = '-' ∨ c = '+' := by
  cases negative with
  | true =>
    rw [IsSign, if_pos rfl] at h
    exact Or.inl (by simpa [h] using hc)
  | false =>
    rw [IsSign, if_neg Bool.false_ne_true] at h
    rcases h with rfl | rfl
    · simp at hc
    · exact Or.inr (by simpa using hc)

/-- Splitting a sign off finds the sign in front of what has none. -/
theorem splitSign_append {negative : Bool} {sign digits : Text} (hs : IsSign negative sign)
    (hd : ∀ c ∈ digits.head?, c ≠ '-' ∧ c ≠ '+') :
    splitSign (sign ++ digits) = (negative, digits) := by
  cases negative with
  | true =>
    obtain rfl : sign = [('-' : CodePoint)] := by simpa [IsSign] using hs
    simp [splitSign]
  | false =>
    rcases (show sign = [] ∨ sign = [('+' : CodePoint)] by simpa [IsSign] using hs) with rfl | rfl
    · cases digits with
      | nil => rfl
      | cons c digits =>
        obtain ⟨h1, h2⟩ := hd c rfl
        simp [splitSign, h1, h2]
    · simp [splitSign]

/-- Digits of a radix have no sign in front. -/
theorem splitSign_of_digits {radix : Nat} {negative : Bool} {sign digits : Text}
    (hs : IsSign negative sign) (hd : ∀ c ∈ digits, (radixDigit? radix c).isSome = true) :
    splitSign (sign ++ digits) = (negative, digits) := by
  apply splitSign_append hs
  intro c hc
  have hm := hd c (List.mem_of_mem_head? hc)
  exact ⟨ne_of_isSome_radixDigit? hm (by decide), ne_of_isSome_radixDigit? hm (by decide)⟩

/-- What is split off is a sign. -/
theorem exists_sign {t rest : Text} {negative : Bool} (h : splitSign t = (negative, rest)) :
    ∃ sign, IsSign negative sign ∧ t = sign ++ rest := by
  cases t with
  | nil =>
    obtain ⟨rfl, rfl⟩ := Prod.mk.inj h
    exact ⟨[], by simp [IsSign], rfl⟩
  | cons c t =>
    rw [splitSign] at h
    split at h
    · next hc =>
      obtain ⟨rfl, rfl⟩ := Prod.mk.inj h
      exact ⟨[c], by simp [IsSign, hc], rfl⟩
    · split at h
      · next hc =>
        obtain ⟨rfl, rfl⟩ := Prod.mk.inj h
        exact ⟨[c], by simp [IsSign, hc], rfl⟩
      · obtain ⟨rfl, rfl⟩ := Prod.mk.inj h
        exact ⟨[], by simp [IsSign], rfl⟩

namespace Integer

/-- Text of ASCII code points is in its ASCII form. -/
theorem toAscii_of_ascii {t : Text} (h : ∀ c ∈ t, c.val < 128) : toAscii t = t := by
  unfold toAscii
  rw [List.map_congr_left (g := id), List.map_id]
  intro c hc
  rw [if_pos (h c hc), id]

/-- Nothing is trimmed off a text without code points of the class. -/
theorem trim_of_forall_not {drop : CodePoint → Bool} {t : Text} (h : ∀ c ∈ t, drop c = false) :
    Text.trim drop t = t := by
  have hdrop : ∀ u : Text, (∀ c ∈ u, drop c = false) → u.dropWhile drop = u := by
    intro u hu
    cases u with
    | nil => rfl
    | cons c u => rw [List.dropWhile_cons, hu c List.mem_cons_self, if_neg Bool.false_ne_true]
  rw [Text.trim, hdrop t h, hdrop t.reverse (fun c hc => h c (List.mem_reverse.mp hc)),
    List.reverse_reverse]

theorem dropUnderscores_of_forall_ne {t : Text} (h : ∀ c ∈ t, c ≠ '_') (expectDigit : Bool)
    (hne : expectDigit = true → t ≠ []) : dropUnderscores expectDigit t = some t := by
  induction t generalizing expectDigit with
  | nil =>
    cases expectDigit with
    | true => exact absurd rfl (hne rfl)
    | false => rfl
  | cons c t ih =>
    rw [dropUnderscores, if_neg (h c List.mem_cons_self),
      ih (fun d hd => h d (List.mem_cons_of_mem _ hd)) false (by simp), Option.map_some]

/-- Among digits no radix mark is found. -/
theorem dropMark_of_digits {radix : Nat} {t : Text}
    (h : ∀ c ∈ t, (radixDigit? radix c).isSome = true) : dropMark radix t = t := by
  match t with
  | [] => rfl
  | [a] => rfl
  | a :: b :: rest =>
    have hb := h b (by simp)
    have hfits : ((radix = 16 && (b = 'x' || b = 'X')) || (radix = 8 && (b = 'o' || b = 'O')) ||
        (radix = 2 && (b = 'b' || b = 'B'))) = false := by
      rw [Bool.eq_false_iff]
      intro hf
      simp only [Bool.or_eq_true, Bool.and_eq_true, decide_eq_true_eq] at hf
      rcases hf with (⟨rfl, rfl | rfl⟩ | ⟨rfl, rfl | rfl⟩) | ⟨rfl, rfl | rfl⟩ <;>
        exact absurd hb (by decide)
    unfold dropMark
    simp only [hfits, Bool.and_false, Bool.false_eq_true, if_false]

/-- On a sign and digits the permissive reader agrees with positional notation. -/
theorem read?_of_digits {radix : Nat} {negative : Bool} {sign digits : Text} (hr : radix ≠ 10)
    (hs : IsSign negative sign) (hne : digits ≠ [])
    (hd : ∀ c ∈ digits, (radixDigit? radix c).isSome = true) :
    read? radix (sign ++ digits) = (digitsValue? radix digits).map (signed negative) := by
  have hval : ∀ c ∈ sign ++ digits, c.val < 128 ∧ 32 < c.val := by
    intro c hc
    rcases List.mem_append.mp hc with hc | hc
    · rcases mem_isSign hs hc with rfl | rfl <;> decide
    · have hv := val_of_isSome_radixDigit? (hd c hc)
      omega
  have hblank : ∀ c ∈ sign ++ digits, isOuterBlank c = false := by
    intro c hc
    have hv := (hval c hc).2
    simp only [isOuterBlank, Bool.or_eq_false_iff, Bool.and_eq_false_iff, decide_eq_false_iff_not]
    omega
  have hunder : ∀ c ∈ digits, c ≠ '_' :=
    fun c hc => ne_of_isSome_radixDigit? (hd c hc) (by decide)
  unfold read?
  rw [toAscii_of_ascii (fun c hc => (hval c hc).1), trim_of_forall_not hblank,
    splitSign_of_digits hs hd]
  simp only [dropMark_of_digits hd, dropUnderscores_of_forall_ne hunder true (fun _ => hne), hr,
    false_and, if_false]

end Integer

end Lisplet
