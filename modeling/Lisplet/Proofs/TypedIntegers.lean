import Lisplet.Proofs.Digits

/-!
# Integers as they may be typed

What the permissive reader of integers takes, as a grammar of the text in its ASCII form: blanks around, a sign, a
mark that fits the radix, and digits with single underscores between them. The reader finds an integer exactly in
the texts of this grammar. Those of them that have nothing but signs and digits in them are a sign and digits.
-/

namespace Lisplet

namespace Integer

/-- Digits of a radix with their values. A single underscore may stand between two of them. -/
inductive DigitRow (radix : Nat) : Text → List Nat → Prop
  | last {c : CodePoint} {d : Nat} : radixDigit? radix c = some d → DigitRow radix [c] [d]
  | next {c : CodePoint} {d : Nat} {t : Text} {ds : List Nat} : radixDigit? radix c = some d →
      DigitRow radix t ds → DigitRow radix (c :: t) (d :: ds)
  | underscore {c : CodePoint} {d : Nat} {t : Text} {ds : List Nat} : radixDigit? radix c = some d →
      DigitRow radix t ds → DigitRow radix (c :: '_' :: t) (d :: ds)

/-- The letters that may follow a zero to announce a radix. -/
def markLetters : List (Nat × CodePoint) :=
  [(2, 'b'), (2, 'B'), (8, 'o'), (8, 'O'), (16, 'x'), (16, 'X')]

/-- A mark that fits a radix, or none: a zero and a letter, which an underscore may follow. -/
inductive IsMark (radix : Nat) : Text → Prop
  | none : IsMark radix []
  | letter {c : CodePoint} : (radix, c) ∈ markLetters → IsMark radix ['0', c]
  | underscore {c : CodePoint} : (radix, c) ∈ markLetters → IsMark radix ['0', c, '_']

/-- An integer as it may be typed in a radix. -/
inductive IsTyped (radix : Nat) : Text → Int → Prop
  | intro {before sign mark digits after : Text} {negative : Bool} {ds : List Nat} :
      (∀ c ∈ before, isOuterBlank c = true) → IsSign negative sign → IsMark radix mark →
      DigitRow radix digits ds → (∀ c ∈ after, isOuterBlank c = true) →
      IsTyped radix (before ++ (sign ++ (mark ++ digits)) ++ after) (signed negative (valueOfDigits radix ds))

/-! ### Blanks around -/

/-- What stands between blanks is all that trimming leaves, if there is no blank in it. -/
theorem trim_append {drop : CodePoint → Bool} {before body after : Text} (hbefore : ∀ c ∈ before, drop c = true)
    (hbody : ∀ c ∈ body, drop c = false) (hafter : ∀ c ∈ after, drop c = true) :
    Text.trim drop (before ++ body ++ after) = body := by
  have hfront : (before ++ body ++ after).dropWhile drop = (body ++ after).dropWhile drop := by
    rw [List.append_assoc, List.dropWhile_append_of_pos hbefore]
  cases body with
  | nil =>
    have hnil : (after ++ []).dropWhile drop = [] := by rw [List.dropWhile_append_of_pos hafter]; rfl
    rw [List.append_nil] at hnil
    rw [Text.trim, hfront, List.nil_append, hnil]
    rfl
  | cons c body =>
    have hstart : (c :: body ++ after).dropWhile drop = c :: body ++ after := by
      rw [List.cons_append, List.dropWhile_cons, hbody c List.mem_cons_self, if_neg Bool.false_ne_true]
    have hend : (c :: body ++ after).reverse.dropWhile drop = (c :: body).reverse.dropWhile drop := by
      rw [List.reverse_append, List.dropWhile_append_of_pos fun d hd => hafter d (List.mem_reverse.mp hd)]
    have hself := trim_of_forall_not hbody
    rw [Text.trim, List.dropWhile_cons, hbody c List.mem_cons_self, if_neg Bool.false_ne_true] at hself
    rw [Text.trim, hfront, hstart, hend, hself]

/-- What trimming drops is blank. -/
theorem exists_trim (drop : CodePoint → Bool) (t : Text) : ∃ before after,
    (∀ c ∈ before, drop c = true) ∧ (∀ c ∈ after, drop c = true) ∧ t = before ++ Text.trim drop t ++ after := by
  have hfront := List.takeWhile_append_dropWhile (p := drop) (l := t)
  have hback := List.takeWhile_append_dropWhile (p := drop) (l := (t.dropWhile drop).reverse)
  refine ⟨t.takeWhile drop, ((t.dropWhile drop).reverse.takeWhile drop).reverse,
    fun c hc => List.mem_takeWhile_imp hc, fun c hc => List.mem_takeWhile_imp (List.mem_reverse.mp hc), ?_⟩
  rw [Text.trim, List.append_assoc, ← List.reverse_append, hback, List.reverse_reverse, hfront]

/-! ### Marks -/

/-- No letter that announces a radix is a digit of it. -/
theorem radixDigit?_of_mem_markLetters {radix : Nat} {c : CodePoint} (h : (radix, c) ∈ markLetters) :
    radixDigit? radix c = none ∧ c ≠ '_' := by
  have hall : ∀ e ∈ markLetters, radixDigit? e.1 e.2 = none ∧ e.2 ≠ '_' := by decide
  exact hall _ h

theorem dropMark_cons_cons (radix : Nat) (a b : CodePoint) (rest : Text) :
    dropMark radix (a :: b :: rest) =
      if a = '0' ∧ (radix, b) ∈ markLetters then
        if rest.head? = some ('_' : CodePoint) then rest.tail else rest
      else a :: b :: rest := by
  have hfits : ((radix = 16 && (b = 'x' || b = 'X')) || (radix = 8 && (b = 'o' || b = 'O')) ||
      (radix = 2 && (b = 'b' || b = 'B')) : Bool) = decide ((radix, b) ∈ markLetters) := by
    simp only [markLetters, List.mem_cons, Prod.mk.injEq, List.not_mem_nil, or_false]
    grind
  unfold dropMark
  simp only [hfits, Bool.and_eq_true, decide_eq_true_eq]
  split
  · cases rest with
    | nil => rfl
    | cons c more => simp
  · rfl

/-- A row of digits begins with a digit, which a digit or an underscore follows, if anything does. -/
theorem DigitRow.cases_cons {radix : Nat} {t : Text} {ds : List Nat} (h : DigitRow radix t ds) :
    ∃ c rest, t = c :: rest ∧ (radixDigit? radix c).isSome = true ∧
      ∀ b ∈ rest.head?, b = '_' ∨ (radixDigit? radix b).isSome = true := by
  have hsome : ∀ {c : CodePoint} {d : Nat}, radixDigit? radix c = some d → (radixDigit? radix c).isSome = true :=
    fun hd => Option.isSome_of_eq_some hd
  cases h with
  | last hd => exact ⟨_, _, rfl, hsome hd, nofun⟩
  | underscore hd _ => exact ⟨_, _, rfl, hsome hd, fun b hb => .inl (Option.some.inj hb).symm⟩
  | next hd hrow =>
    refine ⟨_, _, rfl, hsome hd, fun b hb => .inr ?_⟩
    cases hrow with
    | last hb' | next hb' _ | underscore hb' _ =>
      obtain rfl := Option.some.inj hb
      exact hsome hb'

/-- A mark in front of digits is dropped. -/
theorem IsMark.dropMark_append {radix : Nat} {mark digits : Text} {ds : List Nat} (hmark : IsMark radix mark)
    (hrow : DigitRow radix digits ds) : dropMark radix (mark ++ digits) = digits := by
  obtain ⟨c, rest, rfl, hc, hnext⟩ := hrow.cases_cons
  have hunderscore : c ≠ '_' := ne_of_isSome_radixDigit? hc (by decide)
  cases hmark with
  | none =>
    cases rest with
    | nil => rfl
    | cons b rest =>
      rw [List.nil_append, dropMark_cons_cons, if_neg]
      rintro ⟨-, hb⟩
      obtain ⟨hnone, hne⟩ := radixDigit?_of_mem_markLetters hb
      rcases hnext b rfl with rfl | hdigit
      · exact hne rfl
      · rw [hnone] at hdigit
        cases hdigit
  | letter hletter =>
    rw [List.cons_append, List.cons_append, List.nil_append, dropMark_cons_cons, if_pos ⟨rfl, hletter⟩, if_neg]
    exact fun hhead => hunderscore (Option.some.inj hhead)
  | underscore hletter =>
    rw [List.cons_append, List.cons_append, dropMark_cons_cons, if_pos ⟨rfl, hletter⟩]
    rfl

/-- What is dropped is a mark. -/
theorem exists_mark (radix : Nat) (t : Text) : ∃ mark, IsMark radix mark ∧ t = mark ++ dropMark radix t := by
  match t with
  | [] => exact ⟨[], .none, rfl⟩
  | [_] => exact ⟨[], .none, rfl⟩
  | a :: b :: rest =>
    rw [dropMark_cons_cons]
    split
    next h =>
      obtain ⟨rfl, hletter⟩ := h
      split
      next hhead =>
        obtain ⟨more, rfl⟩ := List.head?_eq_some_iff.mp hhead
        exact ⟨_, .underscore hletter, rfl⟩
      next => exact ⟨_, .letter hletter, rfl⟩
    next => exact ⟨[], .none, rfl⟩

/-! ### Digits and underscores -/

/-- Without its underscores a row of digits is the digits. -/
theorem DigitRow.exists_digits {radix : Nat} {t : Text} {ds : List Nat} (h : DigitRow radix t ds) (expectDigit : Bool) :
    ∃ digits, dropUnderscores expectDigit t = some digits ∧ digits.mapM (radixDigit? radix) = some ds := by
  -- A digit is no underscore, so what is dropped is told apart by the code point.
  have hplain : ∀ {c : CodePoint} {d : Nat}, radixDigit? radix c = some d → c ≠ '_' :=
    fun hd => ne_of_isSome_radixDigit? (Option.isSome_of_eq_some hd) (by decide)
  induction h generalizing expectDigit with
  | @last c d hd =>
    refine ⟨[c], ?_, ?_⟩
    · rw [dropUnderscores, if_neg (hplain hd)]
      rfl
    · rw [List.mapM_cons, hd]
      rfl
  | @next c d t ds hd _ ih =>
    obtain ⟨digits, hdrop, hvalues⟩ := ih false
    refine ⟨c :: digits, ?_, ?_⟩
    · rw [dropUnderscores, if_neg (hplain hd), hdrop]
      rfl
    · rw [List.mapM_cons, hd, hvalues]
      rfl
  | @underscore c d t ds hd _ ih =>
    obtain ⟨digits, hdrop, hvalues⟩ := ih true
    refine ⟨c :: digits, ?_, ?_⟩
    · rw [dropUnderscores, if_neg (hplain hd), dropUnderscores, if_pos rfl, if_neg Bool.false_ne_true, hdrop]
      rfl
    · rw [List.mapM_cons, hd, hvalues]
      rfl

/-- What becomes digits without its underscores is a row of digits. Where no digit is expected, there may be nothing,
or an underscore in front of the row. -/
theorem digitRow_of_dropUnderscores {radix : Nat} {expectDigit : Bool} {t digits : Text} {ds : List Nat}
    (h : dropUnderscores expectDigit t = some digits) (hvalues : digits.mapM (radixDigit? radix) = some ds) :
    DigitRow radix t ds ∨
      expectDigit = false ∧ (t = [] ∧ ds = [] ∨ ∃ more : Text, t = ('_' : CodePoint) :: more ∧ DigitRow radix more ds) := by
  induction t generalizing expectDigit digits ds with
  | nil =>
    cases expectDigit with
    | true => cases h
    | false =>
      cases h
      cases hvalues
      exact .inr ⟨rfl, .inl ⟨rfl, rfl⟩⟩
  | cons c t ih =>
    rw [dropUnderscores] at h
    split at h
    next hc =>
      cases expectDigit with
      | true => cases h
      | false =>
        rcases ih h hvalues with hrow | ⟨hfalse, -⟩
        · exact .inr ⟨rfl, .inr ⟨t, by rw [hc], hrow⟩⟩
        · cases hfalse
    next hc =>
      obtain ⟨digits', hdrop, rfl⟩ := Option.map_eq_some_iff.mp h
      rw [List.mapM_cons] at hvalues
      obtain ⟨d, hd, hvalues⟩ := Option.bind_eq_some_iff.mp hvalues
      obtain ⟨ds', hds', hvalues⟩ := Option.bind_eq_some_iff.mp hvalues
      cases hvalues
      left
      -- Behind a digit there is a row, nothing, or an underscore and a row.
      rcases ih hdrop hds' with hrow | ⟨-, ⟨rfl, rfl⟩ | ⟨more, rfl, hrow⟩⟩
      · exact .next hd hrow
      · exact .last hd
      · exact .underscore hd hrow

/-- A text without its underscores has a value exactly when it is a row of digits. -/
theorem exists_digitsValue?_iff {radix n : Nat} {t : Text} :
    (∃ digits, dropUnderscores true t = some digits ∧ digitsValue? radix digits = some n) ↔
      ∃ ds, DigitRow radix t ds ∧ valueOfDigits radix ds = n := by
  constructor
  · rintro ⟨digits, hdrop, hvalue⟩
    rw [digitsValue?] at hvalue
    obtain ⟨-, hvalue⟩ := Option.ite_none_left_eq_some.mp hvalue
    obtain ⟨ds, hds, hn⟩ := Option.map_eq_some_iff.mp hvalue
    rcases digitRow_of_dropUnderscores hdrop hds with hrow | ⟨hfalse, -⟩
    · exact ⟨ds, hrow, hn⟩
    · cases hfalse
  · rintro ⟨ds, hrow, rfl⟩
    obtain ⟨digits, hdrop, hds⟩ := hrow.exists_digits true
    refine ⟨digits, hdrop, ?_⟩
    have hne : digits.isEmpty = false := by
      rw [List.isEmpty_eq_false_iff]
      rintro rfl
      cases hds
      cases hrow
    rw [digitsValue?, hne, if_neg Bool.false_ne_true, hds]
    rfl

/-! ### The reader -/

/-- The code points of a row of digits. -/
theorem DigitRow.mem {radix : Nat} {t : Text} {ds : List Nat} (h : DigitRow radix t ds) :
    ∀ c ∈ t, c = '_' ∨ (radixDigit? radix c).isSome = true := by
  induction h with
  | last hd => exact List.forall_mem_singleton.mpr (.inr (Option.isSome_of_eq_some hd))
  | next hd _ ih => exact List.forall_mem_cons.mpr ⟨.inr (Option.isSome_of_eq_some hd), ih⟩
  | underscore hd _ ih =>
    exact List.forall_mem_cons.mpr ⟨.inr (Option.isSome_of_eq_some hd), List.forall_mem_cons.mpr ⟨.inl rfl, ih⟩⟩

theorem isOuterBlank_eq_false {c : CodePoint} (h : 32 < c.val) : isOuterBlank c = false := by
  simp only [isOuterBlank, Bool.or_eq_false_iff, Bool.and_eq_false_iff, decide_eq_false_iff_not]
  omega

/-- No digit is an outer blank. -/
theorem isOuterBlank_of_isSome_radixDigit? {radix : Nat} {c : CodePoint} (h : (radixDigit? radix c).isSome = true) :
    isOuterBlank c = false := by
  have hv := val_of_isSome_radixDigit? h
  exact isOuterBlank_eq_false (by omega)

/-- No sign is an outer blank. -/
theorem isOuterBlank_of_isSign {negative : Bool} {sign : Text} (h : IsSign negative sign) :
    ∀ c ∈ sign, isOuterBlank c = false := by
  intro c hc
  rcases mem_isSign h hc with rfl | rfl <;> decide

theorem DigitRow.isOuterBlank_eq_false {radix : Nat} {t : Text} {ds : List Nat} (h : DigitRow radix t ds) :
    ∀ c ∈ t, isOuterBlank c = false := by
  intro c hc
  rcases h.mem c hc with rfl | hdigit
  · decide
  · exact isOuterBlank_of_isSome_radixDigit? hdigit

theorem IsMark.isOuterBlank_eq_false {radix : Nat} {mark : Text} (h : IsMark radix mark) :
    ∀ c ∈ mark, isOuterBlank c = false := by
  have hletter : ∀ e ∈ markLetters, isOuterBlank e.2 = false := by decide
  have hzero : isOuterBlank '0' = false := by decide
  cases h with
  | none => exact nofun
  | letter hc => simp [hzero, hletter _ hc]
  | underscore hc => simp [hzero, hletter _ hc]; decide

/-- Neither a mark nor a row of digits begins with a sign. -/
theorem splitSign_of_mark {radix : Nat} {negative : Bool} {sign mark digits : Text} {ds : List Nat}
    (hsign : IsSign negative sign) (hmark : IsMark radix mark) (hrow : DigitRow radix digits ds) :
    splitSign (sign ++ (mark ++ digits)) = (negative, mark ++ digits) := by
  refine splitSign_append hsign fun c hc => ?_
  cases hmark with
  | none =>
    obtain ⟨a, rest, rfl, ha, -⟩ := hrow.cases_cons
    obtain rfl := Option.some.inj hc
    exact ⟨ne_of_isSome_radixDigit? ha (by decide), ne_of_isSome_radixDigit? ha (by decide)⟩
  | letter | underscore =>
    obtain rfl := Option.some.inj hc
    decide

/-- The reader of typed integers, once the blanks around, the sign and the mark are known. -/
theorem read?_eq_some_of_split {radix : Nat} {t rest : Text} {n : Int} {negative : Bool} (hten : radix ≠ 10)
    (hsplit : splitSign (Text.trim isOuterBlank (toAscii t)) = (negative, rest)) :
    read? radix t = some n ↔
      ∃ ds, DigitRow radix (dropMark radix rest) ds ∧ n = signed negative (valueOfDigits radix ds) := by
  have hmatch : read? radix t = (dropUnderscores true (dropMark radix rest)).bind fun digits =>
      (digitsValue? radix digits).map (signed negative) := by
    rw [read?, hsplit]
    dsimp only
    cases dropUnderscores true (dropMark radix rest) with
    | none => rfl
    | some digits => simp [hten]
  rw [hmatch, Option.bind_eq_some_iff]
  constructor
  · rintro ⟨digits, hdrop, hvalue⟩
    obtain ⟨m, hm, rfl⟩ := Option.map_eq_some_iff.mp hvalue
    obtain ⟨ds, hrow, rfl⟩ := exists_digitsValue?_iff.mp ⟨digits, hdrop, hm⟩
    exact ⟨ds, hrow, rfl⟩
  · rintro ⟨ds, hrow, rfl⟩
    obtain ⟨digits, hdrop, hm⟩ := exists_digitsValue?_iff.mpr ⟨ds, hrow, rfl⟩
    exact ⟨digits, hdrop, by rw [hm, Option.map_some]⟩

/-- Except for the limit of decimal notation, an integer is read exactly from the texts that it may be typed as. -/
theorem read?_eq_some_iff {radix : Nat} {t : Text} {n : Int} (hten : radix ≠ 10) :
    read? radix t = some n ↔ IsTyped radix (toAscii t) n := by
  constructor
  · intro h
    rcases hsplit : splitSign (Text.trim isOuterBlank (toAscii t)) with ⟨negative, rest⟩
    obtain ⟨ds, hrow, rfl⟩ := (read?_eq_some_of_split hten hsplit).mp h
    obtain ⟨before, after, hbefore, hafter, ht⟩ := exists_trim isOuterBlank (toAscii t)
    obtain ⟨sign, hsign, hbody⟩ := exists_sign hsplit
    obtain ⟨mark, hmark, hrest⟩ := exists_mark radix rest
    rw [ht, hbody, hrest]
    exact .intro hbefore hsign hmark hrow hafter
  · generalize hascii : toAscii t = ascii
    rintro ⟨hbefore, hsign, hmark, hrow, hafter⟩
    have hbody : ∀ c ∈ _, isOuterBlank c = false := List.forall_mem_append.mpr ⟨isOuterBlank_of_isSign hsign,
      List.forall_mem_append.mpr ⟨hmark.isOuterBlank_eq_false, hrow.isOuterBlank_eq_false⟩⟩
    have hsplit := splitSign_of_mark hsign hmark hrow
    rw [← trim_append hbefore hbody hafter, ← hascii] at hsplit
    refine (read?_eq_some_of_split hten hsplit).mpr ⟨_, ?_, rfl⟩
    rw [hmark.dropMark_append hrow]
    exact hrow

end Integer

end Lisplet
