import Lisplet.Proofs.Digits
import Lisplet.Proofs.Gaps

/-!
# The shapes of tokens

The texts that tokens of each sort are made of, and what may follow them: words run to the next
delimiter, a character literal takes a name where one stands, and a comma takes an at sign. Every text
that begins with no gap has a token of such a shape in front, or is a string that is never closed; and
splitting off the first token finds it.
-/

namespace Lisplet

namespace Token

/-- The rest of a string: code points and escapes, and the first quotation mark that no backslash
precedes. -/
inductive StringRest : Text → Prop
  | close : StringRest ['"']
  | escape {c : CodePoint} {t : Text} : StringRest t → StringRest ('\\' :: c :: t)
  | plain {c : CodePoint} {t : Text} : c ≠ '"' → c ≠ '\\' → StringRest t → StringRest (c :: t)

/-- A word: at least one code point, and no delimiter. -/
def IsWord (w : Text) : Prop := w ≠ [] ∧ ∀ c ∈ w, c.isDelimiter = false

/-- The end of a source, or a delimiter. -/
def EndsWord (more : Text) : Prop := ∀ c ∈ more.head?, c.isDelimiter = true

/-- The texts of the two truth values. -/
def booleanTexts : List Text := booleanWords.map (·.1)

/-- The names of characters. -/
def nameTexts : List Text := characterNames.map (·.1)

/-- The letters of the radixes. -/
def radixMarks : List (CodePoint × Nat) := [('b', 2), ('o', 8), ('x', 16)]

/-- A word with a radix mark, and the integer it denotes: the letter of the radix, a sign or none, and
digits of that radix. -/
inductive RadixWord : Text → Int → Prop
  | intro {letter : CodePoint} {radix n : Nat} {negative : Bool} {sign digits : Text} :
      (letter, radix) ∈ radixMarks → IsSign negative sign → digitsValue? radix digits = some n →
      RadixWord ('#' :: letter :: (sign ++ digits)) (signed negative n)

/-- A token that has the shape of its sort and stands in a source in front of `more`. -/
inductive Stands : Token → Text → Prop
  | quote {mark : CodePoint} {more : Text} : mark = '\'' ∨ mark = '`' → Stands ⟨.quote, [mark]⟩ more
  | unquote {more : Text} : more.head? ≠ some ('@' : CodePoint) → Stands ⟨.unquote, [',']⟩ more
  | splice {more : Text} : Stands ⟨.unquote, [',', '@']⟩ more
  | openParen {more : Text} : Stands ⟨.openParen, ['(']⟩ more
  | closeParen {more : Text} : Stands ⟨.closeParen, [')']⟩ more
  | string {body more : Text} : StringRest body → Stands ⟨.string, '"' :: body⟩ more
  | named {name more : Text} : name ∈ nameTexts → Stands ⟨.character, '#' :: '\\' :: name⟩ more
  | single {c : CodePoint} {more : Text} : (∀ name ∈ nameTexts, ¬name <+: c :: more) →
      Stands ⟨.character, ['#', '\\', c]⟩ more
  | boolean {w more : Text} : w ∈ booleanTexts → EndsWord more → Stands ⟨.boolean, w⟩ more
  | radix {w more : Text} {n : Int} : RadixWord w n → EndsWord more → Stands ⟨.radix, w⟩ more
  /-- A symbol is any other word. It begins neither a block comment nor a character literal: only at
  the end of a source may a hash and a backslash be a word. -/
  | symbol {w more : Text} : IsWord w → w ∉ booleanTexts → (∀ n, ¬RadixWord w n) →
      ¬[('#' : CodePoint), '|'] <+: w → ([('#' : CodePoint), '\\'] <+: w → w.length = 2 ∧ more = []) →
      EndsWord more → Stands ⟨.symbol, w⟩ more

/-- A text that begins with a string that is never closed. -/
def OpensString (t : Text) : Prop :=
  ∃ body, t = ('"' : CodePoint) :: body ∧ ∀ s r, body = s ++ r → ¬StringRest s

/-! ### Strings -/

/-- Splitting a string off takes exactly its rest. -/
theorem splitString?_append {s : Text} (h : StringRest s) (r : Text) :
    splitString? (s ++ r) = some (s, r) := by
  induction h with
  | close => rw [List.singleton_append, splitString?.eq_def]; rfl
  | escape _ ih => simp [splitString?, ih]
  | plain hq hb _ ih =>
    rw [List.cons_append, splitString?.eq_def]
    simp only [if_neg hq, if_neg hb, ih, Option.map_some]

/-- Only the rest of a string is split off. -/
theorem stringRest_of_splitString? {t s r : Text} (h : splitString? t = some (s, r)) :
    StringRest s ∧ t = s ++ r := by
  fun_induction splitString? t generalizing s with
  | case1 => simp at h
  | case2 rest =>
    obtain ⟨rfl, rfl⟩ := Prod.mk.inj (Option.some.inj h)
    exact ⟨.close, rfl⟩
  | case3 => simp at h
  | case4 d more _ ih =>
    obtain ⟨⟨s', r'⟩, hs, he⟩ := Option.map_eq_some_iff.mp h
    obtain ⟨rfl, rfl⟩ := Prod.mk.inj he
    obtain ⟨hrest, rfl⟩ := ih hs
    exact ⟨.escape hrest, rfl⟩
  | case5 c rest hq hb ih =>
    obtain ⟨⟨s', r'⟩, hs, he⟩ := Option.map_eq_some_iff.mp h
    obtain ⟨rfl, rfl⟩ := Prod.mk.inj he
    obtain ⟨hrest, rfl⟩ := ih hs
    exact ⟨.plain hq hb hrest, rfl⟩

/-- A string that is never closed cannot be split off. -/
theorem splitString?_eq_none {body : Text} (h : ∀ s r, body = s ++ r → ¬StringRest s) :
    splitString? body = none := by
  rw [Option.eq_none_iff_forall_not_mem]
  rintro ⟨s, r⟩ hs
  obtain ⟨hrest, he⟩ := stringRest_of_splitString? hs
  exact h s r he hrest

/-! ### Character literals -/

/-- A name of a character is taken whole. -/
theorem splitCharacter?_name {name : Text} (h : name ∈ nameTexts) (more : Text) :
    splitCharacter? (name ++ more) = some (name, more) := by
  have hcases : name = text "newline" ∨ name = text "space" ∨ name = text "tab" ∨
      name = text "return" := by
    simpa [nameTexts, characterNames] using h
  rcases hcases with rfl | rfl | rfl | rfl <;> rfl

/-- Where no name stands, one code point is taken. -/
theorem splitCharacter?_single {c : CodePoint} {more : Text}
    (h : ∀ name ∈ nameTexts, ¬name <+: c :: more) :
    splitCharacter? (c :: more) = some ([c], more) := by
  have hnone : characterNames.find? (fun e => e.1.isPrefixOf (c :: more)) = none := by
    rw [List.find?_eq_none]
    intro e he hp
    exact h e.1 (List.mem_map_of_mem he) (List.isPrefixOf_iff_prefix.mp hp)
  unfold splitCharacter?
  rw [hnone]

/-! ### Words -/

/-- What delimits is blank or one of seven characters. -/
theorem isDelimiter_eq_false_iff {c : CodePoint} :
    c.isDelimiter = false ↔ c.isBlank = false ∧ c ≠ '(' ∧ c ≠ ')' ∧ c ≠ '\'' ∧ c ≠ '"' ∧ c ≠ '`' ∧
      c ≠ ',' ∧ c ≠ ';' := by
  simp only [CodePoint.isDelimiter, Bool.or_eq_false_iff, decide_eq_false_iff_not, ne_eq, and_assoc]

/-- No digit of a radix delimits. -/
theorem isDelimiter_of_isSome_radixDigit? {radix : Nat} {c : CodePoint}
    (h : (radixDigit? radix c).isSome = true) : c.isDelimiter = false := by
  rw [isDelimiter_eq_false_iff]
  refine ⟨isBlank_of_isSome_radixDigit? h, ?_, ?_, ?_, ?_, ?_, ?_, ?_⟩ <;>
    exact ne_of_isSome_radixDigit? h (by decide)

/-- No sign delimits. -/
theorem isDelimiter_of_isSign {negative : Bool} {sign : Text} (h : IsSign negative sign) :
    ∀ c ∈ sign, c.isDelimiter = false := by
  intro c hc
  rcases mem_isSign h hc with rfl | rfl <;> decide

/-- The radix of a letter. -/
theorem radixOfLetter?_of_mem {letter : CodePoint} {radix : Nat} (h : (letter, radix) ∈ radixMarks) :
    radixOfLetter? letter = some radix ∧ radix ≠ 10 ∧ letter.isDelimiter = false := by
  simp only [radixMarks, List.mem_cons, Prod.mk.injEq, List.not_mem_nil, or_false] at h
  rcases h with ⟨rfl, rfl⟩ | ⟨rfl, rfl⟩ | ⟨rfl, rfl⟩ <;> decide

theorem mem_radixMarks_of_radixOfLetter? {letter : CodePoint} {radix : Nat}
    (h : radixOfLetter? letter = some radix) : (letter, radix) ∈ radixMarks := by
  unfold radixOfLetter? at h
  split at h
  · next hl => simp [radixMarks, hl, Option.some.inj h]
  · split at h
    · next hl => simp [radixMarks, hl, Option.some.inj h]
    · split at h
      · next hl => simp [radixMarks, hl, Option.some.inj h]
      · simp at h

/-- A word with a radix mark is a word. -/
theorem RadixWord.isWord {w : Text} {n : Int} (h : RadixWord w n) : IsWord w := by
  obtain ⟨hmark, hsign, hdigits⟩ := h
  have hd := isSome_digitsValue?_iff.mp (Option.isSome_of_eq_some hdigits)
  refine ⟨by simp, ?_⟩
  simp only [List.forall_mem_cons, List.forall_mem_append]
  exact ⟨by decide, (radixOfLetter?_of_mem hmark).2.2, isDelimiter_of_isSign hsign,
    fun c hc => isDelimiter_of_isSome_radixDigit? (hd.2 c hc)⟩

/-- The value of a word is an integer with a radix mark exactly for the words of that shape. -/
theorem radixValue?_eq_some_iff {w : Text} {n : Int} :
    radixValue? w = some n ↔ RadixWord w n := by
  constructor
  · intro h
    match w with
    | [] => simp [radixValue?] at h
    | [_] => simp [radixValue?] at h
    | hash :: letter :: body =>
      by_cases hh : hash = ('#' : CodePoint)
      · rw [radixValue?, if_pos hh] at h
        obtain ⟨radix, hradix, hvalue⟩ := Option.bind_eq_some_iff.mp h
        rcases hs : splitSign body with ⟨negative, digits⟩
        rw [hs] at hvalue
        obtain ⟨m, hm, rfl⟩ := Option.map_eq_some_iff.mp hvalue
        obtain ⟨sign, hsign, rfl⟩ := exists_sign hs
        rw [hh]
        exact .intro (mem_radixMarks_of_radixOfLetter? hradix) hsign hm
      · rw [radixValue?, if_neg hh] at h
        simp at h
  · rintro ⟨hmark, hsign, hdigits⟩
    have hd := isSome_digitsValue?_iff.mp (Option.isSome_of_eq_some hdigits)
    rw [radixValue?, if_pos rfl, (radixOfLetter?_of_mem hmark).1, Option.bind_some,
      splitSign_of_digits hsign hd.2]
    simp only [hdigits, Option.map_some]

theorem isWord_of_mem_booleanTexts {w : Text} (h : w ∈ booleanTexts) : IsWord w := by
  have hcases : w = text "#true" ∨ w = text "#false" ∨ w = text "#t" ∨ w = text "#f" := by
    simpa [booleanTexts, booleanWords] using h
  rcases hcases with rfl | rfl | rfl | rfl <;> exact ⟨by decide, by decide⟩

/-- A table has an entry for exactly the texts that it lists. -/
theorem isSome_lookup_iff {α : Type} {w : Text} {table : List (Text × α)} :
    (table.lookup w).isSome = true ↔ w ∈ table.map (·.1) := by
  rw [List.lookup_isSome_iff, List.mem_map]
  simp only [beq_iff_eq, eq_comm (a := w)]

theorem wordKind_boolean {w : Text} (h : w ∈ booleanTexts) : wordKind w = .boolean := by
  rw [wordKind, if_pos (isSome_lookup_iff.mpr h)]

/-- No truth value is written with a radix mark. -/
theorem RadixWord.not_mem_booleanTexts {w : Text} {n : Int} (h : RadixWord w n) :
    w ∉ booleanTexts := by
  obtain ⟨hmark, _, _⟩ := h
  intro hb
  simp only [radixMarks, List.mem_cons, Prod.mk.injEq, List.not_mem_nil, or_false] at hmark
  rcases hmark with ⟨rfl, _⟩ | ⟨rfl, _⟩ | ⟨rfl, _⟩ <;>
    simp [booleanTexts, booleanWords, Text.ofString] at hb

theorem wordKind_radix {w : Text} {n : Int} (h : RadixWord w n) : wordKind w = .radix := by
  rw [wordKind, if_neg (fun hb => h.not_mem_booleanTexts (isSome_lookup_iff.mp hb)),
    if_pos (Option.isSome_of_eq_some (radixValue?_eq_some_iff.mpr h))]

theorem wordKind_symbol {w : Text} (hb : w ∉ booleanTexts) (hr : ∀ n, ¬RadixWord w n) :
    wordKind w = .symbol := by
  have hnone : ¬(radixValue? w).isSome = true := by
    intro h
    obtain ⟨n, hn⟩ := Option.isSome_iff_exists.mp h
    exact hr n (radixValue?_eq_some_iff.mp hn)
  rw [wordKind, if_neg (fun h => hb (isSome_lookup_iff.mp h)), if_neg hnone]

/-- A word that runs to a delimiter is split off whole. -/
theorem splitWord?_append {w more : Text} (hw : IsWord w) (hmore : EndsWord more) :
    splitWord? (w ++ more) = some (⟨wordKind w, w⟩, more) := by
  have htake : (w ++ more).takeWhile (fun c => !c.isDelimiter) = w := by
    rw [List.takeWhile_append_of_pos (fun c hc => by rw [hw.2 c hc]; rfl)]
    cases more with
    | nil => simp
    | cons c more => simp [hmore c rfl]
  have hne : w.isEmpty = false := by simpa using hw.1
  simp only [splitWord?, htake, hne, List.drop_left]
  rfl

/-! ### First tokens -/

/-- A word that stands in front of a delimiter or the end and looks like nothing else: it begins no block
comment and, unless it is all that is left of a source, no character literal. -/
structure StandsAsWord (w more : Text) : Prop where
  word : IsWord w
  ends : EndsWord more
  noBlock : ¬[('#' : CodePoint), '|'] <+: w
  noLiteral : [('#' : CodePoint), '\\'] <+: w → w.length = 2 ∧ more = []

theorem standsAsWord_boolean {w more : Text} (hw : w ∈ booleanTexts) (hmore : EndsWord more) :
    StandsAsWord w more := by
  have hcases : w = text "#true" ∨ w = text "#false" ∨ w = text "#t" ∨ w = text "#f" := by
    simpa [booleanTexts, booleanWords] using hw
  refine ⟨isWord_of_mem_booleanTexts hw, hmore, ?_, fun hp => absurd hp ?_⟩ <;>
    rcases hcases with rfl | rfl | rfl | rfl <;> decide

theorem RadixWord.standsAsWord {w more : Text} {n : Int} (hw : RadixWord w n)
    (hmore : EndsWord more) : StandsAsWord w more := by
  have hne : ∀ b : CodePoint, b = '|' ∨ b = '\\' → ¬[('#' : CodePoint), b] <+: w := by
    intro b hb hp
    obtain ⟨hmark, _, _⟩ := hw
    obtain ⟨rfl, _⟩ := List.cons_prefix_cons.mp (List.cons_prefix_cons.mp hp).2
    have hr := (radixOfLetter?_of_mem hmark).1
    rcases hb with rfl | rfl <;> simp [radixOfLetter?] at hr
  exact ⟨hw.isWord, hmore, hne _ (Or.inl rfl), fun hp => absurd hp (hne _ (Or.inr rfl))⟩

/-- The mark of two code points stands in front of a text only if it stands in front of its first word,
when no delimiter is part of it. -/
theorem StandsAsWord.prefix_of_prefix {w more : Text} (h : StandsAsWord w more) {b : CodePoint}
    (hb : b.isDelimiter = false) (hp : [('#' : CodePoint), b] <+: w ++ more) :
    [('#' : CodePoint), b] <+: w := by
  match w, h.word.1 with
  | [c], _ =>
    obtain ⟨_, hrest⟩ := List.cons_prefix_cons.mp hp
    cases more with
    | nil => simp at hrest
    | cons d more =>
      obtain ⟨rfl, _⟩ := List.cons_prefix_cons.mp hrest
      exact absurd (h.ends b rfl) (by simp [hb])
  | c :: d :: w, _ =>
    obtain ⟨rfl, hrest⟩ := List.cons_prefix_cons.mp hp
    obtain ⟨rfl, _⟩ := List.cons_prefix_cons.mp hrest
    simp

theorem StandsAsWord.not_startsGap {w more rest : Text} {c : CodePoint} (h : StandsAsWord w more)
    (he : w ++ more = c :: rest) : ¬StartsGap (c :: rest) := by
  match w, h.word.1 with
  | d :: w, _ =>
    obtain ⟨rfl, hrest⟩ := List.cons.inj he
    have hd := isDelimiter_eq_false_iff.mp (h.word.2 d List.mem_cons_self)
    rintro (hblank | rfl | ⟨rfl, hbar⟩)
    · simp [hd.1] at hblank
    · exact absurd rfl hd.2.2.2.2.2.2.2
    · obtain ⟨tail, rfl⟩ := List.head?_eq_some_iff.mp hbar
      apply h.noBlock
      apply h.prefix_of_prefix (by decide)
      rw [he]
      simp

/-- A text begins with a hash and a backslash. -/
theorem startsCharacter_iff {t : Text} :
    startsCharacter t = true ↔ [('#' : CodePoint), '\\'] <+: t := by
  match t with
  | [] => simp [startsCharacter]
  | [a] => simp [startsCharacter]
  | a :: b :: rest =>
    simp only [startsCharacter, Bool.and_eq_true, decide_eq_true_eq, List.cons_prefix_cons,
      List.nil_prefix, and_true, eq_comm (b := a), eq_comm (b := b)]

/-- A word is split off whole. -/
theorem StandsAsWord.splitFirst?_eq {w more rest : Text} {c : CodePoint} (h : StandsAsWord w more)
    (he : w ++ more = c :: rest) : splitFirst? c rest = some (⟨wordKind w, w⟩, more) := by
  have hc : c.isDelimiter = false := by
    match w, h.word.1 with
    | d :: w, _ =>
      obtain ⟨rfl, _⟩ := List.cons.inj he
      exact h.word.2 d List.mem_cons_self
  obtain ⟨_, hopen, hclose, hquote, hstring, hquasi, hcomma, _⟩ := isDelimiter_eq_false_iff.mp hc
  unfold splitFirst?
  simp only [hquote, hquasi, hcomma, hopen, hclose, hstring, or_self, if_false, ← he]
  split
  · next hs =>
    obtain ⟨hlength, rfl⟩ :=
      h.noLiteral (h.prefix_of_prefix (by decide) (startsCharacter_iff.mp hs))
    have hdrop : (w ++ []).drop 2 = [] := by
      rw [List.drop_eq_nil_iff, List.append_nil, hlength]
    rw [splitHashed?, hdrop]
    exact splitWord?_append h.word h.ends
  · exact splitWord?_append h.word h.ends

theorem StandsAsWord.first {w more : Text} {kind : TokenKind} (h : StandsAsWord w more)
    (hk : wordKind w = kind) : ∃ c rest, w ++ more = c :: rest ∧ ¬StartsGap (c :: rest) ∧
      splitFirst? c rest = some (⟨kind, w⟩, more) := by
  obtain ⟨c, w', rfl⟩ := List.exists_cons_of_ne_nil h.word.1
  exact ⟨c, w' ++ more, rfl, h.not_startsGap rfl, hk ▸ h.splitFirst?_eq rfl⟩

/-- Where a token stands no gap begins, and splitting off the first token finds it. -/
theorem Stands.splitFirst?_eq {token : Token} {more : Text} (h : Stands token more) :
    ∃ c rest, token.lexeme ++ more = c :: rest ∧ ¬StartsGap (c :: rest) ∧
      splitFirst? c rest = some (token, more) := by
  cases h with
  | quote hm =>
    refine ⟨_, _, rfl, ?_, by simp [splitFirst?, hm]⟩
    rcases hm with rfl | rfl <;> simp [StartsGap] <;> decide
  | unquote hne =>
    refine ⟨_, _, rfl, by simp [StartsGap]; decide, ?_⟩
    unfold splitFirst?
    cases more with
    | nil => simp
    | cons d more =>
      have hd : ¬d = ('@' : CodePoint) := fun he => hne (by rw [he]; rfl)
      simp [hd]
  | splice => exact ⟨_, _, rfl, by simp [StartsGap]; decide, by simp [splitFirst?]⟩
  | openParen => exact ⟨_, _, rfl, by simp [StartsGap]; decide, by simp [splitFirst?]⟩
  | closeParen => exact ⟨_, _, rfl, by simp [StartsGap]; decide, by simp [splitFirst?]⟩
  | string hs =>
    refine ⟨_, _, rfl, by simp [StartsGap]; decide, ?_⟩
    unfold splitFirst?
    simp [splitString?_append hs]
  | named hname =>
    refine ⟨_, _, rfl, by simp [StartsGap]; decide, ?_⟩
    simp [splitFirst?, startsCharacter, splitHashed?, splitCharacter?_name hname]
  | single hname =>
    refine ⟨_, _, rfl, by simp [StartsGap]; decide, ?_⟩
    simp [splitFirst?, startsCharacter, splitHashed?, splitCharacter?_single hname]
  | boolean hw hmore => exact (standsAsWord_boolean hw hmore).first (wordKind_boolean hw)
  | radix hw hmore => exact (hw.standsAsWord hmore).first (wordKind_radix hw)
  | symbol hw hb hr hblock hliteral hmore =>
    exact StandsAsWord.first ⟨hw, hmore, hblock, hliteral⟩ (wordKind_symbol hb hr)

/-- A string that is never closed is no token. -/
theorem splitFirst?_of_opensString {c : CodePoint} {rest : Text} (h : OpensString (c :: rest)) :
    c = '"' ∧ splitFirst? c rest = none := by
  obtain ⟨body, he, hopen⟩ := h
  obtain ⟨rfl, rfl⟩ := List.cons.inj he
  refine ⟨rfl, ?_⟩
  unfold splitFirst?
  simp [splitString?_eq_none hopen]

/-- No gap begins with a string. -/
theorem OpensString.not_startsGap {t : Text} (h : OpensString t) : ¬StartsGap t := by
  obtain ⟨body, rfl, _⟩ := h
  simp [StartsGap]
  decide

/-- A word of any sort stands where nothing else does. -/
theorem StandsAsWord.exists_stands {w more : Text} (h : StandsAsWord w more) :
    ∃ kind, Stands ⟨kind, w⟩ more := by
  by_cases hb : w ∈ booleanTexts
  · exact ⟨.boolean, .boolean hb h.ends⟩
  · by_cases hr : ∃ n, RadixWord w n
    · obtain ⟨n, hn⟩ := hr
      exact ⟨.radix, .radix hn h.ends⟩
    · exact ⟨.symbol, .symbol h.word hb (fun n hn => hr ⟨n, hn⟩) h.noBlock h.noLiteral h.ends⟩

/-- A word that does not begin with a hash is a symbol. -/
theorem stands_symbol_of_not_hash {w more : Text} (hw : IsWord w)
    (hhash : w.head? ≠ some ('#' : CodePoint)) (hmore : EndsWord more) :
    Stands ⟨.symbol, w⟩ more := by
  have hnot : ∀ t, [('#' : CodePoint)] <+: t → ¬t <+: w := by
    rintro _ ⟨t, rfl⟩ ⟨u, rfl⟩
    exact hhash rfl
  refine .symbol hw ?_ ?_ (hnot _ ⟨_, rfl⟩) (fun h => absurd h (hnot _ ⟨_, rfl⟩)) hmore
  · intro hb
    have hmark : [('#' : CodePoint)] <+: w := by
      have hcases : w = text "#true" ∨ w = text "#false" ∨ w = text "#t" ∨ w = text "#f" := by
        simpa [booleanTexts, booleanWords] using hb
      rcases hcases with rfl | rfl | rfl | rfl <;> exact ⟨_, rfl⟩
    exact hnot w hmark List.prefix_rfl
  · rintro n ⟨_, _, _⟩
    exact hhash rfl

/-- A text that begins with no delimiter begins with a word that runs to the next one. -/
theorem exists_word {c : CodePoint} (hc : c.isDelimiter = false) (rest : Text) :
    ∃ w more, IsWord w ∧ EndsWord more ∧ c :: rest = w ++ more := by
  refine ⟨(c :: rest).takeWhile (fun d => !d.isDelimiter),
    (c :: rest).dropWhile (fun d => !d.isDelimiter), ⟨?_, ?_⟩, ?_,
    List.takeWhile_append_dropWhile.symm⟩
  · simp [hc]
  · intro d hd
    simpa using List.mem_takeWhile_imp hd
  · intro d hd
    have hhead := List.head?_dropWhile_not (fun d : CodePoint => !d.isDelimiter) (c :: rest)
    rw [Option.mem_def.mp hd] at hhead
    simpa using hhead

/-- Where no gap begins there is a token, or a string that is never closed. -/
theorem exists_token {c : CodePoint} {rest : Text} (h : ¬StartsGap (c :: rest)) :
    (∃ token more, Stands token more ∧ c :: rest = token.lexeme ++ more) ∨
      OpensString (c :: rest) := by
  simp only [StartsGap, not_or] at h
  obtain ⟨hblank, hsemicolon, hbar⟩ := h
  -- Tokens that are known from their first code point, in the order in which the scanner asks for them.
  by_cases hquote : c = '\'' ∨ c = '`'
  · exact Or.inl ⟨_, rest, .quote hquote, rfl⟩
  by_cases hcomma : c = ','
  · subst hcomma
    by_cases hat : rest.head? = some ('@' : CodePoint)
    · obtain ⟨more, rfl⟩ := List.head?_eq_some_iff.mp hat
      exact Or.inl ⟨_, more, .splice, rfl⟩
    · exact Or.inl ⟨_, rest, .unquote hat, rfl⟩
  by_cases hopen : c = '('
  · subst hopen
    exact Or.inl ⟨_, rest, .openParen, rfl⟩
  by_cases hclose : c = ')'
  · subst hclose
    exact Or.inl ⟨_, rest, .closeParen, rfl⟩
  by_cases hstring : c = '"'
  · subst hstring
    by_cases hclosed : ∃ s r, rest = s ++ r ∧ StringRest s
    · obtain ⟨s, r, rfl, hs⟩ := hclosed
      exact Or.inl ⟨_, r, .string hs, rfl⟩
    · exact Or.inr ⟨rest, rfl, fun s r he hs => hclosed ⟨s, r, he, hs⟩⟩
  by_cases hliteral : ∃ b more, c :: rest = ('#' : CodePoint) :: '\\' :: b :: more
  · obtain ⟨b, more, he⟩ := hliteral
    rw [he]
    by_cases hname : ∃ name ∈ nameTexts, name <+: b :: more
    · obtain ⟨name, hmem, tail, ht⟩ := hname
      exact Or.inl ⟨_, tail, .named hmem, by rw [← ht]; rfl⟩
    · exact Or.inl ⟨_, more, .single fun name hmem hp => hname ⟨name, hmem, hp⟩, rfl⟩
  -- No other token begins with a delimiter, so a word is left.
  have hdelimiter : c.isDelimiter = false := by
    rw [not_or] at hquote
    exact isDelimiter_eq_false_iff.mpr ⟨by simpa using hblank, hopen, hclose, hquote.1, hstring,
      hquote.2, hcomma, hsemicolon⟩
  obtain ⟨w, more, hw, hends, he⟩ := exists_word hdelimiter rest
  have hblock : ¬[('#' : CodePoint), '|'] <+: w := by
    rintro ⟨tail, rfl⟩
    obtain ⟨rfl, rfl⟩ := List.cons.inj he
    exact hbar ⟨rfl, rfl⟩
  have hcharacter : [('#' : CodePoint), '\\'] <+: w → w.length = 2 ∧ more = [] := by
    rintro ⟨tail, rfl⟩
    cases tail with
    | nil =>
      cases more with
      | nil => exact ⟨rfl, rfl⟩
      | cons d more => exact absurd ⟨d, more, he⟩ hliteral
    | cons d tail => exact absurd ⟨d, tail ++ more, he⟩ hliteral
  obtain ⟨kind, hk⟩ := StandsAsWord.exists_stands ⟨hw, hends, hblock, hcharacter⟩
  exact Or.inl ⟨_, more, hk, he⟩

end Token

end Lisplet
