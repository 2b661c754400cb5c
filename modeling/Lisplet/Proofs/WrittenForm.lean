import Lisplet.Proofs.Reading
import Lisplet.Store

/-!
# Written forms

The text that a value is written as is one datum wherever it stands in front of a space, a closing
parenthesis or the end of a line: `Written` says so of a text and a datum, and is built up along the
structure of values. A value is readable if it is made of atoms that have a written form; one pair of
marks merges when written, so an unquoted symbol must not begin with an at sign.
-/

namespace Lisplet

open Token

namespace Token

/-- What the printer puts behind a datum: nothing, or a space, a closing parenthesis or a line feed. -/
def Closes (more : Text) : Prop := ∀ c ∈ more.head?, c = ' ' ∨ c = ')' ∨ c = newline

/-- A text that is made of these tokens wherever a datum may end behind it. -/
def Spelled (ts : List Token) (t : Text) : Prop := ∀ more, Closes more → Spells ts (t ++ more) more

theorem Closes.endsWord {more : Text} (h : Closes more) : EndsWord more := by
  intro c hc
  rcases h c hc with rfl | rfl | rfl <;> decide

theorem closes_nil : Closes [] := by simp [Closes]

theorem closes_space (more : Text) : Closes (' ' :: more) := by simp [Closes]

theorem closes_closeParen (more : Text) : Closes (')' :: more) := by simp [Closes]

theorem closes_newline (more : Text) : Closes (newline :: more) := by simp [Closes]

/-- Layouts one after the other are a layout. -/
theorem Spells.append {ts us : List Token} {t mid rest : Text} (h : Spells ts t mid)
    (h' : Spells us mid rest) : Spells (ts ++ us) t rest := by
  induction h with
  | nil => exact h'
  | cons hg hstands _ ih => exact .cons hg hstands (ih h')

/-- A gap may be put in front of a layout with tokens. -/
theorem Spells.prepend {ts : List Token} {g t rest : Text} (hg : Gap g) (h : Spells ts t rest)
    (hne : ts ≠ []) : Spells ts (g ++ t) rest := by
  cases h with
  | nil => exact absurd rfl hne
  | cons hg' hstands h =>
    rw [← List.append_assoc]
    exact .cons (hg.append hg') hstands h

/-- One token is spelled by its code points. -/
theorem Spelled.token {token : Token} (h : ∀ more, Closes more → Stands token more) :
    Spelled [token] token.lexeme :=
  fun more hmore => .cons .nil (h more hmore) .nil

/-- A space in front is a gap. -/
theorem gap_space : Gap (text " ") := .blank (by decide) .nil

theorem gap_newline : Gap [newline] := .blank (by decide) .nil

/-- A quotation mark in front of a datum. A comma is followed by no at sign. -/
theorem Spelled.quoted {token : Token} {ts : List Token} {t : Text}
    (hstands : ∀ more, Stands token (t ++ more)) (h : Spelled ts t) :
    Spelled (token :: ts) (token.lexeme ++ t) := by
  intro more hmore
  rw [List.append_assoc]
  exact .cons .nil (hstands more) (h more hmore)

/-- A text that ends a list: it is made of these tokens whatever is behind it, and the datum in front of it
is complete. -/
structure SpelledRest (ts : List Token) (t : Text) : Prop where
  spells : ∀ more, Spells ts (t ++ more) more
  closes : ∀ more, Closes (t ++ more)

namespace SpelledRest

/-- A closing parenthesis. -/
theorem close : SpelledRest [⟨.closeParen, text ")"⟩] (text ")") where
  spells _ := .cons .nil .closeParen .nil
  closes more := closes_closeParen more

/-- A row of data in front of the end of a list. -/
theorem append {ts us : List Token} {t u : Text} (h : Spelled ts t)
    (hcloses : ∀ more, Closes more → Closes (t ++ more)) (h' : SpelledRest us u) :
    SpelledRest (ts ++ us) (t ++ u) where
  spells more := by
    rw [List.append_assoc]
    exact (h _ (h'.closes more)).append (h'.spells more)
  closes more := by
    rw [List.append_assoc]
    exact hcloses _ (h'.closes more)

/-- One more datum in front of the end of a list. -/
theorem cons {ts us : List Token} {t u : Text} (h : Spelled ts t) (hne : ts ≠ [])
    (h' : SpelledRest us u) : SpelledRest (ts ++ us) (text " " ++ t ++ u) :=
  append (fun more hmore => by
    rw [List.append_assoc]
    exact (h more hmore).prepend gap_space hne) (fun _ _ => closes_space _) h'

/-- A dot and a tail end a list. -/
theorem dotted {ts : List Token} {t : Text} (h : Spelled ts t) (hne : ts ≠ []) :
    SpelledRest (⟨.symbol, text "."⟩ :: (ts ++ [⟨.closeParen, text ")"⟩]))
      (text " . " ++ t ++ text ")") where
  spells more := by
    have htail := ((h _ (closes_closeParen more)).prepend gap_space hne).append (close.spells more)
    have hstands : Stands ⟨.symbol, text "."⟩ (' ' :: (t ++ (text ")" ++ more))) :=
      stands_symbol_of_not_hash ⟨by decide, by decide⟩ (by decide) (closes_space _).endsWord
    have hdot := Spells.cons gap_space hstands htail
    rw [List.append_assoc, List.append_assoc]
    exact hdot
  closes _ := closes_space _

end SpelledRest

/-- A list is made of an opening parenthesis, its first item and the rest. -/
theorem Spelled.list {ts us : List Token} {t u : Text} (h : Spelled ts t) (h' : SpelledRest us u) :
    Spelled (⟨.openParen, text "("⟩ :: (ts ++ us)) (text "(" ++ t ++ u) := by
  intro more _
  have hitems := (h _ (h'.closes more)).append (h'.spells more)
  have hopen : Spells (⟨.openParen, text "("⟩ :: _) ([] ++ (text "(" ++ _)) more :=
    .cons .nil .openParen hitems
  rw [List.append_assoc, List.append_assoc]
  exact hopen

/-- A token that stands wherever a datum may end behind it, and denotes a datum. -/
structure Writes (token : Token) (d : Datum) : Prop where
  stands : ∀ more, Closes more → Stands token more
  denotes : DenotesAtom token d

end Token

/-- A text on one line that is read as a datum of some nesting wherever a datum may end behind it. -/
structure Written (t : Text) (d : Datum) (n : Nat) : Prop where
  /-- The text is made of tokens that are the datum, without an overlong integer. -/
  exists_tokens : ∃ ts, Spelled ts t ∧ Denotes ts d n ∧ ∀ token ∈ ts, ¬token.IsTooLong
  /-- The text has no line feed. -/
  oneLine : newline ∉ t

/-- A text on one line that is read as a row of data with a space in front of each. -/
structure WrittenRow (t : Text) (ds : List Datum) (n : Nat) : Prop where
  /-- The text is made of tokens that are the data, without an overlong integer. -/
  exists_tokens : ∃ ts, Spelled ts t ∧ DenotesAll ts ds n ∧ ∀ token ∈ ts, ¬token.IsTooLong
  /-- The text has no line feed. -/
  oneLine : newline ∉ t
  /-- A datum may end in front of the text. -/
  closes : ∀ more, Closes more → Closes (t ++ more)

namespace Written

/-- An atom is written as its token. -/
theorem atom {token : Token} {d : Datum} (h : token.Writes d) (hlong : ¬token.IsTooLong)
    (hline : newline ∉ token.lexeme) : Written token.lexeme d 0 :=
  ⟨⟨[token], .token h.stands, .atom h.denotes, by simpa using hlong⟩, hline⟩

/-- A quotation mark in front of a datum. A comma is followed by no at sign. -/
theorem quoted (token : Token) {symbol t : Text} {d : Datum} {n : Nat} (hq : token.IsQuotation symbol)
    (hstands : ∀ more, Stands token (t ++ more)) (hline : newline ∉ token.lexeme)
    (h : Written t d n) : Written (token.lexeme ++ t) (.prefixed symbol d) (n + 1) := by
  obtain ⟨ts, hts, hd, hlong⟩ := h.exists_tokens
  refine ⟨⟨token :: ts, hts.quoted hstands, .quoted hq hd, ?_⟩, ?_⟩
  · refine List.forall_mem_cons.mpr ⟨?_, hlong⟩
    rintro ⟨hk, _⟩
    rcases hq.1 with h | h <;> simp [hk] at h
  · simp [hline, h.oneLine]

end Written

namespace WrittenRow

theorem nil : WrittenRow [] [] 0 where
  exists_tokens := ⟨[], fun _ _ => .nil, .nil, by simp⟩
  oneLine := by simp
  closes _ h := h

/-- A row of data with one more in front. -/
theorem cons {t u : Text} {d : Datum} {ds : List Datum} {n m : Nat} (h : Written t d n)
    (h' : WrittenRow u ds m) : WrittenRow (text " " ++ t ++ u) (d :: ds) (max n m) := by
  obtain ⟨ts, hts, hd, hlong⟩ := h.exists_tokens
  obtain ⟨us, hus, hds, hlong'⟩ := h'.exists_tokens
  refine ⟨⟨ts ++ us, ?_, .cons hd hds, ?_⟩, ?_, ?_⟩
  · intro more hmore
    have hfirst := hts _ (h'.closes more hmore)
    have hspace := hfirst.prepend gap_space hd.ne_nil
    have hrow := hspace.append (hus more hmore)
    simp only [List.append_assoc] at hrow ⊢
    exact hrow
  · intro token htoken
    exact (List.mem_append.mp htoken).elim (hlong token) (hlong' token)
  · have hspace : newline ∉ text " " := by decide
    simp [hspace, h.oneLine, h'.oneLine]
  · exact fun more _ => closes_space _

end WrittenRow

namespace Written

/-- The empty list is written as a pair of parentheses. -/
theorem empty : Written (text "()") .nil 2 := by
  have hlist : Denotes [⟨.openParen, text "("⟩, ⟨.closeParen, text ")"⟩] (.ofList []) 2 :=
    .list rfl rfl .nil
  refine ⟨⟨_, fun more _ => ?_, hlist, by simp [IsTooLong]⟩, by decide⟩
  exact .cons .nil .openParen (.cons .nil .closeParen .nil)

/-- A list is written as its items between parentheses. -/
theorem list {t u : Text} {d : Datum} {ds : List Datum} {n m : Nat} (h : Written t d n)
    (h' : WrittenRow u ds m) :
    Written (text "(" ++ t ++ (u ++ text ")")) (.ofList (d :: ds)) (max n m + 2) := by
  obtain ⟨ts, hts, hd, hlong⟩ := h.exists_tokens
  obtain ⟨us, hus, hds, hlong'⟩ := h'.exists_tokens
  have hlist : Denotes (⟨.openParen, text "("⟩ :: (ts ++ us ++ [⟨.closeParen, text ")"⟩])) _ _ :=
    .list rfl rfl (.cons hd hds)
  have hspelled := hts.list (.append hus h'.closes .close)
  rw [← List.append_assoc] at hspelled
  refine ⟨⟨_, hspelled, hlist, ?_⟩, ?_⟩
  · simp only [List.append_assoc, List.mem_cons, List.mem_append, List.not_mem_nil, or_false]
    rintro token (rfl | htoken | htoken | rfl)
    · simp [IsTooLong]
    · exact hlong token htoken
    · exact hlong' token htoken
    · simp [IsTooLong]
  · have hparens : newline ∉ text "(" ∧ newline ∉ text ")" := by decide
    simp [hparens, h.oneLine, h'.oneLine]

/-- A dotted list is written with a dot in front of its tail. -/
theorem dotted {t u w : Text} {d e : Datum} {ds : List Datum} {n m k : Nat} (h : Written t d n)
    (h' : WrittenRow u ds m) (h'' : Written w e k) :
    Written (text "(" ++ t ++ (u ++ (text " . " ++ w ++ text ")"))) (.ofItems (d :: ds) e)
      (max (max n m) k + 2) := by
  obtain ⟨ts, hts, hd, hlong⟩ := h.exists_tokens
  obtain ⟨us, hus, hds, hlong'⟩ := h'.exists_tokens
  obtain ⟨ws, hws, he, hlong''⟩ := h''.exists_tokens
  have hlist : Denotes (⟨.openParen, text "("⟩ ::
      (ts ++ us ++ ⟨.symbol, text "."⟩ :: (ws ++ [⟨.closeParen, text ")"⟩]))) _ _ :=
    .dotted rfl ⟨rfl, rfl⟩ rfl (.cons hd hds) (List.cons_ne_nil _ _) he
  have hspelled := hts.list (.append hus h'.closes (.dotted hws he.ne_nil))
  rw [← List.append_assoc] at hspelled
  refine ⟨⟨_, hspelled, hlist, ?_⟩, ?_⟩
  · simp only [List.append_assoc, List.mem_cons, List.mem_append, List.not_mem_nil, or_false]
    rintro token (rfl | htoken | htoken | rfl | htoken | rfl)
    · simp [IsTooLong]
    · exact hlong token htoken
    · exact hlong' token htoken
    · exact not_isTooLong_of_parse parse_dot
    · exact hlong'' token htoken
    · simp [IsTooLong]
  · have hparens : newline ∉ text "(" ∧ newline ∉ text ")" ∧ newline ∉ text " . " := by decide
    simp [hparens, h.oneLine, h'.oneLine, h''.oneLine]

end Written

/-! ### Atoms -/

/-- A name that is read back as the symbol of that name: a word that is no dot, truth value or numeral
and begins neither a block comment nor a character literal. -/
structure IsReadableName (w : Text) : Prop where
  /-- The name is not empty and has no delimiter. -/
  word : IsWord w
  notDot : w ≠ text "."
  noBlock : ¬[('#' : CodePoint), '|'] <+: w
  noLiteral : ¬[('#' : CodePoint), '\\'] <+: w
  notBoolean : w ∉ booleanTexts
  notNumeral : Numeral.parse w = .ok none

/-- An atom that has a written form in a store. -/
def Atom.IsReadable (s : Store) : Atom → Prop
  | .int n => fitsDecimal n.natAbs = true
  | .bool _ | .char _ => True
  | .str buffer => buffer < s.buffers.size
  | .sym name => IsReadableName name
  | _ => False

theorem newline_isDelimiter : CodePoint.isDelimiter newline = true := by decide

/-- A word is on one line. -/
theorem Token.IsWord.oneLine {w : Text} (h : IsWord w) : newline ∉ w := by
  intro hmem
  have hnot := h.2 _ hmem
  rw [newline_isDelimiter] at hnot
  simp at hnot

/-- A readable name is a token. -/
theorem writes_name {w : Text} (h : IsReadableName w) : Writes ⟨.symbol, w⟩ (.sym w) := by
  refine ⟨fun more hmore => ?_, .name h.notNumeral h.notDot⟩
  refine .symbol h.word h.notBoolean ?_ h.noBlock (fun hp => absurd hp h.noLiteral) hmore.endsWord
  intro n hn
  have hparse := Numeral.parse_of_radixWord hn
  rw [h.notNumeral] at hparse
  simp at hparse

/-- A readable name is written as itself. -/
theorem written_name {w : Text} (h : IsReadableName w) : Written w (.sym w) 0 :=
  .atom (writes_name h) (not_isTooLong_of_parse h.notNumeral) h.word.oneLine

/-- The code points of a decimal text are digits and minus signs. -/
theorem mem_integerText {n : Int} {c : CodePoint} (h : c ∈ integerText 10 n) :
    c = '-' ∨ ∃ d < 10, c = digitCode d := by
  have hdigits := (Numeral.natDigits_ten n.natAbs).2.1
  unfold integerText at h
  split at h
  · rcases List.mem_cons.mp h with h | h
    · exact Or.inl h
    · exact Or.inr (hdigits c h)
  · exact Or.inr (hdigits c h)

theorem integerText_ne_nil (n : Int) : integerText 10 n ≠ [] := by
  unfold integerText
  split
  · exact List.cons_ne_nil _ _
  · exact (Numeral.natDigits_ten n.natAbs).1

/-- The code points of a decimal text delimit nothing and are no marks. -/
theorem plain_of_mem_integerText {n : Int} {c : CodePoint} (h : c ∈ integerText 10 n) :
    c.isDelimiter = false ∧ c ≠ '#' ∧ c ≠ '@' := by
  have hdigit : ∀ d < 10, (digitCode d).isDelimiter = false ∧ digitCode d ≠ '#' ∧ digitCode d ≠ '@' := by
    decide
  rcases mem_integerText h with rfl | ⟨d, hd, rfl⟩
  · decide
  · exact hdigit d hd

theorem isWord_integerText (n : Int) : IsWord (integerText 10 n) :=
  ⟨integerText_ne_nil n, fun _ hc => (plain_of_mem_integerText hc).1⟩

/-- A decimal integer is a token. -/
theorem writes_integer (n : Int) : Writes ⟨.symbol, integerText 10 n⟩ (.int n) := by
  refine ⟨fun more hmore => ?_, .integer (Numeral.decimalWord_integerText n)⟩
  refine stands_symbol_of_not_hash (isWord_integerText n) (fun hhash => ?_) hmore.endsWord
  exact (plain_of_mem_integerText (List.mem_of_mem_head? hhash)).2.1 rfl

/-- An integer of not too many digits is written in decimal. -/
theorem written_integer {n : Int} (h : fitsDecimal n.natAbs = true) :
    Written (integerText 10 n) (.int n) 0 := by
  have hcount : (natDigits 10 n.natAbs).length ≤ maxDecimalDigits := by
    simp only [fitsDecimal, Bool.and_eq_true, decide_eq_true_eq] at h
    exact h.2
  have hparse := Numeral.parse_of_decimalWord (Numeral.decimalWord_integerText n)
  rw [if_neg (Nat.not_lt_of_le hcount)] at hparse
  exact .atom (writes_integer n) (not_isTooLong_of_parse hparse) (isWord_integerText n).oneLine

/-- A truth value is a token. -/
theorem writes_boolean (b : Bool) : Writes ⟨.boolean, booleanText b⟩ (.bool b) := by
  have hmem : (booleanText b, b) ∈ booleanWords := by cases b <;> decide
  exact ⟨fun _ hmore => .boolean (List.mem_map_of_mem hmem) hmore.endsWord, .boolean hmem⟩

/-- The two truth values are written with a mark. -/
theorem written_boolean (b : Bool) : Written (booleanText b) (.bool b) 0 :=
  .atom (writes_boolean b) (by simp [IsTooLong]) (by cases b <;> decide)

/-- No datum ends within the name of a character. -/
theorem second_of_mem_nameTexts {name : Text} (h : name ∈ nameTexts) :
    ∃ a b t, name = a :: b :: t ∧ ¬(b = ' ' ∨ b = ')' ∨ b = newline) := by
  have hcases : name = text "newline" ∨ name = text "space" ∨ name = text "tab" ∨
      name = text "return" := by
    simpa [nameTexts, characterNames] using h
  rcases hcases with rfl | rfl | rfl | rfl <;> exact ⟨_, _, _, rfl, by decide⟩

/-- The name of a character or the character itself is a token. -/
theorem writes_character (c : CodePoint) : Writes ⟨.character, writtenCharacter c⟩ (.char c) := by
  unfold writtenCharacter
  cases hlookup : writtenNames.lookup c with
  | some name =>
    have hmem : (c, name) ∈ writtenNames := (Reader.lookup_eq_some_iff_mem (by decide)).mp hlookup
    have hread : (name, c) ∈ characterNames := by
      simp only [writtenNames, List.mem_cons, Prod.mk.injEq, List.not_mem_nil, or_false] at hmem
      rcases hmem with ⟨rfl, rfl⟩ | ⟨rfl, rfl⟩ | ⟨rfl, rfl⟩ <;> decide
    exact ⟨fun more _ => .named (List.mem_map_of_mem hread), .named hread⟩
  | none =>
    refine ⟨fun more hmore => .single fun name hname hprefix => ?_, .single⟩
    obtain ⟨a, b, t, rfl, hb⟩ := second_of_mem_nameTexts hname
    obtain ⟨u, hu⟩ := hprefix
    obtain ⟨_, rfl⟩ := List.cons.inj hu
    exact hb (hmore b rfl)

/-- A line feed is written by its name. -/
theorem newline_not_mem_writtenCharacter (c : CodePoint) : newline ∉ writtenCharacter c := by
  have hmark : newline ∉ text "#\\" := by decide
  unfold writtenCharacter
  cases hlookup : writtenNames.lookup c with
  | some name =>
    have hmem : (c, name) ∈ writtenNames := (Reader.lookup_eq_some_iff_mem (by decide)).mp hlookup
    have hname : ∀ e ∈ writtenNames, newline ∉ e.2 := by decide
    simp [hmark, hname _ hmem]
  | none =>
    have hc : newline ≠ c := by
      rintro rfl
      exact absurd hlookup (by decide)
    simp [hmark, hc]

/-- A character is written by its name or as itself. -/
theorem written_character (c : CodePoint) : Written (writtenCharacter c) (.char c) 0 :=
  .atom (writes_character c) (by simp [IsTooLong]) (newline_not_mem_writtenCharacter c)

/-- A code point is written in a string as itself or as an escape that is known. -/
theorem escaped_cases (c : CodePoint) :
    (escaped c = [c] ∧ c ≠ '"' ∧ c ≠ '\\' ∧ c ≠ newline) ∨
      ∃ letter, escaped c = [('\\' : CodePoint), letter] ∧ (letter, c) ∈ Reader.escapeMeanings ∧
        letter ≠ newline := by
  unfold escaped
  cases hlookup : stringEscapes.lookup c with
  | some letter =>
    have hmem : (c, letter) ∈ stringEscapes := (Reader.lookup_eq_some_iff_mem (by decide)).mp hlookup
    refine Or.inr ⟨letter, rfl, ?_⟩
    simp only [stringEscapes, List.mem_cons, Prod.mk.injEq, List.not_mem_nil, or_false] at hmem
    rcases hmem with ⟨rfl, rfl⟩ | ⟨rfl, rfl⟩ | ⟨rfl, rfl⟩ | ⟨rfl, rfl⟩ | ⟨rfl, rfl⟩ <;> decide
  | none =>
    refine Or.inl ⟨rfl, ?_, ?_, ?_⟩ <;> rintro rfl <;> revert hlookup <;> decide

/-- A written string is closed, on one line, and its escapes give its content back. -/
theorem flatMap_escaped_spec (content : Text) :
    StringRest (content.flatMap escaped ++ [('"' : CodePoint)]) ∧
      Unescapes (content.flatMap escaped) content ∧ newline ∉ content.flatMap escaped := by
  induction content with
  | nil => exact ⟨.close, .nil, by simp⟩
  | cons c content ih =>
    obtain ⟨hrest, hunescapes, hline⟩ := ih
    rw [List.flatMap_cons, List.append_assoc]
    rcases escaped_cases c with ⟨he, hquote, hslash, hfeed⟩ | ⟨letter, he, hmem, hfeed⟩
    · rw [he]
      refine ⟨.plain hquote hslash hrest, .plain hslash hunescapes, ?_⟩
      simp [hfeed.symm, hline]
    · rw [he]
      refine ⟨.escape hrest, .escape hmem hunescapes, ?_⟩
      have hmark : newline ≠ ('\\' : CodePoint) := by decide
      simp [hfeed.symm, hmark, hline]

/-- A string between quotation marks is a token. -/
theorem writes_string (content : Text) : Writes ⟨.string, writtenString content⟩ (.str content) := by
  obtain ⟨hrest, hunescapes, _⟩ := flatMap_escaped_spec content
  exact ⟨fun _ _ => .string hrest, .string hunescapes⟩

/-- A string is written between quotation marks. -/
theorem written_string (content : Text) : Written (writtenString content) (.str content) 0 := by
  have hline := (flatMap_escaped_spec content).2.2
  have hquote : newline ∉ text "\"" := by decide
  exact .atom (writes_string content) (by simp [IsTooLong]) (by simp [writtenString, hquote, hline])

/-- A readable atom is written as a token that denotes it. -/
theorem written_atom {s : Store} {a : Atom} (h : a.IsReadable s) :
    Written ((s.atomDatum a).printAtom .write) (s.atomDatum a) 0 := by
  cases a with
  | int n => exact written_integer h
  | bool b => exact written_boolean b
  | sym name => exact written_name h
  | str buffer => exact written_string (s.content buffer)
  | char c => exact written_character c
  | _ => exact h.elim

/-! ### Values -/

namespace Value

/-- A list that is written with a comma directly in front of an at sign, which is another mark. -/
def MergesMarks (head : Value) (rest : List Value) (last : Option Atom) : Prop :=
  ∃ name, head = .sym (text "unquote") ∧ rest = [.sym name] ∧ last = none ∧
    name.head? = some ('@' : CodePoint)

mutual

/-- A value that has a written form in a store: its atoms have one, and no marks merge. -/
def IsReadable (s : Store) : Value → Prop
  | .atom a => a.IsReadable s
  | .nil => True
  | .list _ head rest last =>
    ¬MergesMarks head rest last ∧ head.IsReadable s ∧ RowIsReadable s rest ∧ ∀ a ∈ last, a.IsReadable s

/-- A row of values that have a written form. -/
def RowIsReadable (s : Store) : List Value → Prop
  | [] => True
  | v :: vs => v.IsReadable s ∧ RowIsReadable s vs

end

mutual

/-- The nesting of a value as the reader counts it. -/
def nesting : Value → Nat
  | .atom _ => 0
  | .nil => 2
  | .list _ head rest last =>
    if hasShorthand head rest last then rowNesting rest + 1 else max head.nesting (rowNesting rest) + 2

/-- The nesting of the deepest value of a row. -/
def rowNesting : List Value → Nat
  | [] => 0
  | v :: vs => max v.nesting (rowNesting vs)

end

theorem rowIsReadable_iff {s : Store} {vs : List Value} :
    RowIsReadable s vs ↔ ∀ v ∈ vs, v.IsReadable s := by
  induction vs with
  | nil => simp [RowIsReadable]
  | cons v vs ih => rw [RowIsReadable, ih, List.forall_mem_cons]

theorem nesting_le_rowNesting {v : Value} {vs : List Value} (h : v ∈ vs) :
    v.nesting ≤ rowNesting vs := by
  induction vs with
  | nil => simp at h
  | cons w vs ih =>
    rw [rowNesting]
    rcases List.mem_cons.mp h with rfl | h
    · exact Nat.le_max_left _ _
    · exact Nat.le_trans (ih h) (Nat.le_max_right _ _)

end Value

namespace Store

/-- The ending of a list as a datum. -/
def endingDatum (s : Store) : Option Atom → Datum
  | none => .nil
  | some a => s.atomDatum a

theorem datum_list (s : Store) (id : ObjectId) (head : Value) (rest : List Value) (last : Option Atom) :
    s.datum (.list id head rest last) = .pair (s.datum head) (s.rowDatum rest (s.endingDatum last)) := by
  cases last <;> rfl

/-- A row of values in front of an ending is their data in front of it. -/
theorem rowDatum_eq_ofItems (s : Store) (vs : List Value) (last : Datum) :
    s.rowDatum vs last = .ofItems (vs.map s.datum) last := by
  induction vs with
  | nil => rfl
  | cons v vs ih =>
    rw [rowDatum, ih]
    rfl

theorem print_atomDatum (s : Store) (mode : PrintMode) (a : Atom) :
    (s.atomDatum a).print mode = (s.atomDatum a).printAtom mode := by
  cases a <;> rfl

/-- The text of a row of values, each with a space in front. -/
def rowText (s : Store) (mode : PrintMode) (vs : List Value) : Text :=
  vs.flatMap fun v => text " " ++ (s.datum v).print mode

/-- The text of the ending of a list, through its closing parenthesis. -/
def endingText (s : Store) (mode : PrintMode) : Option Atom → Text
  | none => text ")"
  | some a => text " . " ++ (s.atomDatum a).printAtom mode ++ text ")"

theorem printRest_rowDatum (s : Store) (mode : PrintMode) (vs : List Value) (last : Option Atom) :
    (s.rowDatum vs (s.endingDatum last)).printRest mode = s.rowText mode vs ++ s.endingText mode last := by
  induction vs with
  | nil =>
    cases last with
    | none => rfl
    | some a => cases a <;> rfl
  | cons v vs ih =>
    rw [rowDatum, Datum.printRest, ih, rowText, rowText, List.flatMap_cons]
    simp only [List.append_assoc]

/-- A list is printed with a shorthand exactly when it has one as a value. -/
theorem shorthand?_cases (s : Store) (head : Value) (rest : List Value) (last : Option Atom) :
    (∃ name mark v, head = .sym name ∧ rest = [v] ∧ last = none ∧ (name, mark) ∈ shorthands ∧
      Value.hasShorthand head rest last = true ∧
      Datum.shorthand? (s.datum head) (s.rowDatum rest (s.endingDatum last)) = some mark) ∨
    Value.hasShorthand head rest last = false ∧
      Datum.shorthand? (s.datum head) (s.rowDatum rest (s.endingDatum last)) = none := by
  cases head with
  | nil => exact Or.inr ⟨rfl, rfl⟩
  | list _ _ _ last => cases last <;> exact Or.inr ⟨rfl, rfl⟩
  | atom a =>
    cases a with
    | sym name =>
      rcases rest with _ | ⟨v, _ | ⟨w, rest⟩⟩
      · cases last with
        | none => exact Or.inr ⟨rfl, rfl⟩
        | some a => cases a <;> exact Or.inr ⟨rfl, rfl⟩
      · cases last with
        | none =>
          have hshort : Value.hasShorthand (.sym name) [v] none = (shorthands.lookup name).isSome := rfl
          cases hlookup : shorthands.lookup name with
          | none => exact Or.inr ⟨by rw [hshort, hlookup]; rfl, hlookup⟩
          | some mark =>
            have hmem := (Reader.lookup_eq_some_iff_mem (by decide)).mp hlookup
            exact Or.inl ⟨name, mark, v, rfl, rfl, rfl, hmem, by rw [hshort, hlookup]; rfl, hlookup⟩
        | some a => cases a <;> exact Or.inr ⟨rfl, rfl⟩
      · exact Or.inr ⟨rfl, rfl⟩
    | _ => exact Or.inr ⟨rfl, rfl⟩

end Store

/-! ### Readable values are written -/

/-- A written form is not empty, and only that of a symbol begins with an at sign. -/
theorem exists_head_written {s : Store} {v : Value} (h : v.IsReadable s) :
    ∃ c t, (s.datum v).print .write = c :: t ∧ (c = '@' → ∃ name, v = .sym name) := by
  cases v with
  | nil => exact ⟨'(', text ")", rfl, fun hc => absurd hc (by decide)⟩
  | list id head rest last =>
    rw [Store.datum_list, Datum.print]
    rcases s.shorthand?_cases head rest last with ⟨name, mark, v, _, _, _, hmem, _, hs⟩ | ⟨_, hs⟩
    · have hmark : ∃ c t, mark = c :: t ∧ c ≠ '@' := by
        simp only [shorthands, List.mem_cons, Prod.mk.injEq, List.not_mem_nil, or_false] at hmem
        rcases hmem with ⟨_, rfl⟩ | ⟨_, rfl⟩ | ⟨_, rfl⟩ | ⟨_, rfl⟩ <;> exact ⟨_, _, rfl, by decide⟩
      obtain ⟨c, t, rfl, hc⟩ := hmark
      rw [hs]
      exact ⟨c, _, rfl, fun he => absurd he hc⟩
    · rw [hs]
      exact ⟨'(', _, rfl, fun hc => absurd hc (by decide)⟩
  | atom a =>
    rw [Store.datum, Store.print_atomDatum]
    cases a with
    | int n =>
      obtain ⟨c, t, he⟩ := List.exists_cons_of_ne_nil (integerText_ne_nil n)
      have hc : c ∈ integerText 10 n := by rw [he]; exact List.mem_cons_self
      exact ⟨c, t, he, fun hat => absurd hat (plain_of_mem_integerText hc).2.2⟩
    | bool b =>
      have hmark : ∀ b, ∃ t, booleanText b = ('#' : CodePoint) :: t := by
        intro b
        cases b <;> exact ⟨_, rfl⟩
      obtain ⟨t, ht⟩ := hmark b
      exact ⟨'#', t, ht, fun hc => absurd hc (by decide)⟩
    | sym name =>
      obtain ⟨c, t, he⟩ := List.exists_cons_of_ne_nil h.word.1
      exact ⟨c, t, he, fun _ => ⟨name, rfl⟩⟩
    | str buffer => exact ⟨'"', _, rfl, fun hc => absurd hc (by decide)⟩
    | char c => exact ⟨'#', _, rfl, fun hc => absurd hc (by decide)⟩
    | _ => exact h.elim

/-- The mark of a shorthand is a quotation mark in front of whatever it does not merge with. -/
theorem stands_shorthand {name mark : Text} (h : (name, mark) ∈ shorthands) :
    ∃ kind, IsQuotation ⟨kind, mark⟩ name ∧ newline ∉ mark ∧ ∀ more,
      (name = text "unquote" → more.head? ≠ some ('@' : CodePoint)) → Stands ⟨kind, mark⟩ more := by
  simp only [shorthands, List.mem_cons, Prod.mk.injEq, List.not_mem_nil, or_false] at h
  rcases h with ⟨rfl, rfl⟩ | ⟨rfl, rfl⟩ | ⟨rfl, rfl⟩ | ⟨rfl, rfl⟩
  · exact ⟨.quote, ⟨Or.inl rfl, by decide⟩, by decide, fun more _ => .quote (Or.inl rfl)⟩
  · exact ⟨.quote, ⟨Or.inl rfl, by decide⟩, by decide, fun more _ => .quote (Or.inr rfl)⟩
  · exact ⟨.unquote, ⟨Or.inr rfl, by decide⟩, by decide, fun more hmore => .unquote (hmore rfl)⟩
  · exact ⟨.unquote, ⟨Or.inr rfl, by decide⟩, by decide, fun more _ => .splice⟩

mutual

/-- The written form of a readable value is read as its datum. -/
theorem written_of_isReadable (s : Store) : ∀ v : Value, v.IsReadable s →
    Written ((s.datum v).print .write) (s.datum v) v.nesting
  | .atom a, h => by
    rw [Store.datum, Store.print_atomDatum]
    exact written_atom h
  | .nil, _ => Written.empty
  | .list id head rest last, ⟨hmerge, hhead, hrest, hlast⟩ => by
    have hwrittenHead := written_of_isReadable s head hhead
    have hwrittenRest := writtenRow_of_isReadable s rest hrest
    rw [Store.datum_list, Datum.print, Value.nesting]
    rcases s.shorthand?_cases head rest last with
      ⟨name, mark, v, rfl, rfl, rfl, hmem, hshort, hs⟩ | ⟨hshort, hs⟩
    · have hwritten := written_of_isReadable s v hrest.1
      obtain ⟨kind, hq, hline, hstands⟩ := stands_shorthand hmem
      simp only [hs, hshort, if_true, Value.rowNesting, Nat.max_zero]
      refine Written.quoted ⟨kind, mark⟩ hq (fun more => hstands _ ?_) hline hwritten
      -- A comma and an at sign would be read as one mark; readable values exclude this.
      rintro rfl hat
      obtain ⟨c, t, he, hc⟩ := exists_head_written hrest.1
      have hsecond : Datum.printSecond .write (s.rowDatum [v] (s.endingDatum none)) = c :: t := he
      rw [hsecond] at hat
      obtain rfl := Option.some.inj hat
      obtain ⟨name, rfl⟩ := hc rfl
      have hname : name = ('@' : CodePoint) :: t := he
      exact hmerge ⟨name, rfl, rfl, rfl, by rw [hname]; rfl⟩
    · simp only [hs, hshort, Bool.false_eq_true, if_false, Store.printRest_rowDatum]
      rw [Store.rowDatum_eq_ofItems]
      cases last with
      | none => exact hwrittenHead.list hwrittenRest
      | some a =>
        have hdotted := hwrittenHead.dotted hwrittenRest (written_atom (hlast a rfl))
        rwa [Nat.max_zero] at hdotted

/-- The written forms of a row of readable values are read as their data. -/
theorem writtenRow_of_isReadable (s : Store) : ∀ vs : List Value, Value.RowIsReadable s vs →
    WrittenRow (s.rowText .write vs) (vs.map s.datum) (Value.rowNesting vs)
  | [], _ => .nil
  | v :: vs, ⟨hv, hvs⟩ => .cons (written_of_isReadable s v hv) (writtenRow_of_isReadable s vs hvs)

end

end Lisplet
