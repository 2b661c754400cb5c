import Lisplet.Proofs.Copies
import Lisplet.Proofs.FloatTexts

/-!
# The tokens of printed data

A printed datum is made of tokens: those of its atoms, its parentheses and dots, and the marks of its
shorthands. They stand where they are printed unless a comma stands directly in front of an at sign, and
they tell the datum but for the signs of its NaNs, since each of them is a mark of one kind and an atom is
known from its token.
-/

namespace Lisplet

open Token

/-- A text that is made of tokens is not empty. -/
theorem Token.Spells.ne_nil {ts : List Token} {t rest : Text} (h : Spells ts t rest) (hne : ts ≠ []) :
    t ≠ [] := by
  cases h with
  | nil => exact absurd rfl hne
  | cons _ hstands _ =>
    exact List.append_ne_nil_of_right_ne_nil _ (List.append_ne_nil_of_left_ne_nil hstands.lexeme_ne_nil _)

/-- A decimal integer has one value. -/
theorem Numeral.DecimalWord.unique {w : Text} {n m : ℤ} {count count' : ℕ} (h : DecimalWord w n count)
    (h' : DecimalWord w m count') : n = m := by
  have hsplit : ∀ {n count}, DecimalWord w n count →
      n = signed (splitSign w).1 (decimalValue (splitSign w).2) := by
    rintro n count ⟨hsign, -, hdigits⟩
    rw [splitSign_of_decimals hsign hdigits]
  rw [hsplit h, hsplit h']

/-- A token denotes one atom. -/
theorem Token.DenotesAtom.unique {token : Token} {d e : Datum} (h : DenotesAtom token d)
    (h' : DenotesAtom token e) : d = e := by
  by_cases hlong : token.IsTooLong
  · obtain ⟨hsymbol, hword⟩ := hlong
    have herror := Numeral.parse_eq_error_iff.mpr hword
    cases h with
    | integer hw =>
      cases h' with
      | integer hw' => rw [hw.unique hw']
      | numeral hp => simp [hp] at herror
      | name hp => simp [hp] at herror
    | numeral hp => simp [hp] at herror
    | name hp => simp [hp] at herror
    | _ => simp at hsymbol
  · have hatom := Reader.atom?_of_denotesAtom h hlong
    rw [Reader.atom?_of_denotesAtom h' hlong] at hatom
    exact (Except.ok.inj hatom).symm

namespace Datum

/-! ### Data that can be printed and read -/

/-- A datum whose symbols have names of some class, with nothing in it that no source spells and no NaN
but the two that have a name. -/
def HasNames (names : Text → Prop) : Datum → Prop
  | float x => x.isNaN = false
  | sym w => names w
  | pair head tail => head.HasNames names ∧ tail.HasNames names
  | unreadable _ => False
  | _ => True

theorem HasNames.imp {names names' : Text → Prop} (h : ∀ w, names w → names' w) {d : Datum}
    (hd : d.HasNames names) : d.HasNames names' := by
  induction d with
  | sym w => exact h w hd
  | pair head tail ih ih' => exact ⟨ih hd.1, ih' hd.2⟩
  | float | unreadable => exact hd
  | _ => trivial

/-- A list that is printed as a comma and a symbol whose name begins with an at sign: together they look
like another mark. -/
def Merges (head tail : Datum) : Prop :=
  ∃ name, head = sym (text "unquote") ∧ tail = pair (sym name) nil ∧ name.head? = some ('@' : CodePoint)

mutual

/-- No marks merge where a datum is printed. -/
def KeepsMarks : Datum → Prop
  | pair head tail => ¬Merges head tail ∧ KeepsMarks head ∧ RestKeepsMarks tail
  | _ => True

/-- No marks merge in what is printed behind the head of a list. -/
def RestKeepsMarks : Datum → Prop
  | pair head tail => KeepsMarks head ∧ RestKeepsMarks tail
  | _ => True

end

/-! ### Tokens -/

/-- The token that an atom is printed as. -/
def token : Datum → Token
  | bool b => ⟨.boolean, booleanText b⟩
  | char c => ⟨.character, writtenCharacter c⟩
  | str content => ⟨.string, writtenString content⟩
  | d => ⟨.symbol, d.printAtom .write⟩

/-- The mark of a shorthand. -/
def markToken (mark : Text) : Token :=
  ⟨if mark.head? = some (',' : CodePoint) then .unquote else .quote, mark⟩

mutual

/-- The tokens of a printed datum. -/
def tokens : Datum → List Token
  | pair head tail =>
    match shorthand? head tail with
    | some mark => markToken mark :: secondTokens tail
    | none => ⟨.openParen, text "("⟩ :: (tokens head ++ restTokens tail)
  | nil => [⟨.openParen, text "("⟩, ⟨.closeParen, text ")"⟩]
  | d => [d.token]

/-- The tokens of what is printed behind the head of a list. -/
def restTokens : Datum → List Token
  | pair head tail => tokens head ++ restTokens tail
  | nil => [⟨.closeParen, text ")"⟩]
  | d => ⟨.symbol, text "."⟩ :: ([d.token] ++ [⟨.closeParen, text ")"⟩])

/-- The tokens of the head of a pair. -/
def secondTokens : Datum → List Token
  | pair head _ => tokens head
  | _ => []

end

/-- A datum that is no list. -/
def IsAtom : Datum → Prop
  | nil | pair _ _ => False
  | _ => True

theorem tokens_of_isAtom {d : Datum} (h : d.IsAtom) : d.tokens = [d.token] ∧
    d.restTokens = [⟨.symbol, text "."⟩, d.token, ⟨.closeParen, text ")"⟩] ∧
    d.print .write = d.token.lexeme ∧
    d.printRest .write = text " . " ++ d.token.lexeme ++ text ")" := by
  cases d with
  | nil | pair => exact h.elim
  | _ => exact ⟨rfl, rfl, rfl, rfl⟩

/-- A pair is printed with a shorthand if it is a quotation symbol and one more item. -/
theorem shorthand?_cases (head tail : Datum) :
    (∃ name mark d, head = sym name ∧ tail = pair d nil ∧ (name, mark) ∈ shorthands ∧
      shorthand? head tail = some mark) ∨ shorthand? head tail = none := by
  unfold shorthand?
  split
  · next name d =>
    cases hlookup : shorthands.lookup name with
    | none => exact Or.inr rfl
    | some mark =>
      exact Or.inl ⟨name, mark, d, rfl, rfl, (Reader.lookup_eq_some_iff_mem (by decide)).mp hlookup, rfl⟩
  · exact Or.inr rfl

/-- A datum behind a quotation symbol is printed with the mark of the symbol. -/
theorem prefixed_spec {name mark : Text} (h : (name, mark) ∈ shorthands) (d : Datum) :
    (prefixed name d).tokens = markToken mark :: d.tokens ∧
      (prefixed name d).print .write = mark ++ d.print .write := by
  have hs : shorthand? (sym name) (pair d nil) = some mark :=
    (Reader.lookup_eq_some_iff_mem (by decide)).mpr h
  constructor
  · rw [prefixed, tokens, hs, secondTokens]
  · rw [prefixed, print, hs, printSecond]

/-- The four ways of a datum: a shorthand, a list, the empty list, an atom. -/
theorem tokens_cases (d : Datum) :
    (∃ name mark e, d = prefixed name e ∧ (name, mark) ∈ shorthands ∧
      d.tokens = markToken mark :: e.tokens ∧ d.print .write = mark ++ e.print .write) ∨
    (∃ head tail, d = pair head tail ∧
      d.tokens = ⟨.openParen, text "("⟩ :: (head.tokens ++ tail.restTokens) ∧
      d.print .write = text "(" ++ head.print .write ++ tail.printRest .write) ∨
    d = nil ∨ d.IsAtom := by
  cases d with
  | pair head tail =>
    rcases shorthand?_cases head tail with ⟨name, mark, e, rfl, rfl, hmem, -⟩ | hs
    · exact Or.inl ⟨name, mark, e, rfl, hmem, prefixed_spec hmem e⟩
    · refine Or.inr (Or.inl ⟨head, tail, rfl, ?_, ?_⟩)
      · rw [tokens, hs]
      · rw [print, hs]
  | nil => exact Or.inr (Or.inr (Or.inl rfl))
  | _ => exact Or.inr (Or.inr (Or.inr trivial))

/-! ### Layout -/

/-- Only the printed form of a symbol begins with an at sign. -/
theorem exists_sym_of_head {names : Text → Prop} {d : Datum} (h : d.HasNames names)
    (hat : (d.print .write).head? = some ('@' : CodePoint)) : ∃ name, d = sym name := by
  rcases d.tokens_cases with ⟨name, mark, e, rfl, hmem, -, hprint⟩ | ⟨head, tail, rfl, -, hprint⟩ | rfl | hatom
  -- No shorthand begins with an at sign.
  · have hmark : ∀ e ∈ shorthands, e.2 ≠ [] ∧ e.2.head? ≠ some ('@' : CodePoint) := by decide
    obtain ⟨hne, hhead⟩ := hmark _ hmem
    rw [hprint, List.head?_append_of_ne_nil _ hne] at hat
    exact absurd hat hhead
  · have hopen : (text "(" ++ head.print .write ++ tail.printRest .write).head? = some ('(' : CodePoint) := rfl
    rw [hprint, hopen] at hat
    exact absurd hat (by decide)
  · exact absurd hat (by decide)
  · rw [(tokens_of_isAtom hatom).2.2.1] at hat
    cases d with
    | int n =>
      have hplain := plain_of_mem_integerText (List.mem_of_mem_head? hat)
      exact absurd rfl hplain.2.2
    | float x =>
      have hnot := (floatText_spec h).2.1 _ hat
      exact absurd (by decide) hnot
    | bool b => cases b <;> exact absurd hat (by decide)
    | sym name => exact ⟨name, rfl⟩
    | unreadable => exact h.elim
    | nil | pair => exact hatom.elim
    | nan negative =>
      have htext : (nan negative).token.lexeme = text "+nan.0" := rfl
      rw [htext] at hat
      exact absurd hat (by decide)
    | char c => exact absurd (Option.some.inj hat) (by decide)
    | str content => exact absurd (Option.some.inj hat) (by decide)

/-- The mark of a shorthand stands in front of the printed form of a datum that it does not merge with. -/
theorem stands_markToken {names : Text → Prop} {name mark : Text} {d : Datum}
    (hmem : (name, mark) ∈ shorthands) (h : d.HasNames names) (hmarks : (prefixed name d).KeepsMarks)
    (hne : d.print .write ≠ []) (more : Text) : Stands (markToken mark) (d.print .write ++ more) := by
  have hhead : name = text "unquote" → (d.print .write ++ more).head? ≠ some ('@' : CodePoint) := by
    rintro rfl hat
    rw [List.head?_append_of_ne_nil _ hne] at hat
    obtain ⟨name, rfl⟩ := exists_sym_of_head h hat
    exact hmarks.1 ⟨name, rfl, rfl, hat⟩
  simp only [shorthands, List.mem_cons, Prod.mk.injEq, List.not_mem_nil, or_false] at hmem
  rcases hmem with ⟨rfl, rfl⟩ | ⟨rfl, rfl⟩ | ⟨rfl, rfl⟩ | ⟨rfl, rfl⟩
  · exact .quote (Or.inl rfl)
  · exact .quote (Or.inr rfl)
  · exact .unquote (hhead rfl)
  · exact .splice

/-- The token of an atom stands wherever a datum may end behind it. -/
theorem stands_token {d : Datum} (hatom : d.IsAtom) (h : d.HasNames IsReadableName) (more : Text)
    (hmore : Closes more) : Stands d.token more := by
  cases d with
  | int n => exact (writes_integer n).stands more hmore
  | float x =>
    obtain ⟨hword, hhead, -⟩ := floatText_spec h
    exact stands_symbol_of_not_hash hword (fun hhash => hhead _ hhash (by decide)) hmore.endsWord
  | nan negative =>
    have htoken : (nan negative).token = ⟨.symbol, text "+nan.0"⟩ := rfl
    rw [htoken]
    exact stands_symbol_of_not_hash ⟨by decide, by decide⟩ (by decide) hmore.endsWord
  | bool b => exact (writes_boolean b).stands more hmore
  | char c => exact (writes_character c).stands more hmore
  | str content => exact (writes_string content).stands more hmore
  | sym name => exact (writes_name h).stands more hmore
  | unreadable => exact h.elim
  | nil | pair => exact hatom.elim

theorem tokens_ne_nil (d : Datum) : d.tokens ≠ [] := by
  rcases d.tokens_cases with ⟨_, _, _, -, -, htokens, -⟩ | ⟨_, _, -, htokens, -⟩ | rfl | hatom
  · rw [htokens]
    exact List.cons_ne_nil _ _
  · rw [htokens]
    exact List.cons_ne_nil _ _
  · exact List.cons_ne_nil _ _
  · rw [(tokens_of_isAtom hatom).1]
    exact List.cons_ne_nil _ _

mutual

/-- A datum in which no marks merge is printed as its tokens. -/
theorem spelled_print : ∀ d : Datum, d.HasNames IsReadableName → d.KeepsMarks →
    Spelled d.tokens (d.print .write)
  | pair head tail, h, hmarks => by
    have hhead := spelled_print head h.1 hmarks.2.1
    have hrest := spelledRest_print tail h.2 hmarks.2.2
    have hsecond := spelled_printSecond tail h.2 hmarks.2.2
    rw [tokens, print]
    rcases shorthand?_cases head tail with ⟨name, mark, e, rfl, rfl, hmem, hs⟩ | hs
    · have hne := (hsecond [] closes_nil).ne_nil e.tokens_ne_nil
      rw [List.append_nil] at hne
      rw [hs]
      exact hsecond.quoted (stands_markToken hmem h.2.1 hmarks hne)
    · rw [hs]
      exact hhead.list hrest
  | nil, _, _ => fun _ _ => .cons .nil .openParen (.cons .nil .closeParen .nil)
  | int _, h, _ | float _, h, _ | nan _, h, _ | bool _, h, _ | char _, h, _ | str _, h, _ | sym _, h, _ |
    unreadable _, h, _ => .token (stands_token trivial h)

/-- What is printed behind the head of a list ends the list. -/
theorem spelledRest_print : ∀ d : Datum, d.HasNames IsReadableName → d.RestKeepsMarks →
    SpelledRest d.restTokens (d.printRest .write)
  | pair head tail, h, hmarks =>
    .cons (spelled_print head h.1 hmarks.1) head.tokens_ne_nil (spelledRest_print tail h.2 hmarks.2)
  | nil, _, _ => .close
  | int _, h, _ | float _, h, _ | nan _, h, _ | bool _, h, _ | char _, h, _ | str _, h, _ | sym _, h, _ |
    unreadable _, h, _ => .dotted (.token (stands_token trivial h)) (List.cons_ne_nil _ _)

/-- The head of a pair is printed as its tokens. -/
theorem spelled_printSecond : ∀ d : Datum, d.HasNames IsReadableName → d.RestKeepsMarks →
    Spelled d.secondTokens (d.printSecond .write)
  | pair head _, h, hmarks => spelled_print head h.1 hmarks.1
  | nil, _, _ | int _, _, _ | float _, _, _ | nan _, _, _ | bool _, _, _ | char _, _, _ | str _, _, _ |
    sym _, _, _ | unreadable _, _, _ => fun _ _ => .nil

end

/-! ### Atoms are known from their tokens -/

/-- A name that a symbol may have been read with: a readable one, or a hash and a backslash at the end of a
source. -/
def IsReadName (w : Text) : Prop := IsReadableName w ∨ w = text "#\\"

/-- What the token of an atom denotes: the atom itself, but for a float some float, and for a NaN the one
without a sign. -/
inductive Rereads : Datum → Datum → Prop
  | float {x y : Float} : Rereads (float x) (float y)
  | nan {negative : Bool} : Rereads (nan negative) (nan false)
  | same {d : Datum} : (∀ x, d ≠ .float x) → (∀ negative, d ≠ .nan negative) → Rereads d d

theorem exists_denotesAtom {d : Datum} (hatom : d.IsAtom) (h : d.HasNames IsReadName) :
    ∃ e, DenotesAtom d.token e ∧ d.Rereads e := by
  cases d with
  | int n => exact ⟨_, (writes_integer n).denotes, .same nofun nofun⟩
  | float x =>
    obtain ⟨-, -, y, hy⟩ := floatText_spec h
    exact ⟨_, .numeral hy, .float⟩
  | nan negative => exact ⟨_, .numeral (n := .nan false) rfl, .nan⟩
  | bool b => exact ⟨_, (writes_boolean b).denotes, .same nofun nofun⟩
  | char c => exact ⟨_, (writes_character c).denotes, .same nofun nofun⟩
  | str content => exact ⟨_, (writes_string content).denotes, .same nofun nofun⟩
  | sym name =>
    refine ⟨_, ?_, .same nofun nofun⟩
    rcases h with h | rfl
    · exact (writes_name h).denotes
    · exact .name rfl (by decide)
  | unreadable => exact h.elim
  | nil | pair => exact hatom.elim

/-- The value that an atom is made into is known from its token. -/
theorem made_eq_of_token_eq {d e : Datum} (hatom : d.IsAtom) (hatom' : e.IsAtom)
    (h : d.HasNames IsReadName) (h' : e.HasNames IsReadName) (htoken : d.token = e.token) :
    d.made = e.made := by
  obtain ⟨d', hd, hrereads⟩ := exists_denotesAtom hatom h
  obtain ⟨e', he, hrereads'⟩ := exists_denotesAtom hatom' h'
  rw [htoken] at hd
  obtain rfl := hd.unique he
  cases hrereads with
  | float =>
    cases hrereads' with
    | float => rw [floatText_injective h h' (congrArg Token.lexeme htoken)]
    | same hfloat => exact absurd rfl (hfloat _)
  | nan =>
    cases hrereads' with
    | nan => rfl
    | same _ hnot => exact absurd rfl (hnot _)
  | same hfloat hnot =>
    cases hrereads' with
    | float => exact absurd rfl (hfloat _)
    | nan => exact absurd rfl (hnot _)
    | same => rfl

/-! ### Data are known from their tokens -/

theorem weight_token {d : Datum} (h : d.IsAtom) : d.token.weight = 0 := by
  cases d with
  | nil | pair => exact h.elim
  | _ => rfl

theorem weight_markToken (mark : Text) : (markToken mark).weight = 1 := by
  unfold markToken
  split <;> rfl

/-- The first token of a datum neither closes a list nor is its dot. -/
theorem exists_first_token {d : Datum} (h : d.HasNames IsReadName) :
    ∃ token ts, d.tokens = token :: ts ∧ token ≠ ⟨.closeParen, text ")"⟩ ∧ token ≠ ⟨.symbol, text "."⟩ := by
  have hweight : ∀ {token : Token} {n : ℕ} {kind lexeme}, token.weight = n + 1 →
      (⟨kind, lexeme⟩ : Token).weight = 0 → token ≠ ⟨kind, lexeme⟩ := by
    rintro _ n kind lexeme hpos hzero rfl
    omega
  rcases d.tokens_cases with ⟨_, mark, _, -, -, htokens, -⟩ | ⟨_, _, -, htokens, -⟩ | rfl | hatom
  · exact ⟨_, _, htokens, hweight (weight_markToken mark) rfl, hweight (weight_markToken mark) rfl⟩
  · exact ⟨_, _, htokens, hweight rfl rfl, hweight rfl rfl⟩
  · exact ⟨_, _, rfl, hweight rfl rfl, hweight rfl rfl⟩
  · obtain ⟨e, he, -⟩ := exists_denotesAtom hatom h
    refine ⟨_, _, (tokens_of_isAtom hatom).1, fun hclose => ?_, fun hdot => ?_⟩
    · exact he.kind.1.2 (congrArg Token.kind hclose)
    · exact he.kind.2 ⟨congrArg Token.kind hdot, congrArg Token.lexeme hdot⟩

/-- Each mark is the shorthand of one symbol. -/
theorem shorthand_unique {name name' mark : Text} (h : (name, mark) ∈ shorthands)
    (h' : (name', mark) ∈ shorthands) : name = name' := by
  have hall : ∀ e ∈ shorthands, ∀ e' ∈ shorthands, e.2 = e'.2 → e.1 = e'.1 := by decide
  exact hall _ h _ h' rfl

section Injectivity

variable {d e : Datum} {X Y : List Token}

/-- Rows of tokens that begin with tokens of different weights differ. -/
theorem cons_ne_cons {token token' : Token} (h : token.weight ≠ token'.weight) : token :: X ≠ token' :: Y :=
  fun he => h (congrArg Token.weight (List.cons.inj he).1)

/-- No datum begins where a list is closed. -/
theorem tokens_append_ne_close (h : d.HasNames IsReadName) (ts : List Token) :
    d.tokens ++ ts ≠ ⟨.closeParen, text ")"⟩ :: Y := by
  obtain ⟨token, more, htokens, hclose, -⟩ := exists_first_token h
  rw [htokens]
  exact fun he => hclose (List.cons.inj he).1

/-- No datum begins with the dot of a list. -/
theorem tokens_append_ne_dot (h : d.HasNames IsReadName) (ts : List Token) :
    d.tokens ++ ts ≠ ⟨.symbol, text "."⟩ :: Y := by
  obtain ⟨token, more, htokens, -, hdot⟩ := exists_first_token h
  rw [htokens]
  exact fun he => hdot (List.cons.inj he).1

/-- What begins with the token of an atom is that atom, but for the sign of a NaN. -/
theorem made_eq_of_tokens_append_of_isAtom (hatom : d.IsAtom) (h : d.HasNames IsReadName)
    (h' : e.HasNames IsReadName) (htokens : d.tokens ++ X = e.tokens ++ Y) : d.made = e.made ∧ X = Y := by
  have hzero := weight_token hatom
  rw [(tokens_of_isAtom hatom).1] at htokens
  rcases e.tokens_cases with ⟨_, mark, _, -, -, he, -⟩ | ⟨_, _, -, he, -⟩ | rfl | hatom'
  · rw [he] at htokens
    exact absurd htokens (cons_ne_cons (by rw [hzero, weight_markToken]; decide))
  · rw [he] at htokens
    exact absurd htokens (cons_ne_cons (by rw [hzero]; decide))
  · exact absurd htokens (cons_ne_cons (by rw [hzero]; decide))
  · rw [(tokens_of_isAtom hatom').1] at htokens
    obtain ⟨htoken, hrest⟩ := List.cons.inj htokens
    exact ⟨made_eq_of_token_eq hatom hatom' h h' htoken, hrest⟩

/-- What begins with a pair of parentheses is the empty list. -/
theorem eq_nil_of_tokens_append (h' : e.HasNames IsReadName) (htokens : nil.tokens ++ X = e.tokens ++ Y) :
    nil = e ∧ X = Y := by
  rw [tokens] at htokens
  rcases e.tokens_cases with ⟨_, mark, _, -, -, he, -⟩ | ⟨head, tail, rfl, he, -⟩ | rfl | hatom
  · rw [he] at htokens
    exact absurd htokens (cons_ne_cons (by rw [weight_markToken]; decide))
  · rw [he] at htokens
    have hitems : head.tokens ++ tail.restTokens ++ Y = _ := (List.cons.inj htokens).2.symm
    rw [List.append_assoc] at hitems
    exact absurd hitems (tokens_append_ne_close h'.1 _)
  · exact ⟨rfl, (List.cons.inj (List.cons.inj htokens).2).2⟩
  · rw [(tokens_of_isAtom hatom).1] at htokens
    exact absurd htokens (cons_ne_cons (by rw [weight_token hatom]; decide))

/-- What ends a list with a dot and an atom ends it with that atom, but for the sign of a NaN. -/
theorem made_eq_of_restTokens_append_of_isAtom (hatom : d.IsAtom) (h : d.HasNames IsReadName)
    (h' : e.HasNames IsReadName) (htokens : d.restTokens ++ X = e.restTokens ++ Y) :
    d.made = e.made ∧ X = Y := by
  have hdotted : e.IsAtom → d.made = e.made ∧ X = Y := by
    intro hatom'
    rw [(tokens_of_isAtom hatom).2.1, (tokens_of_isAtom hatom').2.1] at htokens
    obtain ⟨htoken, hrest⟩ := List.cons.inj (List.cons.inj htokens).2
    exact ⟨made_eq_of_token_eq hatom hatom' h h' htoken, (List.cons.inj hrest).2⟩
  cases e with
  | pair head tail =>
    rw [(tokens_of_isAtom hatom).2.1, restTokens, List.append_assoc] at htokens
    exact absurd htokens.symm (tokens_append_ne_dot h'.1 _)
  | nil =>
    rw [(tokens_of_isAtom hatom).2.1, restTokens] at htokens
    exact absurd (congrArg Token.kind (List.cons.inj htokens).1) (by decide)
  | _ => exact hdotted trivial

/-- What ends a list with a closing parenthesis alone is no more than its end. -/
theorem eq_nil_of_restTokens_append (h' : e.HasNames IsReadName)
    (htokens : nil.restTokens ++ X = e.restTokens ++ Y) : nil = e ∧ X = Y := by
  rw [restTokens] at htokens
  have hatom : e.IsAtom → nil = e ∧ X = Y := by
    intro hatom
    rw [(tokens_of_isAtom hatom).2.1] at htokens
    exact absurd (congrArg Token.kind (List.cons.inj htokens).1) (by decide)
  cases e with
  | pair head tail =>
    rw [restTokens, List.append_assoc] at htokens
    exact absurd htokens.symm (tokens_append_ne_close h'.1 _)
  | nil => exact ⟨rfl, (List.cons.inj htokens).2⟩
  | _ => exact hatom trivial

mutual

/-- Data are known from their tokens, but for the signs of NaNs, whatever tokens are behind them. -/
theorem made_eq_of_tokens_append : ∀ (d e : Datum) {X Y : List Token}, d.HasNames IsReadName →
    e.HasNames IsReadName → d.tokens ++ X = e.tokens ++ Y → d.made = e.made ∧ X = Y
  | pair head tail, e, X, Y, h, h', htokens => by
    -- The facts about the parts, stated before the parts are known any better.
    have hhead := fun e Y => made_eq_of_tokens_append head e (X := tail.restTokens ++ X) (Y := Y) h.1
    have hrest := fun e => made_eq_of_restTokens_append tail e (X := X) (Y := Y) h.2
    have hsecond := fun e => made_eq_of_secondTokens_append tail e (X := X) (Y := Y) h.2
    have hatom : e.IsAtom → (pair head tail).made = e.made ∧ X = Y := fun hatom =>
      (made_eq_of_tokens_append_of_isAtom hatom h' h htokens.symm).imp Eq.symm Eq.symm
    rcases shorthand?_cases head tail with ⟨name, mark, d, rfl, rfl, hmem, hs⟩ | hs
    · rcases e.tokens_cases with ⟨name', mark', e, rfl, hmem', he, -⟩ | ⟨_, _, -, he, -⟩ | rfl | he
      · rw [tokens, hs, he, List.cons_append, List.cons_append] at htokens
        obtain ⟨hmarks, hitems⟩ := List.cons.inj htokens
        obtain rfl : mark = mark' := congrArg Token.lexeme hmarks
        obtain ⟨hd, hmore⟩ := hsecond e h'.2.1 hitems d rfl
        obtain rfl := shorthand_unique hmem hmem'
        exact ⟨by simp only [prefixed, made, hd], hmore⟩
      · rw [tokens, hs, he] at htokens
        exact absurd htokens (cons_ne_cons (by rw [weight_markToken]; decide))
      · rw [tokens, hs] at htokens
        exact absurd htokens (cons_ne_cons (by rw [weight_markToken]; decide))
      · exact hatom he
    · rcases e.tokens_cases with ⟨_, mark, _, -, -, he, -⟩ | ⟨head', tail', rfl, he, -⟩ | rfl | he
      · rw [tokens, hs, he] at htokens
        exact absurd htokens (cons_ne_cons (by rw [weight_markToken]; decide))
      · rw [tokens, hs, he, List.cons_append, List.cons_append, List.append_assoc,
          List.append_assoc] at htokens
        obtain ⟨hd, htail⟩ := hhead head' _ h'.1 (List.cons.inj htokens).2
        obtain ⟨hd', hmore⟩ := hrest tail' h'.2 htail
        exact ⟨by rw [made, made, hd, hd'], hmore⟩
      · exact absurd (eq_nil_of_tokens_append h htokens.symm).1 nofun
      · exact hatom he
  | nil, _, _, _, _, h', htokens => (eq_nil_of_tokens_append h' htokens).imp (congrArg made) id
  | int _, _, _, _, h, h', htokens | float _, _, _, _, h, h', htokens | nan _, _, _, _, h, h', htokens |
    bool _, _, _, _, h, h', htokens | char _, _, _, _, h, h', htokens | str _, _, _, _, h, h', htokens |
    sym _, _, _, _, h, h', htokens | unreadable _, _, _, _, h, h', htokens =>
    made_eq_of_tokens_append_of_isAtom trivial h h' htokens

/-- What ends a list is known from its tokens, but for the signs of NaNs. -/
theorem made_eq_of_restTokens_append : ∀ (d e : Datum) {X Y : List Token}, d.HasNames IsReadName →
    e.HasNames IsReadName → d.restTokens ++ X = e.restTokens ++ Y → d.made = e.made ∧ X = Y
  | pair head tail, e, X, Y, h, h', htokens => by
    have hhead := fun e Y => made_eq_of_tokens_append head e (X := tail.restTokens ++ X) (Y := Y) h.1
    have hrest := fun e => made_eq_of_restTokens_append tail e (X := X) (Y := Y) h.2
    have hatom : e.IsAtom → (pair head tail).made = e.made ∧ X = Y := fun hatom =>
      (made_eq_of_restTokens_append_of_isAtom hatom h' h htokens.symm).imp Eq.symm Eq.symm
    cases e with
    | pair head' tail' =>
      rw [restTokens, restTokens, List.append_assoc, List.append_assoc] at htokens
      obtain ⟨hd, htail⟩ := hhead head' _ h'.1 htokens
      obtain ⟨hd', hmore⟩ := hrest tail' h'.2 htail
      exact ⟨by rw [made, made, hd, hd'], hmore⟩
    | nil => exact absurd (eq_nil_of_restTokens_append h htokens.symm).1 nofun
    | _ => exact hatom trivial
  | nil, _, _, _, _, h', htokens => (eq_nil_of_restTokens_append h' htokens).imp (congrArg made) id
  | int _, _, _, _, h, h', htokens | float _, _, _, _, h, h', htokens | nan _, _, _, _, h, h', htokens |
    bool _, _, _, _, h, h', htokens | char _, _, _, _, h, h', htokens | str _, _, _, _, h, h', htokens |
    sym _, _, _, _, h, h', htokens | unreadable _, _, _, _, h, h', htokens =>
    made_eq_of_restTokens_append_of_isAtom trivial h h' htokens

/-- What a shorthand stands for is known from the tokens behind its mark, but for the signs of NaNs. -/
theorem made_eq_of_secondTokens_append : ∀ (d e : Datum) {X Y : List Token}, d.HasNames IsReadName →
    e.HasNames IsReadName → d.secondTokens ++ X = e.tokens ++ Y →
    ∀ item, d = pair item nil → item.made = e.made ∧ X = Y
  | pair head tail, e, X, Y, h, h', htokens, item, hitem => by
    have hhead := made_eq_of_tokens_append head e h.1 h' htokens
    rwa [(Datum.pair.inj hitem).1] at hhead
  | nil, _, _, _, _, _, _, _, hitem | int _, _, _, _, _, _, _, _, hitem |
    float _, _, _, _, _, _, _, _, hitem | nan _, _, _, _, _, _, _, _, hitem |
    bool _, _, _, _, _, _, _, _, hitem | char _, _, _, _, _, _, _, _, hitem |
    str _, _, _, _, _, _, _, _, hitem | sym _, _, _, _, _, _, _, _, hitem |
    unreadable _, _, _, _, _, _, _, _, hitem => Datum.noConfusion hitem

end

end Injectivity

end Datum

end Lisplet
