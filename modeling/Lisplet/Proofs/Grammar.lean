import Lisplet.Datum.Reader
import Lisplet.Proofs.Numerals

/-!
# The grammar of data

Which rows of tokens are data, and what they denote. A datum is an atom, a quotation mark with a datum, a
list of data, or a dotted list: at least one datum, a dot and one more datum in parentheses. Beside its
value a row of tokens has a nesting: what its open lists and quotation marks count towards the bound of
the reader. The value of an atom is what the reader makes of the token, if it has not too many digits.
-/

namespace Lisplet

open Numeral (DecimalWord)

namespace Token

/-- The content of a string whose escapes are all known. -/
inductive Unescapes : Text → Text → Prop
  | nil : Unescapes [] []
  | plain {c : CodePoint} {t u : Text} : c ≠ '\\' → Unescapes t u → Unescapes (c :: t) (c :: u)
  | escape {c d : CodePoint} {t u : Text} : (c, d) ∈ Reader.escapeMeanings → Unescapes t u →
      Unescapes ('\\' :: c :: t) (d :: u)

/-- The datum that an atom denotes. A word that is no numeral denotes the symbol of that name, unless
it is the single dot. -/
inductive DenotesAtom : Token → Datum → Prop
  | boolean {w : Text} {b : Bool} : (w, b) ∈ booleanWords → DenotesAtom ⟨.boolean, w⟩ (.bool b)
  | radix {w : Text} {n : Int} : RadixWord w n → DenotesAtom ⟨.radix, w⟩ (.int n)
  | named {name : Text} {c : CodePoint} : (name, c) ∈ characterNames →
      DenotesAtom ⟨.character, '#' :: '\\' :: name⟩ (.char c)
  | single {c : CodePoint} : DenotesAtom ⟨.character, ['#', '\\', c]⟩ (.char c)
  | string {t content : Text} : Unescapes t content →
      DenotesAtom ⟨.string, '"' :: (t ++ [('"' : CodePoint)])⟩ (.str content)
  | integer {w : Text} {n : Int} {count : Nat} : DecimalWord w n count →
      DenotesAtom ⟨.symbol, w⟩ (.int n)
  | numeral {w : Text} {n : Numeral} : Numeral.parse w = .ok (some n) →
      DenotesAtom ⟨.symbol, w⟩ (.ofNumeral n)
  | name {w : Text} : Numeral.parse w = .ok none → w ≠ text "." → DenotesAtom ⟨.symbol, w⟩ (.sym w)

/-- The single dot denotes no number. -/
theorem parse_dot : Numeral.parse (text ".") = .ok none := rfl

/-- A decimal integer of more digits than can be read. -/
def IsTooLong (token : Token) : Prop :=
  token.kind = .symbol ∧ ∃ n count, DecimalWord token.lexeme n count ∧ maxDecimalDigits < count

/-- What is read as a number or as a name has not too many digits. -/
theorem not_isTooLong_of_parse {kind : TokenKind} {w : Text} {found : Option Numeral}
    (h : Numeral.parse w = .ok found) : ¬IsTooLong ⟨kind, w⟩ := by
  rintro ⟨_, hlong⟩
  rw [Numeral.parse_eq_error_iff.mpr hlong] at h
  simp at h

/-- The symbol that is a single dot. -/
def IsDot (token : Token) : Prop := token.kind = .symbol ∧ token.lexeme = text "."

/-- A quotation mark that stands for a symbol. -/
def IsQuotation (token : Token) (symbol : Text) : Prop :=
  (token.kind = .quote ∨ token.kind = .unquote) ∧ (token.lexeme, symbol) ∈ Reader.quotations

/-- What a token counts towards the bound on nesting. -/
def weight (token : Token) : Nat :=
  match token.kind with
  | .openParen => 2
  | .quote | .unquote => 1
  | _ => 0

/-- An atom opens and closes nothing and is no dot. -/
theorem DenotesAtom.kind {token : Token} {d : Datum} (h : DenotesAtom token d) :
    (token.weight = 0 ∧ token.kind ≠ .closeParen) ∧ ¬token.IsDot := by
  refine ⟨by cases h <;> simp [weight], ?_⟩
  rintro ⟨hk, hdot⟩
  cases h with
  | integer hw =>
    have hparse := Numeral.parse_of_decimalWord hw
    dsimp only at hdot
    rw [hdot, parse_dot] at hparse
    split at hparse <;> simp at hparse
  | numeral hp =>
    dsimp only at hdot
    rw [hdot, parse_dot] at hp
    simp at hp
  | name _ hne => exact hne hdot
  | _ => simp at hk

end Token

open Token

mutual

/-- A row of tokens is one datum, with its value and its nesting. -/
inductive Denotes : List Token → Datum → Nat → Prop
  | atom {token : Token} {d : Datum} : DenotesAtom token d → Denotes [token] d 0
  | quoted {token : Token} {symbol : Text} {ts : List Token} {d : Datum} {n : Nat} :
      IsQuotation token symbol → Denotes ts d n → Denotes (token :: ts) (.prefixed symbol d) (n + 1)
  | list {opening closing : Token} {ts : List Token} {ds : List Datum} {n : Nat} :
      opening.kind = .openParen → closing.kind = .closeParen → DenotesAll ts ds n →
      Denotes (opening :: (ts ++ [closing])) (.ofList ds) (n + 2)
  | dotted {opening dot closing : Token} {ts us : List Token} {ds : List Datum} {d : Datum}
      {n m : Nat} : opening.kind = .openParen → IsDot dot → closing.kind = .closeParen →
      DenotesAll ts ds n → ds ≠ [] → Denotes us d m →
      Denotes (opening :: (ts ++ dot :: (us ++ [closing]))) (.ofItems ds d) (max n m + 2)

/-- A row of tokens is a row of data, with their values and the nesting of the deepest. -/
inductive DenotesAll : List Token → List Datum → Nat → Prop
  | nil : DenotesAll [] [] 0
  | cons {ts us : List Token} {d : Datum} {ds : List Datum} {n m : Nat} : Denotes ts d n →
      DenotesAll us ds m → DenotesAll (ts ++ us) (d :: ds) (max n m)

end

/-- Rows of data one after the other are a row of data. -/
theorem DenotesAll.append {ts us : List Token} {ds es : List Datum} {n m : Nat}
    (h : DenotesAll ts ds n) (h' : DenotesAll us es m) :
    DenotesAll (ts ++ us) (ds ++ es) (max n m) := by
  induction ds generalizing ts n with
  | nil =>
    cases h
    simpa using h'
  | cons d ds ih =>
    cases h with
    | cons hd hds =>
      rw [List.append_assoc, List.cons_append, max_assoc]
      exact .cons hd (ih hds)

/-- One more datum behind a row of data. -/
theorem DenotesAll.concat {ts us : List Token} {ds : List Datum} {d : Datum} {n m : Nat}
    (h : DenotesAll ts ds n) (hd : Denotes us d m) :
    DenotesAll (ts ++ us) (ds ++ [d]) (max n m) := by
  have hone : DenotesAll us [d] m := by simpa using DenotesAll.cons hd .nil
  exact h.append hone

theorem Denotes.ne_nil {ts : List Token} {d : Datum} {n : Nat} (h : Denotes ts d n) : ts ≠ [] := by
  cases h <;> exact List.cons_ne_nil _ _

theorem DenotesAll.ne_nil {ts : List Token} {d : Datum} {ds : List Datum} {n : Nat}
    (h : DenotesAll ts (d :: ds) n) : ts ≠ [] := by
  cases h with
  | cons hd _ => exact List.append_ne_nil_of_left_ne_nil hd.ne_nil _

namespace Reader

/-! ### Atoms -/

/-- A table without repeated keys gives exactly its entries. -/
theorem lookup_eq_some_iff_mem {α β : Type} [BEq α] [LawfulBEq α] {table : List (α × β)}
    (hnodup : (table.map (·.1)).Nodup) {a : α} {b : β} :
    table.lookup a = some b ↔ (a, b) ∈ table := by
  induction table with
  | nil => simp
  | cons e table ih =>
    rw [List.map_cons, List.nodup_cons] at hnodup
    rw [List.lookup_cons, List.mem_cons]
    by_cases he : a = e.1
    · have hnot : (a, b) ∉ table := fun hmem =>
        hnodup.1 (List.mem_map.mpr ⟨(a, b), hmem, he⟩)
      rw [he, beq_self_eq_true, Option.some.injEq, eq_comm (a := e.2), Prod.ext_iff]
      simp only [true_and, or_iff_left (he ▸ hnot)]
    · have hne : (a, b) ≠ e := fun h => he (congrArg Prod.fst h)
      rw [beq_eq_false_iff_ne.mpr he, ih hnodup.2]
      simp [hne]

/-- A code point that is no backslash stands for itself. -/
theorem unescape_plain {c : CodePoint} (hc : c ≠ '\\') (t : Text) :
    unescape (c :: t) = (unescape t).map (c :: ·) := by
  rw [unescape.eq_def]
  simp only [hc, if_false]

/-- A known escape stands for its code point. -/
theorem unescape_escape {c d : CodePoint} (h : (c, d) ∈ escapeMeanings) (t : Text) :
    unescape ('\\' :: c :: t) = (unescape t).map (d :: ·) := by
  have hlookup : escapeMeanings.lookup c = some d := (lookup_eq_some_iff_mem (by decide)).mpr h
  rw [unescape, if_pos rfl, hlookup]

theorem exists_of_map_eq_ok {ε α β : Type} {f : α → β} {x : Except ε α} {b : β}
    (h : x.map f = .ok b) : ∃ a, x = .ok a ∧ f a = b := by
  cases x with
  | error e => simp [Except.map] at h
  | ok a => exact ⟨a, rfl, Except.ok.inj h⟩

/-- The content of a string is found exactly when all its escapes are known. -/
theorem unescape_eq_ok_iff {t content : Text} : unescape t = .ok content ↔ Unescapes t content := by
  constructor
  · intro h
    fun_induction unescape t generalizing content with
    | case1 =>
      obtain rfl := Except.ok.inj h
      exact .nil
    | case2 => simp at h
    | case3 d more e he ih =>
      obtain ⟨u, hu, rfl⟩ := exists_of_map_eq_ok h
      exact .escape ((lookup_eq_some_iff_mem (by decide)).mp he) (ih hu)
    | case4 => simp at h
    | case5 c rest hc ih =>
      obtain ⟨u, hu, rfl⟩ := exists_of_map_eq_ok h
      exact .plain hc (ih hu)
  · intro h
    induction h with
    | nil => rfl
    | plain hc _ ih => rw [unescape_plain hc, ih, Except.map]
    | escape he _ ih => rw [unescape_escape he, ih, Except.map]

/-- In a string that is closed no escape is cut off: its content is found, or an escape is unknown. -/
theorem unescape_of_stringRest {body : Text} (h : StringRest body) :
    ∃ t, body = t ++ [('"' : CodePoint)] ∧
      ∀ e, unescape t = .error e → ∃ c, e = .malformed (.unknownEscape c) := by
  induction h with
  | close => exact ⟨[], rfl, by simp [unescape]⟩
  | @escape c body _ ih =>
    obtain ⟨t, rfl, ht⟩ := ih
    refine ⟨'\\' :: c :: t, rfl, fun e he => ?_⟩
    cases hc : escapeMeanings.lookup c with
    | none =>
      rw [unescape, if_pos rfl, hc] at he
      exact ⟨c, (Except.error.inj he).symm⟩
    | some d =>
      rw [unescape_escape ((lookup_eq_some_iff_mem (by decide)).mp hc)] at he
      cases hu : unescape t with
      | ok u => simp [hu, Except.map] at he
      | error e' =>
        rw [hu] at he
        obtain rfl := Except.error.inj he
        exact ht e' hu
  | @plain c body _ hc _ ih =>
    obtain ⟨t, rfl, ht⟩ := ih
    refine ⟨c :: t, rfl, fun e he => ?_⟩
    rw [unescape_plain hc] at he
    cases hu : unescape t with
    | ok u => simp [hu, Except.map] at he
    | error e' =>
      rw [hu] at he
      obtain rfl := Except.error.inj he
      exact ht e' hu

theorem radixInteger_of_radixWord {w : Text} {n : Int} (h : RadixWord w n) :
    radixInteger w = .ok n := by
  obtain ⟨hmark, hsign, hdigits⟩ := h
  obtain ⟨hradix, hten, _⟩ := radixOfLetter?_of_mem hmark
  have hd := isSome_digitsValue?_iff.mp (Option.isSome_of_eq_some hdigits)
  simp only [radixInteger, hradix, Integer.read?_of_digits hten hsign hd.1 hd.2, hdigits,
    Option.map_some]

/-- A name of a character denotes that character, and so does any single code point. -/
theorem characterValue_of_mem {name : Text} {c : CodePoint} (h : (name, c) ∈ characterNames) :
    characterValue ('#' :: '\\' :: name) = .ok c := by
  simp only [characterNames, List.mem_cons, Prod.mk.injEq, List.not_mem_nil, or_false] at h
  rcases h with ⟨rfl, rfl⟩ | ⟨rfl, rfl⟩ | ⟨rfl, rfl⟩ | ⟨rfl, rfl⟩ <;> rfl

/-- A symbol is read as a number or as a name, unless it has too many digits. -/
theorem symbolValue_of_not_tooLong {w : Text} (h : ¬IsTooLong ⟨.symbol, w⟩) :
    (∃ n, Numeral.parse w = .ok (some n) ∧ symbolValue w = .ok (.ofNumeral n)) ∨
      Numeral.parse w = .ok none ∧ symbolValue w = .ok (.sym w) := by
  unfold symbolValue
  cases hp : Numeral.parse w with
  | error e =>
    cases e
    exact absurd ⟨rfl, Numeral.parse_eq_error_iff.mp hp⟩ h
  | ok found =>
    cases found with
    | none => exact Or.inr ⟨rfl, rfl⟩
    | some n => exact Or.inl ⟨n, rfl, rfl⟩

/-- An integer that has too many digits is not read. -/
theorem atom?_of_isTooLong {token : Token} (h : token.IsTooLong) :
    atom? token = .error .numeralTooLong := by
  have hparse := Numeral.parse_eq_error_iff.mpr h.2
  simp only [atom?, h.1, symbolValue, hparse]

/-- An atom is read as the datum that it denotes, unless it has too many digits. -/
theorem atom?_of_denotesAtom {token : Token} {d : Datum} (h : DenotesAtom token d)
    (hlong : ¬token.IsTooLong) : atom? token = .ok d := by
  cases h with
  | boolean hb =>
    have hnodup : (booleanWords.map (·.1)).Nodup := by decide
    have hlookup := (lookup_eq_some_iff_mem hnodup).mpr hb
    simp only [atom?, hlookup, Option.getD_some]
  | radix hw => simp only [atom?, radixInteger_of_radixWord hw, Except.map]
  | named hc => simp only [atom?, characterValue_of_mem hc, Except.map]
  | single => rfl
  | @string t content hu =>
    have hbody : ((('"' : CodePoint) :: (t ++ [('"' : CodePoint)])).drop 1).dropLast = t := by
      simp
    simp only [atom?, hbody, unescape_eq_ok_iff.mpr hu, Except.map]
  | integer hw =>
    have hparse := Numeral.parse_of_decimalWord hw
    rw [if_neg (fun hc => hlong ⟨rfl, _, _, hw, hc⟩)] at hparse
    simp only [atom?, symbolValue, hparse, Datum.ofNumeral]
  | numeral hp => simp only [atom?, symbolValue, hp]
  | name hp => simp only [atom?, symbolValue, hp]

/-- What reading makes of a token that is no parenthesis, quotation mark or dot. -/
theorem atom?_of_stands {token : Token} {more : Text} (h : Stands token more)
    (hkind : token.weight = 0 ∧ token.kind ≠ .closeParen) (hdot : ¬token.IsDot) :
    (∃ d, atom? token = .ok d ∧ DenotesAtom token d) ∨
      (atom? token = .error .numeralTooLong ∧ token.IsTooLong) ∨
      ∃ c, atom? token = .error (.malformed (.unknownEscape c)) := by
  have hdenotes : ∀ d, DenotesAtom token d → ¬token.IsTooLong →
      ∃ d, atom? token = .ok d ∧ DenotesAtom token d :=
    fun d hd hlong => ⟨d, atom?_of_denotesAtom hd hlong, hd⟩
  cases h with
  | quote => simp [weight] at hkind
  | unquote => simp [weight] at hkind
  | splice => simp [weight] at hkind
  | openParen => simp [weight] at hkind
  | closeParen => simp at hkind
  | string hs =>
    obtain ⟨t, rfl, herror⟩ := unescape_of_stringRest hs
    cases hu : unescape t with
    | ok content =>
      exact Or.inl (hdenotes _ (.string (unescape_eq_ok_iff.mp hu)) (by simp [IsTooLong]))
    | error e =>
      obtain ⟨c, rfl⟩ := herror e hu
      have hbody : ((('"' : CodePoint) :: (t ++ [('"' : CodePoint)])).drop 1).dropLast = t := by
        simp
      exact Or.inr (Or.inr ⟨c, by simp only [atom?, hbody, hu, Except.map]⟩)
  | named hname =>
    obtain ⟨⟨name, c⟩, hmem, rfl⟩ := List.mem_map.mp hname
    exact Or.inl (hdenotes _ (.named hmem) (by simp [IsTooLong]))
  | single => exact Or.inl (hdenotes _ .single (by simp [IsTooLong]))
  | boolean hw =>
    obtain ⟨⟨w, b⟩, hmem, rfl⟩ := List.mem_map.mp hw
    exact Or.inl (hdenotes _ (.boolean hmem) (by simp [IsTooLong]))
  | radix hw => exact Or.inl (hdenotes _ (.radix hw) (by simp [IsTooLong]))
  | @symbol w =>
    by_cases hlong : IsTooLong ⟨.symbol, w⟩
    · exact Or.inr (Or.inl ⟨atom?_of_isTooLong hlong, hlong⟩)
    · rcases symbolValue_of_not_tooLong hlong with ⟨n, hn, _⟩ | ⟨hn, _⟩
      · exact Or.inl (hdenotes _ (.numeral hn) hlong)
      · exact Or.inl (hdenotes _ (.name hn fun he => hdot ⟨rfl, he⟩) hlong)

end Reader

end Lisplet
