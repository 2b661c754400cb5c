import Lisplet.Number.Radix

/-!
# Tokens

A source is a row of tokens with gaps between them. A gap is made of blanks, comments that run to the
end of their line, and block comments, which nest. `Token.scan` takes a source apart; it fails at a
string or a block comment that is never closed and where no token begins, and then still gives the
tokens before it.

A word is a longest run of code points that do not delimit. Words are symbols and numerals, and also
booleans and integers with a radix mark when the whole word has that shape. A character literal is the
one token that is not a whole word: it takes its name or its single code point, whatever follows.
-/

namespace Lisplet

/-- What sort of thing a token is. -/
inductive TokenKind where
  /-- The shorthand of `quote` or `quasiquote`. -/
  | quote
  /-- The shorthand of `unquote` or `unquote-splicing`. -/
  | unquote
  | openParen
  | closeParen
  | string
  | character
  | boolean
  /-- An integer with a radix mark. -/
  | radix
  /-- Any other word. -/
  | symbol
  deriving DecidableEq

/-- The name of a sort of tokens. -/
def TokenKind.name : TokenKind → Text
  | .quote => "quote"
  | .unquote => "unquote"
  | .openParen => "lparen"
  | .closeParen => "rparen"
  | .string => "string"
  | .character => "char"
  | .boolean => "boolean"
  | .radix => "radix"
  | .symbol => "symbol"

/-- A token with the code points it was made of. -/
structure Token where
  /-- The sort of the token. -/
  kind : TokenKind
  /-- Its code points, quotation marks and marks included. -/
  lexeme : Text

/-- Why a source cannot be taken apart. -/
inductive ScanError where
  | unterminatedString
  | unterminatedComment
  /-- A code point at which no token begins, with the number of code points before it. -/
  | unexpected (position : Nat) (c : CodePoint)
  deriving DecidableEq

/-- The tokens of a source, up to its end or to a failure. -/
structure Scan where
  /-- The tokens in order. -/
  tokens : List Token
  /-- What stopped the scan before the end, if anything. -/
  failure : Option ScanError

namespace CodePoint

/-- A code point that ends a word. -/
def isDelimiter (c : CodePoint) : Bool :=
  c.isBlank || c = '(' || c = ')' || c = '\'' || c = '"' || c = '`' || c = ',' || c = ';'

end CodePoint

namespace Token

/-- Drops the rest of a line and the line feed that ends it. -/
def dropLine : Text → Text
  | [] => []
  | c :: rest => if c = '\n' then rest else dropLine rest

/-- Drops the rest of a block comment; `depth` block comments are open around it. -/
def dropBlock? : Nat → Text → Option Text
  | _, [] => none
  | _, [_] => none
  | depth, a :: b :: rest =>
    if a = '#' ∧ b = '|' then dropBlock? (depth + 1) rest
    else if a = '|' ∧ b = '#' then
      match depth with
      | 0 => some rest
      | outer + 1 => dropBlock? outer rest
    else dropBlock? depth (b :: rest)

/-- The rest of a text after `#|`, if it begins with that. -/
def afterBlockOpen? : Text → Option Text
  | a :: b :: rest => if a = '#' ∧ b = '|' then some rest else none
  | _ => none

/-- Drops a gap; `none` if a block comment in it is not closed. The fuel bounds its pieces. -/
def dropGap? : Nat → Text → Option Text
  | 0, t => some t
  | _ + 1, [] => some []
  | fuel + 1, c :: rest =>
    if c.isBlank then dropGap? fuel rest
    else if c = ';' then dropGap? fuel (dropLine rest)
    else
      match afterBlockOpen? (c :: rest) with
      | some body => (dropBlock? 0 body).bind (dropGap? fuel)
      | none => some (c :: rest)

/-- Splits a text after the first quotation mark that no backslash precedes; `none` without one. -/
def splitString? : Text → Option (Text × Text)
  | [] => none
  | c :: rest =>
    if c = '"' then some ([c], rest)
    else if c = '\\' then
      match rest with
      | [] => none
      | d :: more => (splitString? more).map fun (s, r) => (c :: d :: s, r)
    else (splitString? rest).map fun (s, r) => (c :: s, r)

/-- The names that a character literal may have. -/
def characterNames : List (Text × CodePoint) :=
  [("newline", '\n'), ("space", ' '), ("tab", '\t'), ("return", '\r')]

/-- What a character literal takes after `#\`: a name that stands there, or one code point. -/
def splitCharacter? (t : Text) : Option (Text × Text) :=
  match characterNames.find? fun (name, _) => name.isPrefixOf t with
  | some (name, _) => some (name, t.drop name.length)
  | none =>
    match t with
    | [] => none
    | c :: rest => some ([c], rest)

/-- The texts that denote the two truth values. -/
def booleanWords : List (Text × Bool) :=
  [("#true", true), ("#false", false), ("#t", true), ("#f", false)]

/-- The integer that a whole word with a radix mark denotes: the mark, a sign or none, and ASCII
digits of that radix. -/
def radixValue? : Text → Option Int
  | hash :: letter :: body =>
    if hash = '#' then
      (radixOfLetter? letter).bind fun radix =>
        let (negative, digits) := splitSign body
        (digitsValue? radix digits).map (signed negative)
    else none
  | _ => none

/-- The sort of a whole word. -/
def wordKind (word : Text) : TokenKind :=
  if (booleanWords.lookup word).isSome then .boolean
  else if (radixValue? word).isSome then .radix
  else .symbol

/-- The word at the beginning of a text and what follows it; `none` if a delimiter stands there. -/
def splitWord? (t : Text) : Option (Token × Text) :=
  let word := t.takeWhile fun c => !c.isDelimiter
  if word.isEmpty then none else some (⟨wordKind word, word⟩, t.drop word.length)

/-- Splits a character literal or a word off a text that begins with `#\`. -/
def splitHashed? (t : Text) : Option (Token × Text) :=
  match splitCharacter? (t.drop 2) with
  | some (name, rest) => some (⟨.character, t.take 2 ++ name⟩, rest)
  | none => splitWord? t

/-- Whether a text begins with `#\`. -/
def startsCharacter : Text → Bool
  | a :: b :: _ => a = '#' && b = '\\'
  | _ => false

/-- Splits the first token off a text that begins with no gap; `none` if no token begins there. -/
def splitFirst? (c : CodePoint) (rest : Text) : Option (Token × Text) :=
  if c = '\'' ∨ c = '`' then some (⟨.quote, [c]⟩, rest)
  else if c = ',' then
    match rest with
    | d :: more =>
      if d = '@' then some (⟨.unquote, [c, d]⟩, more) else some (⟨.unquote, [c]⟩, rest)
    | [] => some (⟨.unquote, [c]⟩, [])
  else if c = '(' then some (⟨.openParen, [c]⟩, rest)
  else if c = ')' then some (⟨.closeParen, [c]⟩, rest)
  else if c = '"' then
    (splitString? rest).map fun (body, more) => (⟨.string, c :: body⟩, more)
  else if startsCharacter (c :: rest) then splitHashed? (c :: rest)
  else splitWord? (c :: rest)

/-- Why no token begins with a code point, so many code points into a source. -/
def refusal (position : Nat) (c : CodePoint) : ScanError :=
  if c = '"' then .unterminatedString else .unexpected position c

/-- Scans the rest of a source of `size` code points after the tokens in `done`, last first. The fuel
bounds the number of tokens. -/
def scanOnto (size : Nat) : Nat → Text → List Token → Scan
  | 0, _, done => ⟨done.reverse, none⟩
  | fuel + 1, t, done =>
    match dropGap? fuel t with
    | none => ⟨done.reverse, some .unterminatedComment⟩
    | some [] => ⟨done.reverse, none⟩
    | some (c :: rest) =>
      match splitFirst? c rest with
      | none => ⟨done.reverse, some (refusal (size - (rest.length + 1)) c)⟩
      | some (token, more) => scanOnto size fuel more (token :: done)

/-- Takes a source apart. -/
def scan (source : Text) : Scan := scanOnto source.length (source.length + 1) source []

end Token

end Lisplet
