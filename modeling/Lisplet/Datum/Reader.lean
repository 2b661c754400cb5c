import Lisplet.Datum
import Lisplet.Text.Printable
import Lisplet.Token

/-!
# Reading data

Data are read from tokens one at a time. The reader keeps the forms that are complete and a stack of
frames, one for every list or quotation mark that is still open; a token either opens a frame,
completes a datum or is a fault. At the end of the tokens the innermost open frame tells what is
missing.

`readAll` gives the forms before the first fault together with the fault, so that forms can be
evaluated before a later fault is reported.
-/

namespace Lisplet

/-- What is wrong with a source. -/
inductive ParseError where
  /-- The source cannot be taken apart into tokens. -/
  | scan (e : ScanError)
  /-- A dot where no list is open around it. -/
  | strayDot
  /-- A dot directly after an opening parenthesis. -/
  | nothingBeforeDot
  /-- More than one datum after a dot. -/
  | missingCloseAfterTail
  /-- A closing parenthesis where no list is open or a datum is due. -/
  | unexpectedClose
  /-- A list that is never closed. -/
  | unmatchedOpen
  /-- Nothing after a quotation mark. -/
  | missingQuoted (mark : Text)
  /-- A backslash in a string before a code point that it does not go with. -/
  | unknownEscape (c : CodePoint)
  /-- A token that no datum begins with. -/
  | unknownToken (token : Token)

/-- The wording of a fault in a source. -/
def ParseError.message : ParseError → Text
  | .scan .unterminatedString => text "unterminated string literal"
  | .scan .unterminatedComment => text "unterminated block comment"
  | .scan (.unexpected position c) =>
    text "unexpected character at " ++ natText position ++ text ": " ++ Text.quoted [c]
  | .strayDot => text "unexpected '.' outside of a list"
  | .nothingBeforeDot => text "expected expression before '.' in dotted list"
  | .missingCloseAfterTail => text "expected ')' after dotted cdr"
  | .unexpectedClose => text "unexpected ')'"
  | .unmatchedOpen => text "unmatched '('"
  | .missingQuoted mark => text "expected expression after " ++ mark
  | .unknownEscape c => text "unknown string escape: \\" ++ [c]
  | .unknownToken token =>
    text "unknown token: " ++ token.kind.name ++ text " " ++ token.lexeme

/-- What would go wrong below the reader if a token had not the shape of its sort, or a dotted list no
item. -/
inductive ReadFault where
  /-- A mark, a letter or a name that means nothing. -/
  | unknownName
  /-- A text that ends where another code point is due. -/
  | textTooShort
  /-- Parts that make no value. -/
  | noSuchValue

/-- Why reading stops. -/
inductive ReadFailure where
  /-- The source is malformed. -/
  | malformed (e : ParseError)
  /-- A step that went wrong below the reader. -/
  | fault (f : ReadFault)
  /-- A decimal integer has too many digits. -/
  | numeralTooLong
  /-- Data are nested too deeply. -/
  | nestedTooDeeply

/-- A datum that is begun and not complete. -/
inductive Frame where
  /-- An open list with its items so far, last first. -/
  | items (done : List Datum)
  /-- An open list after its dot. -/
  | afterDot (done : List Datum)
  /-- An open list with its tail, which must be closed. -/
  | beforeClose (done : List Datum) (last : Datum)
  /-- A quotation mark that waits for its datum, with the symbol it stands for. -/
  | quoted (mark symbol : Text)

/-- What a frame counts towards the bound on nesting. -/
def Frame.weight : Frame → Nat
  | .quoted _ _ => 1
  | _ => 2

/-- The state between two tokens. -/
structure Reader where
  /-- The complete forms, last first. -/
  forms : List Datum
  /-- The open frames, innermost first. -/
  frames : List Frame

namespace Reader

/-- Before the first token. -/
def start : Reader := ⟨[], []⟩

/-- The quotation marks with the symbols they stand for. -/
def quotations : List (Text × Text) :=
  [("'", "quote"), ("`", "quasiquote"), (",", "unquote"), (",@", "unquote-splicing")]

/-- What the letter after a backslash in a string denotes. -/
def escapeMeanings : List (CodePoint × CodePoint) :=
  [('n', '\n'), ('t', '\t'), ('r', '\r'), ('0', '\x00'), ('\\', '\\'), ('"', '"')]

/-- The content of a string between its quotation marks. -/
def unescape : Text → Except ReadFailure Text
  | [] => .ok []
  | c :: rest =>
    if c = '\\' then
      match rest with
      | [] => .error (.fault .textTooShort)
      | d :: more =>
        match escapeMeanings.lookup d with
        | some e => (unescape more).map (e :: ·)
        | none => .error (.malformed (.unknownEscape d))
    else (unescape rest).map (c :: ·)

/-- The code point of a character literal: the one after the mark, or the one that is named there. -/
def characterValue (lexeme : Text) : Except ReadFailure CodePoint :=
  match lexeme.drop 2 with
  | [c] => .ok c
  | name =>
    match Token.characterNames.lookup name with
    | some c => .ok c
    | none => .error (.fault .unknownName)

/-- The integer that stands after a radix mark. -/
def radixInteger (lexeme : Text) : Except ReadFailure Int :=
  match lexeme with
  | _ :: letter :: body =>
    match radixOfLetter? letter with
    | some radix =>
      match Integer.read? radix body with
      | some n => .ok n
      | none => .error (.fault .noSuchValue)
    | none => .error (.fault .unknownName)
  | _ => .error (.fault .textTooShort)

/-- The datum of a symbol: the number that it denotes, or its name. -/
def symbolValue (lexeme : Text) : Except ReadFailure Datum :=
  match Numeral.parse lexeme with
  | .ok (some n) => .ok (Datum.ofNumeral n)
  | .ok none => .ok (.sym lexeme)
  | .error _ => .error .numeralTooLong

/-- The datum of a token that is a datum of its own. -/
def atom? (token : Token) : Except ReadFailure Datum :=
  match token.kind with
  | .boolean => .ok (.bool ((Token.booleanWords.lookup token.lexeme).getD false))
  | .radix => (radixInteger token.lexeme).map .int
  | .character => (characterValue token.lexeme).map .char
  | .string => (unescape (token.lexeme.drop 1).dropLast).map .str
  | .symbol => symbolValue token.lexeme
  | _ => .error (.malformed (.unknownToken token))

/-- Puts a complete datum into the innermost frame. A quotation mark is complete with it. -/
def complete (forms : List Datum) : List Frame → Datum → Reader
  | [], d => ⟨d :: forms, []⟩
  | .items done :: outer, d => ⟨forms, .items (d :: done) :: outer⟩
  | .afterDot done :: outer, d => ⟨forms, .beforeClose done d :: outer⟩
  | .beforeClose done last :: outer, _ => ⟨forms, .beforeClose done last :: outer⟩
  | .quoted _ symbol :: outer, d => complete forms outer (Datum.prefixed symbol d)

/-- How deep the next datum is nested. -/
def depth (r : Reader) : Nat := r.frames.foldl (fun n frame => n + frame.weight) 0

/-- Opens a frame, unless the data inside it would be nested deeper than `limit`. -/
def open? (limit : Nat) (r : Reader) (frame : Frame) : Except ReadFailure Reader :=
  if r.depth + frame.weight < limit then .ok ⟨r.forms, frame :: r.frames⟩
  else .error .nestedTooDeeply

/-- Opens a frame for a quotation mark. -/
def quote? (limit : Nat) (r : Reader) (mark : Text) : Except ReadFailure Reader :=
  match quotations.lookup mark with
  | some symbol => r.open? limit (.quoted mark symbol)
  | none => .error (.fault .unknownName)

/-- A closing parenthesis. A tail that is no list needs an item before it. -/
def close? (r : Reader) : Except ReadFailure Reader :=
  match r.frames with
  | .items done :: outer => .ok (complete r.forms outer (Datum.ofList done.reverse))
  | .beforeClose done last :: outer =>
    if done.isEmpty && !last.isList then .error (.fault .noSuchValue)
    else .ok (complete r.forms outer (Datum.ofItems done.reverse last))
  | _ => .error (.malformed .unexpectedClose)

/-- The symbol that is a single dot. -/
def dot? (r : Reader) : Except ReadFailure Reader :=
  match r.frames with
  | .items [] :: _ => .error (.malformed .nothingBeforeDot)
  | .items done :: outer => .ok ⟨r.forms, .afterDot done :: outer⟩
  | _ => .error (.malformed .strayDot)

/-- Whether the innermost frame admits nothing but a closing parenthesis. -/
def mustClose (r : Reader) : Bool :=
  match r.frames with
  | .beforeClose _ _ :: _ => true
  | _ => false

/-- Takes in one token. -/
def step (limit : Nat) (r : Reader) (token : Token) : Except ReadFailure Reader :=
  if token.kind = .closeParen then r.close?
  else if r.mustClose then .error (.malformed .missingCloseAfterTail)
  else
    match token.kind with
    | .openParen => r.open? limit (.items [])
    | .quote | .unquote => r.quote? limit token.lexeme
    | _ =>
      if token.kind = .symbol ∧ token.lexeme = "." then r.dot?
      else (atom? token).map (complete r.forms r.frames)

/-- What is missing when the tokens end. -/
def missing? (r : Reader) : Option ParseError :=
  match r.frames with
  | [] => none
  | .items _ :: _ | .afterDot _ :: _ => some .unmatchedOpen
  | .beforeClose _ _ :: _ => some .missingCloseAfterTail
  | .quoted mark _ :: _ => some (.missingQuoted mark)

end Reader

/-- The forms of a source before its first fault, and the fault. -/
structure Reading where
  /-- The complete forms in order. -/
  forms : List Datum
  /-- What stopped the reading before the end, if anything. -/
  failure : Option ReadFailure

namespace Reader

/-- Takes in tokens until they end or one is a fault. A failure of the scan counts where the tokens
end, whatever frames are open. -/
def run (limit : Nat) (scanFailure : Option ScanError) : List Token → Reader → Reading
  | [], r =>
    let failure := (scanFailure.map ParseError.scan).or r.missing?
    ⟨r.forms.reverse, failure.map .malformed⟩
  | token :: more, r =>
    match r.step limit token with
    | .ok next => run limit scanFailure more next
    | .error e => ⟨r.forms.reverse, some e⟩

end Reader

/-- Reads a source whose data are nested less deep than `limit`. -/
def readAll (limit : Nat) (source : Text) : Reading :=
  let scan := Token.scan source
  Reader.run limit scan.failure scan.tokens Reader.start

end Lisplet
