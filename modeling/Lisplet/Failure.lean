import Lisplet.Datum.Reader
import Lisplet.Files.Tree
import Lisplet.Port.Stream
import Lisplet.Text.Printable
import Lisplet.Value

/-!
# Failures

Everything that can go wrong, by cause. Failures of the language carry what their wording needs;
`Failure.message?` is the wording. A failure whose wording would need an integer that has no decimal
text has none.

Faults are failures below the language: limits of number notation and of counts, files that are no
text, streams that are closed under a port. They have no wording.
-/

namespace Lisplet

/-- What a procedure asks of an argument. -/
inductive Expected where
  | symbol
  | list
  | properList
  | procedure
  | string
  | char
  | integer
  | number
  | port
  deriving DecidableEq

/-- The wording of what is asked. -/
def Expected.name : Expected → Text
  | .symbol => "symbol"
  | .list => "list"
  | .properList => "proper list"
  | .procedure => "procedure"
  | .string => "string"
  | .char => "char"
  | .integer => "integer"
  | .number => "number"
  | .port => "port"

/-- The two directions of a port. -/
inductive Direction where
  | input
  | output
  deriving DecidableEq

/-- The wording of a direction. -/
def Direction.name : Direction → Text
  | .input => "input"
  | .output => "output"

/-- The other direction. -/
def Direction.opposite : Direction → Direction
  | .input => .output
  | .output => .input

/-- A value of the wrong kind. -/
inductive TypeError where
  /-- An argument that is not what the procedure asks for. -/
  | expected (what : Expected) (who : Option Text)
  /-- Something else than a procedure in the first place of a call. -/
  | notApplicable
  /-- Something else than a proper list to be spliced. -/
  | notSpliceable
  /-- A port of the other direction. -/
  | wrongDirection (wanted : Direction) (who : Text)
  /-- A negative number, described by a noun, where none is admitted. -/
  | negative (noun : Text) (who : Text) (n : Int)
  /-- A second port argument. -/
  | portExpected (who : Text)
  /-- A float in a radix other than ten. -/
  | floatInRadix (radix : Int)
  /-- A prefix of fresh symbols that is neither symbol nor string. -/
  | freshPrefix
  /-- A port whose text cannot be asked for; the port is shown. -/
  | notStringPort (shown : Text)
  /-- A value that is no exit code. -/
  | exitCode
  /-- A name that is no symbol; the name is shown. -/
  | notBindable (shown : Text)
  /-- A single dotted pair, whose head cannot be taken off in place. -/
  | dottedPair

/-- A form of the wrong shape. -/
inductive ShapeError where
  | dottedCall
  | parameters (form : Text) (kind : Kind)
  | parameter (form : Text) (kind : Kind) (position : Nat)
  | signatureEmpty (form : Text)
  | signatureName (form : Text) (kind : Kind)
  | defineValues (name : Text) (count : Nat)
  | defineTarget (kind : Kind)
  | transformerTarget (kind : Kind)
  | assignTarget (kind : Kind)
  | bindings (form : Text) (kind : Kind)
  | binding (form : Text) (shown : Text)
  | namedBody (name : Text)
  | loopSpecs (kind : Kind)
  | loopSpec (shown : Text)
  | loopEnd (shown : Text)
  | clause (shown : Text)
  | elseNotLast
  | receiverCount
  | receiver (shown : Text) (arity : Arity)
  | unquoteOperand (form : Text) (count : Nat)
  | spliceOutsideList
  | unquoteOutside
  | spliceOutside

/-- An access to the empty list. -/
inductive EmptyListError where
  | head
  | tail
  | last
  | evaluation

/-- Any other failure of evaluation. -/
inductive EvaluationError where
  /-- A division by zero, in a procedure or in the general division. -/
  | divisionByZero (who : Option Text)
  | indexOutOfRange (index : Int) (who : Text)
  | startAfterEnd (start finish : Int) (who : Text)
  | unsupportedRadix (radix : Int) (who : Text)
  | copyDoesNotFit (count : Nat) (position : Int)
  | rangeOutOfBounds (start finish : Int)
  | noCharacter (code : Int)
  | notEvaluable (kind : Kind)
  | portClosed (name : Text)
  | cannotOpen (path : Path) (reason : OpenError)
  | endOfInput
  | emptyInput
  | unreadableInput (e : ParseError)
  | loadNotFound (name : Text)
  | loadMalformed (path : Path) (e : ParseError)

/-- A limit or a failure below the language. -/
inductive Fault where
  /-- Reading went wrong below the reader. -/
  | reading (f : ReadFault)
  /-- A decimal integer of too many digits is read or written. -/
  | numeralTooLong
  /-- An integer has no float. -/
  | integerTooLarge
  /-- A count is beyond the sizes there are. -/
  | countTooLarge
  /-- A text would not fit into memory. -/
  | outOfMemory
  /-- An index outside a list. -/
  | indexOutOfRange
  /-- A file is no text, a text fits in no file, or a file stream is closed. -/
  | stream (fault : StreamFault)
  /-- A text that names no file. -/
  | name (fault : NameFault)
  /-- A file name that is too long, or has a name in it that is. -/
  | fileNameTooLong
  /-- A directory where a file is wanted. -/
  | isDirectory
  /-- Calls or data are nested too deeply. -/
  | nestedTooDeeply
  /-- A tail without items before it. -/
  | tailWithoutItems
  /-- An empty range of argument counts. -/
  | emptyRange
  /-- A text that is no integer. -/
  | notAnInteger
  /-- An operand that its form's arity promises is not there. -/
  | operandMissing

/-- Why an evaluation ends without a value. -/
inductive Failure where
  | parse (e : ParseError)
  | evaluation (e : EvaluationError)
  | unbound (name : Text)
  | unboundAssignment (name : Text)
  | arity (expected : Arity) (who : Text) (count : Nat)
  | type (e : TypeError) (value : Value)
  | shape (e : ShapeError)
  | emptyList (e : EmptyListError)
  /-- Calls are nested too deeply. -/
  | tooDeep
  | fault (f : Fault)

/-- What an evaluation may end with instead of a value. -/
inductive Signal where
  | failure (f : Failure)
  /-- The program leaves with an exit code. -/
  | exit (code : Int)
  /-- The bound on the number of rounds was reached. -/
  | exhausted

instance : Inhabited Signal := ⟨.exhausted⟩

/-- The decimal texts of the integers in a wording, which must all exist. -/
def withDecimals (ns : List Int) (wording : List Text → Text) : Option Text :=
  (ns.mapM decimalText?).map wording

/-- The name that a wording gives to the procedure that complains. -/
def whereText : Option Text → Text
  | none => []
  | some who => if who.isEmpty then [] else text " for " ++ who

/-- The wording of a wrong kind. -/
def TypeError.message? (e : TypeError) (value : Value) : Option Text :=
  let got : Text := text ", got " ++ value.kind.name
  match e with
  | .expected what who => some (text "expected " ++ what.name ++ whereText who ++ got)
  | .notApplicable => some (text "expected procedure as first element of call" ++ got)
  | .notSpliceable => some (text "expected list after unquote-splicing" ++ got)
  | .wrongDirection wanted who =>
    some (text "expected " ++ wanted.name ++ text " port for " ++ who ++ text ", got " ++
      wanted.opposite.name ++ text " port")
  | .negative noun who n =>
    (decimalText? n).map fun shown =>
      text "expected non-negative " ++ noun ++ text " for " ++ who ++ text ", got " ++ shown
  | .portExpected who => some (text "expected port for " ++ who ++ got)
  | .floatInRadix radix =>
    (decimalText? radix).map fun shown =>
      text "expected integer for number->string in radix " ++ shown ++ text ", got float"
  | .freshPrefix => some (text "expected symbol or string as gensym prefix" ++ got)
  | .notStringPort shown =>
    some (text "expected string output port for get-output-string, got " ++ shown)
  | .exitCode => some (text "expected integer or boolean for exit" ++ got)
  | .notBindable shown => some (text "cannot bind " ++ shown ++ text ": not a symbol")
  | .dottedPair => some (text "cannot pop the head off a dotted pair")

/-- The wording of a wrong shape. -/
def ShapeError.message : ShapeError → Text
  | .dottedCall => text "dotted list cannot be evaluated"
  | .parameters form kind =>
    text "expected list, symbol or dotted list as parameters for " ++ form ++ text ", got " ++
      kind.name
  | .parameter form kind position =>
    text "expected symbols in " ++ form ++ text " parameters, got " ++ kind.name ++
      text " at position " ++ natText position
  | .signatureEmpty form =>
    text "expected at least 1 argument for " ++ form ++ text " formals list, got 0"
  | .signatureName form kind =>
    text "expected symbol as the name for " ++ form ++ text ", got " ++ kind.name
  | .defineValues name count =>
    text "expected exactly 1 value expression for define of " ++ name ++ text ", got " ++
      natText count
  | .defineTarget kind =>
    text "expected symbol or list as the first argument for define, got " ++ kind.name
  | .transformerTarget kind =>
    text "expected list as the first argument for define-macro, got " ++ kind.name
  | .assignTarget kind =>
    text "expected symbol as first argument of set!, got " ++ kind.name
  | .bindings form kind =>
    text "expected list of bindings for " ++ form ++ text ", got " ++ kind.name
  | .binding form shown =>
    text "expected (name value) binding in " ++ form ++ text ", got " ++ shown
  | .namedBody name => text "expected at least one body expression for named let " ++ name
  | .loopSpecs kind => text "expected list of variable specs for do, got " ++ kind.name
  | .loopSpec shown => text "expected (var init [step]) in do, got " ++ shown
  | .loopEnd shown => text "expected (test result...) end clause for do, got " ++ shown
  | .clause shown => text "expected non-empty list as cond clause, got " ++ shown
  | .elseNotLast => text "else clause must be the last clause of cond"
  | .receiverCount => text "expected exactly one receiver expression after => in cond"
  | .receiver shown arity =>
    text "expected procedure of one argument after => in cond, got " ++ shown ++ text " taking " ++
      arity.render ++ text " arguments"
  | .unquoteOperand form count =>
    text "expected exactly one expression after " ++ form ++ text ", got " ++ natText count
  | .spliceOutsideList => text "unquote-splicing is only valid inside a list template"
  | .unquoteOutside => text "unquote is not valid outside of quasiquote"
  | .spliceOutside => text "unquote-splicing is not valid outside of quasiquote"

/-- The wording of an access to the empty list. -/
def EmptyListError.message : EmptyListError → Text
  | .head => text "expected non-empty list for car"
  | .tail => text "expected non-empty list for cdr"
  | .last => text "expected non-empty list"
  | .evaluation => text "empty list cannot be evaluated"

/-- The wording of the other failures of evaluation. -/
def EvaluationError.message? : EvaluationError → Option Text
  | .divisionByZero none => some (text "division by zero")
  | .divisionByZero (some who) => some (text "division by zero in " ++ who)
  | .indexOutOfRange index who =>
    (decimalText? index).map fun shown =>
      text "index " ++ shown ++ text " out of range for " ++ who
  | .startAfterEnd start finish who =>
    withDecimals [start, finish] fun shown =>
      text "start " ++ shown.headD [] ++ text " is after end " ++ (shown.drop 1).headD [] ++
        text " for " ++ who
  | .unsupportedRadix radix who =>
    (decimalText? radix).map fun shown => text "unsupported radix " ++ shown ++ text " for " ++ who
  | .copyDoesNotFit count position =>
    (decimalText? position).map fun shown =>
      natText count ++ text " characters do not fit at index " ++ shown ++ text " for string-copy!"
  | .rangeOutOfBounds start finish =>
    withDecimals [start, finish] fun shown =>
      text "range " ++ shown.headD [] ++ text ".." ++ (shown.drop 1).headD [] ++
        text " out of bounds for write-string"
  | .noCharacter code =>
    (decimalText? code).map fun shown => shown ++ text " is not a valid character code"
  | .notEvaluable kind => some (kind.name ++ text " object cannot be evaluated")
  | .portClosed name => some (text "port " ++ name ++ text " is closed")
  | .cannotOpen path reason =>
    some (text "could not open file " ++ path.toText ++ text ": " ++ reason.message ++ text ": " ++
      path.toText.quoted)
  | .endOfInput => some (text "could not parse input: end of input")
  | .emptyInput => some (text "could not parse input: empty input")
  | .unreadableInput e => some (text "could not parse input: " ++ e.message)
  | .loadNotFound name => some (text "cannot load " ++ name ++ text ": file not found")
  | .loadMalformed path e =>
    some (text "failed to parse file " ++ path.toText ++ text ": " ++ e.message)

/-- The wording of a failure before the words that mark a failure of evaluation. -/
def Failure.wording? : Failure → Option Text
  | .parse e => some e.message
  | .evaluation e => e.message?
  | .unbound name => some (text "undefined symbol: " ++ name)
  | .unboundAssignment name => some (text "symbol '" ++ name ++ text "' is not defined")
  | .arity expected who count =>
    some (text "expected " ++ expected.render ++ text " arguments for " ++ who ++ text ", got " ++
      natText count)
  | .type e value => e.message? value
  | .shape e => some e.message
  | .emptyList e => some e.message
  | .tooDeep => some (text "maximum recursion depth exceeded")
  | .fault _ => none

/-- The wording of a failure. Only failures of reading go without the mark. -/
def Failure.message? (f : Failure) : Option Text :=
  match f with
  | .parse e => some e.message
  | f => f.wording?.map (text "runtime error: " ++ ·)

end Lisplet
