import Lisplet.Arity

/-!
# Primitive procedures

The one hundred and four procedures that are bound from the start, grouped by what they work on: the
symbol each is bound to and how many arguments it takes. What they do is defined family by family in
the modules below this one.
-/

namespace Lisplet

/-- Arithmetic and comparison of numbers. -/
inductive NumberOp where
  | add
  | sub
  | mul
  | div
  | quotient
  | remainder
  | modulo
  | abs
  | min
  | max
  | equal
  | less
  | lessEqual
  | greater
  | greaterEqual
  deriving DecidableEq

namespace NumberOp

/-- The members of the family, in the order of their registration. -/
def all : List NumberOp :=
  [.add, .sub, .mul, .div, .quotient, .remainder, .modulo, .abs, .min, .max, .equal, .less,
    .lessEqual, .greater, .greaterEqual]

/-- The symbol that the procedure is bound to. -/
def name : NumberOp → Text
  | .add => "+"
  | .sub => "-"
  | .mul => "*"
  | .div => "/"
  | .quotient => "quotient"
  | .remainder => "remainder"
  | .modulo => "modulo"
  | .abs => "abs"
  | .min => "min"
  | .max => "max"
  | .equal => "="
  | .less => "<"
  | .lessEqual => "<="
  | .greater => ">"
  | .greaterEqual => ">="

/-- How many arguments the procedure takes. -/
def arity : NumberOp → Arity
  | .add | .mul => .any
  | .sub | .div | .min | .max => .atLeast 1
  | .quotient | .remainder | .modulo => .exact 2
  | .abs => .exact 1
  | .equal | .less | .lessEqual | .greater | .greaterEqual => .atLeast 2

/-- The family is complete. -/
theorem mem_all (op : NumberOp) : op ∈ all := by
  cases op <;> decide

end NumberOp

/-- Building and taking apart lists. -/
inductive ListOp where
  | cons
  | car
  | cdr
  | list
  | length
  | append
  | reverse
  | listTail
  | listRef
  | isNull
  | isPair
  | isList
  deriving DecidableEq

namespace ListOp

/-- The members of the family, in the order of their registration. -/
def all : List ListOp :=
  [.cons, .car, .cdr, .list, .length, .append, .reverse, .listTail, .listRef, .isNull, .isPair,
    .isList]

/-- The symbol that the procedure is bound to. -/
def name : ListOp → Text
  | .cons => "cons"
  | .car => "car"
  | .cdr => "cdr"
  | .list => "list"
  | .length => "length"
  | .append => "append"
  | .reverse => "reverse"
  | .listTail => "list-tail"
  | .listRef => "list-ref"
  | .isNull => "null?"
  | .isPair => "pair?"
  | .isList => "list?"

/-- How many arguments the procedure takes. -/
def arity : ListOp → Arity
  | .cons | .listTail | .listRef => .exact 2
  | .car | .cdr | .length | .reverse | .isNull | .isPair | .isList => .exact 1
  | .list | .append => .any

/-- The family is complete. -/
theorem mem_all (op : ListOp) : op ∈ all := by
  cases op <;> decide

end ListOp

/-- Equivalence of values and questions about their kind. -/
inductive TestOp where
  | same
  | equivalent
  | equal
  | negation
  | isBoolean
  | isNumber
  | isInteger
  | isFloat
  | isSymbol
  | isString
  | isChar
  | isProcedure
  | isPort
  deriving DecidableEq

namespace TestOp

/-- The members of the family, in the order of their registration. -/
def all : List TestOp :=
  [.same, .equivalent, .equal, .negation, .isBoolean, .isNumber, .isInteger, .isFloat, .isSymbol,
    .isString, .isChar, .isProcedure, .isPort]

/-- The symbol that the procedure is bound to. -/
def name : TestOp → Text
  | .same => "eq?"
  | .equivalent => "eqv?"
  | .equal => "equal?"
  | .negation => "not"
  | .isBoolean => "boolean?"
  | .isNumber => "number?"
  | .isInteger => "integer?"
  | .isFloat => "float?"
  | .isSymbol => "symbol?"
  | .isString => "string?"
  | .isChar => "char?"
  | .isProcedure => "procedure?"
  | .isPort => "port?"

/-- How many arguments the procedure takes. -/
def arity : TestOp → Arity
  | .same | .equivalent | .equal => .exact 2
  | .negation | .isBoolean | .isNumber | .isInteger | .isFloat | .isSymbol | .isString |
    .isChar | .isProcedure | .isPort =>
    .exact 1

/-- The family is complete. -/
theorem mem_all (op : TestOp) : op ∈ all := by
  cases op <;> decide

end TestOp

/-- Evaluation, application and fresh symbols. -/
inductive ControlOp where
  | eval
  | apply
  | gensym
  deriving DecidableEq

namespace ControlOp

/-- The members of the family, in the order of their registration. -/
def all : List ControlOp :=
  [.eval, .apply, .gensym]

/-- The symbol that the procedure is bound to. -/
def name : ControlOp → Text
  | .eval => "eval"
  | .apply => "apply"
  | .gensym => "gensym"

/-- How many arguments the procedure takes. -/
def arity : ControlOp → Arity
  | .eval => .exact 1
  | .apply => .atLeast 2
  | .gensym => .range 0 1

/-- The family is complete. -/
theorem mem_all (op : ControlOp) : op ∈ all := by
  cases op <;> decide

end ControlOp

/-- Strings, which are shared buffers of code points. -/
inductive StringOp where
  | length
  | ref
  | set
  | fill
  | make
  | ofChars
  | append
  | substring
  | copy
  | upcase
  | downcase
  | foldcase
  | copyInto
  | equal
  | less
  | greater
  | lessEqual
  | greaterEqual
  deriving DecidableEq

namespace StringOp

/-- The members of the family, in the order of their registration. -/
def all : List StringOp :=
  [.length, .ref, .set, .fill, .make, .ofChars, .append, .substring, .copy, .upcase, .downcase,
    .foldcase, .copyInto, .equal, .less, .greater, .lessEqual, .greaterEqual]

/-- The symbol that the procedure is bound to. -/
def name : StringOp → Text
  | .length => "string-length"
  | .ref => "string-ref"
  | .set => "string-set!"
  | .fill => "string-fill!"
  | .make => "make-string"
  | .ofChars => "string"
  | .append => "string-append"
  | .substring => "substring"
  | .copy => "string-copy"
  | .upcase => "string-upcase"
  | .downcase => "string-downcase"
  | .foldcase => "string-foldcase"
  | .copyInto => "string-copy!"
  | .equal => "string=?"
  | .less => "string<?"
  | .greater => "string>?"
  | .lessEqual => "string<=?"
  | .greaterEqual => "string>=?"

/-- How many arguments the procedure takes. -/
def arity : StringOp → Arity
  | .length | .upcase | .downcase | .foldcase => .exact 1
  | .ref | .fill | .equal | .less | .greater | .lessEqual | .greaterEqual => .exact 2
  | .set => .exact 3
  | .make => .range 1 2
  | .ofChars | .append => .any
  | .substring => .range 2 3
  | .copy => .range 1 3
  | .copyInto => .range 3 5

/-- The family is complete. -/
theorem mem_all (op : StringOp) : op ∈ all := by
  cases op <;> decide

end StringOp

/-- Characters. -/
inductive CharOp where
  | upcase
  | downcase
  | foldcase
  | isAlphabetic
  | isNumeric
  | isWhitespace
  | isUpperCase
  | isLowerCase
  | digitValue
  deriving DecidableEq

namespace CharOp

/-- The members of the family, in the order of their registration. -/
def all : List CharOp :=
  [.upcase, .downcase, .foldcase, .isAlphabetic, .isNumeric, .isWhitespace, .isUpperCase,
    .isLowerCase, .digitValue]

/-- The symbol that the procedure is bound to. -/
def name : CharOp → Text
  | .upcase => "char-upcase"
  | .downcase => "char-downcase"
  | .foldcase => "char-foldcase"
  | .isAlphabetic => "char-alphabetic?"
  | .isNumeric => "char-numeric?"
  | .isWhitespace => "char-whitespace?"
  | .isUpperCase => "char-upper-case?"
  | .isLowerCase => "char-lower-case?"
  | .digitValue => "digit-value"

/-- How many arguments the procedure takes. -/
def arity : CharOp → Arity
  | .upcase | .downcase | .foldcase | .isAlphabetic | .isNumeric | .isWhitespace | .isUpperCase |
    .isLowerCase | .digitValue =>
    .exact 1

/-- The family is complete. -/
theorem mem_all (op : CharOp) : op ∈ all := by
  cases op <;> decide

end CharOp

/-- Conversions between symbols, strings, numbers, lists and characters. -/
inductive ConversionOp where
  | stringToSymbol
  | symbolToString
  | numberToString
  | stringToNumber
  | stringToList
  | listToString
  | charToInteger
  | integerToChar
  deriving DecidableEq

namespace ConversionOp

/-- The members of the family, in the order of their registration. -/
def all : List ConversionOp :=
  [.stringToSymbol, .symbolToString, .numberToString, .stringToNumber, .stringToList,
    .listToString, .charToInteger, .integerToChar]

/-- The symbol that the procedure is bound to. -/
def name : ConversionOp → Text
  | .stringToSymbol => "string->symbol"
  | .symbolToString => "symbol->string"
  | .numberToString => "number->string"
  | .stringToNumber => "string->number"
  | .stringToList => "string->list"
  | .listToString => "list->string"
  | .charToInteger => "char->integer"
  | .integerToChar => "integer->char"

/-- How many arguments the procedure takes. -/
def arity : ConversionOp → Arity
  | .stringToSymbol | .symbolToString | .stringToList | .listToString | .charToInteger |
    .integerToChar =>
    .exact 1
  | .numberToString | .stringToNumber => .range 1 2

/-- The family is complete. -/
theorem mem_all (op : ConversionOp) : op ∈ all := by
  cases op <;> decide

end ConversionOp

/-- Writing to ports. -/
inductive OutputOp where
  | display
  | write
  | newline
  | writeChar
  | writeString
  deriving DecidableEq

namespace OutputOp

/-- The members of the family, in the order of their registration. -/
def all : List OutputOp :=
  [.display, .write, .newline, .writeChar, .writeString]

/-- The symbol that the procedure is bound to. -/
def name : OutputOp → Text
  | .display => "display"
  | .write => "write"
  | .newline => "newline"
  | .writeChar => "write-char"
  | .writeString => "write-string"

/-- How many arguments the procedure takes. -/
def arity : OutputOp → Arity
  | .display | .write | .writeChar => .range 1 2
  | .newline => .range 0 1
  | .writeString => .range 1 4

/-- The family is complete. -/
theorem mem_all (op : OutputOp) : op ∈ all := by
  cases op <;> decide

end OutputOp

/-- Reading from ports. -/
inductive InputOp where
  | readLine
  | readChar
  | readString
  | readDatum
  deriving DecidableEq

namespace InputOp

/-- The members of the family, in the order of their registration. -/
def all : List InputOp :=
  [.readLine, .readChar, .readString, .readDatum]

/-- The symbol that the procedure is bound to. -/
def name : InputOp → Text
  | .readLine => "read-line"
  | .readChar => "read-char"
  | .readString => "read-string"
  | .readDatum => "read"

/-- How many arguments the procedure takes. -/
def arity : InputOp → Arity
  | .readLine | .readChar | .readDatum => .range 0 1
  | .readString => .range 0 2

/-- The family is complete. -/
theorem mem_all (op : InputOp) : op ∈ all := by
  cases op <;> decide

end InputOp

/-- Opening, closing and recognising ports. -/
inductive PortOp where
  | currentInput
  | currentOutput
  | openInputString
  | openOutputString
  | getOutputString
  | openInputFile
  | openOutputFile
  | closeInput
  | closeOutput
  | callWithInputFile
  | callWithOutputFile
  | withInputFromFile
  | withOutputToFile
  | isInput
  | isOutput
  deriving DecidableEq

namespace PortOp

/-- The members of the family, in the order of their registration. -/
def all : List PortOp :=
  [.currentInput, .currentOutput, .openInputString, .openOutputString, .getOutputString,
    .openInputFile, .openOutputFile, .closeInput, .closeOutput, .callWithInputFile,
    .callWithOutputFile, .withInputFromFile, .withOutputToFile, .isInput, .isOutput]

/-- The symbol that the procedure is bound to. -/
def name : PortOp → Text
  | .currentInput => "current-input-port"
  | .currentOutput => "current-output-port"
  | .openInputString => "open-input-string"
  | .openOutputString => "open-output-string"
  | .getOutputString => "get-output-string"
  | .openInputFile => "open-input-file"
  | .openOutputFile => "open-output-file"
  | .closeInput => "close-input-port"
  | .closeOutput => "close-output-port"
  | .callWithInputFile => "call-with-input-file"
  | .callWithOutputFile => "call-with-output-file"
  | .withInputFromFile => "with-input-from-file"
  | .withOutputToFile => "with-output-to-file"
  | .isInput => "input-port?"
  | .isOutput => "output-port?"

/-- How many arguments the procedure takes. -/
def arity : PortOp → Arity
  | .currentInput | .currentOutput | .openOutputString => .exact 0
  | .openInputString | .getOutputString | .openInputFile | .openOutputFile | .closeInput |
    .closeOutput | .isInput | .isOutput =>
    .exact 1
  | .callWithInputFile | .callWithOutputFile | .withInputFromFile | .withOutputToFile => .exact 2

/-- The family is complete. -/
theorem mem_all (op : PortOp) : op ∈ all := by
  cases op <;> decide

end PortOp

/-- Loading sources and leaving the session. -/
inductive SystemOp where
  | load
  | exit
  deriving DecidableEq

namespace SystemOp

/-- The members of the family, in the order of their registration. -/
def all : List SystemOp :=
  [.load, .exit]

/-- The symbol that the procedure is bound to. -/
def name : SystemOp → Text
  | .load => "load"
  | .exit => "exit"

/-- How many arguments the procedure takes. -/
def arity : SystemOp → Arity
  | .load => .exact 1
  | .exit => .range 0 1

/-- The family is complete. -/
theorem mem_all (op : SystemOp) : op ∈ all := by
  cases op <;> decide

end SystemOp

/-- A procedure that is bound from the start. -/
inductive Primitive where
  | numbers (op : NumberOp)
  | lists (op : ListOp)
  | tests (op : TestOp)
  | control (op : ControlOp)
  | strings (op : StringOp)
  | characters (op : CharOp)
  | conversions (op : ConversionOp)
  | output (op : OutputOp)
  | input (op : InputOp)
  | ports (op : PortOp)
  | system (op : SystemOp)
  deriving DecidableEq

namespace Primitive

/-- Every primitive procedure, in the order of its registration. -/
def all : List Primitive :=
  NumberOp.all.map .numbers ++
    ListOp.all.map .lists ++
    TestOp.all.map .tests ++
    ControlOp.all.map .control ++
    StringOp.all.map .strings ++
    CharOp.all.map .characters ++
    ConversionOp.all.map .conversions ++
    OutputOp.all.map .output ++
    InputOp.all.map .input ++
    PortOp.all.map .ports ++
    SystemOp.all.map .system

/-- The symbol that the procedure is bound to. -/
def name : Primitive → Text
  | .numbers op => op.name
  | .lists op => op.name
  | .tests op => op.name
  | .control op => op.name
  | .strings op => op.name
  | .characters op => op.name
  | .conversions op => op.name
  | .output op => op.name
  | .input op => op.name
  | .ports op => op.name
  | .system op => op.name

/-- How many arguments the procedure takes. -/
def arity : Primitive → Arity
  | .numbers op => op.arity
  | .lists op => op.arity
  | .tests op => op.arity
  | .control op => op.arity
  | .strings op => op.arity
  | .characters op => op.arity
  | .conversions op => op.arity
  | .output op => op.arity
  | .input op => op.arity
  | .ports op => op.arity
  | .system op => op.arity

/-- The list of primitive procedures leaves none out. -/
theorem mem_all (p : Primitive) : p ∈ all := by
  cases p with
  | numbers op => simp [all, NumberOp.mem_all op]
  | lists op => simp [all, ListOp.mem_all op]
  | tests op => simp [all, TestOp.mem_all op]
  | control op => simp [all, ControlOp.mem_all op]
  | strings op => simp [all, StringOp.mem_all op]
  | characters op => simp [all, CharOp.mem_all op]
  | conversions op => simp [all, ConversionOp.mem_all op]
  | output op => simp [all, OutputOp.mem_all op]
  | input op => simp [all, InputOp.mem_all op]
  | ports op => simp [all, PortOp.mem_all op]
  | system op => simp [all, SystemOp.mem_all op]

end Primitive

end Lisplet
