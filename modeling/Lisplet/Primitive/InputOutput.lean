import Lisplet.Evaluation.Evaluator
import Lisplet.Port.Operations
import Lisplet.Primitive.Strings

/-!
# Input and output procedures

Writing to ports, reading from them, opening and closing them, and calling procedures with a file
port or with a redirected current port. A redirection is undone, and the file port that a call opened
is closed, however the call ends.
-/

namespace Lisplet

/-- Writes a printed value to the port that an optional argument gives. -/
def OutputOp.emit (nesting : Nat) (who : Text) (mode : PrintMode) (v : Value)
    (port : List Value) : Action Value := do
  let p ← Action.chosenPort .output who port
  let t ← Action.print mode v nesting
  p.write t
  pure .void

/-- Writes the part of a string that optional arguments select. -/
def OutputOp.emitPart (who : Text) (v : Value) (more : List Value) : Action Value := do
  let t ← Action.asText (some who) v
  let p ← Action.chosenPort .output who (more.take 1)
  let start ← match more.drop 1 with
    | a :: _ => Action.asInteger (some who) a
    | [] => pure 0
  let finish ← match more.drop 2 with
    | b :: _ => Action.asInteger (some who) b
    | [] => pure (t.length : Int)
  if 0 ≤ start ∧ start ≤ finish ∧ finish ≤ t.length then
    p.write (StringOp.slice t start.toNat finish.toNat)
    pure .void
  else Action.evaluationError (.rangeOutOfBounds start finish)

/-- Applies an output procedure. -/
def OutputOp.run (op : OutputOp) (ev : Evaluator) (args : List Value) : Action Value := do
  match op, args with
  | .display, v :: port => OutputOp.emit ev.nesting op.name .display v port
  | .write, v :: port => OutputOp.emit ev.nesting op.name .write v port
  | .newline, port =>
    let p ← Action.chosenPort .output op.name port
    p.write [Lisplet.newline]
    pure .void
  | .writeChar, v :: port =>
    let c ← Action.asChar (some op.name) v
    let p ← Action.chosenPort .output op.name port
    p.write [c]
    pure .void
  | .writeString, v :: more => OutputOp.emitPart op.name v more
  | _, _ => Action.fault .operandMissing

namespace InputOp

/-- A string of what was read, or false at the end of the input. -/
def stringOrFalse : Option Text → Action Value
  | some t => Action.newString t
  | none => pure (.bool false)

/-- The next datum: the first one on the next line. -/
def nextDatum (nesting : Nat) (p : Port) : Action Value := do
  match ← p.readLine with
  | none => Action.evaluationError .endOfInput
  | some line =>
    let reading := readAll nesting line
    match reading.failure with
    | some (.malformed e) => Action.evaluationError (.unreadableInput e)
    | some (.fault f) => Action.fault (.reading f)
    | some .numeralTooLong => Action.fault .numeralTooLong
    | some .nestedTooDeeply => Action.fault .nestedTooDeeply
    | none =>
      match reading.forms with
      | [] => Action.evaluationError .emptyInput
      | d :: _ => Action.instantiate d

/-- The count and the port arguments of `read-string`, either of which may be missing. -/
def countAndPort (who : Text) (args : List Value) : Action (Option Nat × List Value) := do
  match args with
  | [] => pure (none, [])
  | .atom (.port id) :: more => pure (none, .atom (.port id) :: more)
  | v :: more =>
    let k ← Action.asInteger (some who) v
    if k < 0 then Action.typeError (.negative "count" who k) (.int k)
    else pure (some k.toNat, more)

/-- Reads so many code points, or all there are. -/
def readCount (who : Text) (args : List Value) : Action Value := do
  let (count, port) ← countAndPort who args
  match port with
  | _ :: extra :: _ => Action.typeError (.portExpected who) extra
  | port =>
    let p ← Action.chosenPort .input who port
    match count with
    | none =>
      let t ← p.readRest
      stringOrFalse t
    | some k =>
      p.checkOpen
      if StringOp.maxCount < k then Action.fault .countTooLarge
      else
        let t ← p.read k
        stringOrFalse t

/-- Applies an input procedure. -/
def run (op : InputOp) (ev : Evaluator) (args : List Value) : Action Value := do
  match op with
  | .readLine =>
    let p ← Action.chosenPort .input op.name args
    let t ← p.readLine
    stringOrFalse t
  | .readChar =>
    let p ← Action.chosenPort .input op.name args
    match ← p.read 1 with
    | some (c :: _) => pure (.char c)
    | _ => pure (.bool false)
  | .readString => readCount op.name args
  | .readDatum =>
    let p ← Action.chosenPort .input op.name args
    nextDatum ev.nesting p

end InputOp

namespace PortOp

/-- The port identity that a value is. -/
def portIdOf : Value → PortId
  | .atom (.port id) => id
  | _ => 0

/-- Closes a port argument of a direction. -/
def close (direction : Direction) (who : Text) (v : Value) : Action Value := do
  let _ ← Action.chosenPort direction who [v]
  modify fun s => s.closePort (portIdOf v)
  pure .void

/-- Calls a procedure with a port on a file, and closes the port. -/
def callWithFile (ev : Evaluator) (scope : ScopeId) (direction : Direction) (who : Text)
    (name proc : Value) : Action Value := do
  let proc ← Action.asProcedure (some who) proc
  let port ← openFile direction who name
  Action.ensuring (ev.call proc [port] scope) fun s => s.closePort (portIdOf port)

/-- Calls a procedure while a file is the current port of a direction, and closes the file. -/
def withFile (ev : Evaluator) (scope : ScopeId) (direction : Direction) (who : Text)
    (name thunk : Value) : Action Value := do
  let thunk ← Action.asProcedure (some who) thunk
  let port ← openFile direction who name
  let p ← Action.portOf (portIdOf port)
  let s ← get
  match direction with
  | .input =>
    let saved := s.input
    modify fun s => { s with input := p.stream }
    Action.ensuring (ev.call thunk [] scope) fun s =>
      { s with input := saved }.closePort (portIdOf port)
  | .output =>
    let saved := s.output
    modify fun s => { s with output := p.stream }
    Action.ensuring (ev.call thunk [] scope) fun s =>
      { s with output := saved }.closePort (portIdOf port)

/-- The text written to a string port so far. -/
def outputText (who : Text) (v : Value) : Action Value := do
  let id ← Action.asPort (some who) v
  let p ← Action.portOf id
  let s ← get
  match p.isInput, s.streams[p.stream]? with
  | false, some (.sink pieces) => Action.newString (Text.gathered pieces)
  | _, _ => Action.typeError (.notStringPort p.render) v

/-- Whether a value is a port of this direction. -/
def hasDirection (direction : Direction) (v : Value) : Action Value := do
  match v with
  | .atom (.port id) =>
    let p ← Action.portOf id
    pure (.bool (p.isInput = decide (direction = .input)))
  | _ => pure (.bool false)

/-- Applies a port procedure. -/
def run (op : PortOp) (ev : Evaluator) (args : List Value) (scope : ScopeId) : Action Value := do
  match op, args with
  | .currentInput, _ =>
    let p ← Action.currentInput
    Action.newPort p
  | .currentOutput, _ =>
    let p ← Action.currentOutput
    Action.newPort p
  | .openInputString, [v] =>
    let t ← Action.asText (some op.name) v
    let stream ← Action.newStream (.source t)
    Action.newPort ⟨"string", stream, true, false, false⟩
  | .openOutputString, _ =>
    let stream ← Action.newStream (.sink [])
    Action.newPort ⟨"string", stream, false, false, false⟩
  | .getOutputString, [v] => outputText op.name v
  | .openInputFile, [name] => openFile .input op.name name
  | .openOutputFile, [name] => openFile .output op.name name
  | .closeInput, [v] => close .input op.name v
  | .closeOutput, [v] => close .output op.name v
  | .callWithInputFile, [name, proc] => callWithFile ev scope .input op.name name proc
  | .callWithOutputFile, [name, proc] => callWithFile ev scope .output op.name name proc
  | .withInputFromFile, [name, thunk] => withFile ev scope .input op.name name thunk
  | .withOutputToFile, [name, thunk] => withFile ev scope .output op.name name thunk
  | .isInput, [v] => hasDirection .input v
  | .isOutput, [v] => hasDirection .output v
  | _, _ => Action.fault .operandMissing

end PortOp

end Lisplet
