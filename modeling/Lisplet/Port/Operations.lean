import Lisplet.Action

/-!
# Operations on ports

Reading and writing through ports, opening and closing them. A closed port refuses every operation
before its stream is touched. Reading gives nothing exactly at the end of the input.
-/

namespace Lisplet

namespace Action

/-- A new stream. -/
def newStream (stream : Stream) : Action StreamId :=
  modifyGet fun s => (s.streams.size, { s with streams := s.streams.push stream })

/-- A new port. -/
def newPort (p : Port) : Action Value :=
  modifyGet fun s => (.atom (.port s.ports.size), { s with ports := s.ports.push p })

/-- A port on the current input. -/
def currentInput : Action Port := do
  let s ← get
  pure ⟨"stdin", s.input, true, false, false⟩

/-- A port on the current output. -/
def currentOutput : Action Port := do
  let s ← get
  pure ⟨"stdout", s.output, false, false, false⟩

/-- The port of an identity. -/
def portOf (id : PortId) : Action Port := do
  let s ← get
  orFault .operandMissing s.ports[id]?

/-- The port that an optional argument gives, which must have the wanted direction; by default the
current one. -/
def chosenPort (wanted : Direction) (who : Text) : List Value → Action Port
  | [] => match wanted with
    | .input => currentInput
    | .output => currentOutput
  | v :: _ => do
    let id ← asPort (some who) v
    let p ← portOf id
    if p.isInput = decide (wanted = .input) then pure p
    else typeError (.wrongDirection wanted who) v

end Action

namespace Port

/-- Refuses a closed port. -/
def checkOpen (p : Port) : Action Unit :=
  if p.isClosed then Action.evaluationError (.portClosed p.name) else pure ()

/-- Writes a text to a port. -/
def write (p : Port) (t : Text) : Action Unit := do
  p.checkOpen
  let outcome ← modifyGet fun s =>
    match Stream.write s.files (s.streams[p.stream]?.getD .closed) t with
    | .ok (after, files) =>
      (Except.ok (), { s with streams := s.streams.set! p.stream after, files := files })
    | .error fault => (Except.error fault, s)
  match outcome with
  | .ok () => pure ()
  | .error fault => Action.fault (.stream fault)

/-- Reads from a port by an operation on its stream; nothing at the end of the input. -/
def readBy (p : Port) (operation : FileTree → Stream → Stream.ReadResult) :
    Action (Option Text) := do
  let outcome ← modifyGet fun s =>
    let result := operation s.files (s.streams[p.stream]?.getD .closed)
    (result.outcome, { s with streams := s.streams.set! p.stream result.after })
  match outcome with
  | .ok t => pure (if t.isEmpty then none else some t)
  | .error fault => Action.fault (.stream fault)

/-- The next line without its line feed. -/
def readLine (p : Port) : Action (Option Text) := do
  p.checkOpen
  let line ← p.readBy fun files stream => stream.read files .line
  pure (line.map dropNewline)

/-- The next code points, at most so many. -/
def read (p : Port) (count : Nat) : Action (Option Text) := do
  p.checkOpen
  p.readBy fun files stream => stream.read files (.points count)

/-- All that is left. -/
def readRest (p : Port) : Action (Option Text) := do
  p.checkOpen
  p.readBy fun files stream => stream.readAll files

end Port

namespace Store

/-- Closes a stream; what it holds back reaches its file. -/
def closeStream (s : Store) (id : StreamId) : Store :=
  let stream := s.streams[id]?.getD .closed
  { s with files := stream.flush s.files, streams := s.streams.set! id .closed }

/-- Closes a port, and its stream if it owns that. Closing it again does nothing. -/
def closePort (s : Store) (id : PortId) : Store :=
  match s.ports[id]? with
  | none => s
  | some p =>
    if p.isClosed then s
    else
      let s := { s with ports := s.ports.set! id { p with isClosed := true } }
      if p.ownsStream then s.closeStream p.stream else s

end Store

/-- The path that a text means in a directory. -/
def FileTree.pathIn (files : FileTree) (directory : Path) (t : Text) : Except NameFault Path := do
  let p ← files.expandHome (Path.ofText t)
  pure (Path.within directory p)

namespace Action

/-- Ends as the opening of a file is refused. -/
def refuseOpening {α : Type} (path : Path) : OpenRefusal → Action α
  | .name f => fault (.name f)
  | .system reason => evaluationError (.cannotOpen path reason)

end Action

/-- Opens a file as a port that owns its stream. -/
def openFile (direction : Direction) (who : Text) (name : Value) : Action Value := do
  let t ← Action.asText (some who) name
  let s ← get
  match s.files.pathIn s.directory t with
  | .error f => Action.fault (.name f)
  | .ok path =>
    match direction with
    | .input =>
      match s.files.openForReading path with
      | .error refusal => Action.refuseOpening path refusal
      | .ok place =>
        let stream ← Action.newStream (.fileSource (.start place))
        Action.newPort ⟨path.toText, stream, true, true, false⟩
    | .output =>
      match s.files.openForWriting path with
      | .error refusal => Action.refuseOpening path refusal
      | .ok (place, files) =>
        modify fun s => { s with files := files }
        let stream ← Action.newStream (.fileSink place 0 [] [])
        Action.newPort ⟨path.toText, stream, false, true, false⟩

end Lisplet
