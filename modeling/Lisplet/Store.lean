import Lisplet.Port
import Lisplet.Scope
import Lisplet.Value.Equality
import Lisplet.Value.Nesting

/-!
# The store

Everything that a program can change or make: scopes, string buffers, closures, ports and their
streams, files, and the counters of fresh identities and fresh symbols. Identities index into the
store and are never given back.

The datum of a value is its external form in a store.
-/

namespace Lisplet

/-- The state of a session. -/
structure Store where
  scopes : Scopes
  /-- The contents of the strings. -/
  buffers : Array Text
  closures : Array Closure
  ports : Array Port
  streams : Array Stream
  files : FileTree
  /-- The next identity of a list or float. -/
  nextObject : ObjectId
  /-- The number of the next fresh symbol. -/
  nextFresh : Nat
  /-- The stream of the current input. -/
  input : StreamId
  /-- The stream of the current output. -/
  output : StreamId
  /-- The directory that file names are relative to. -/
  directory : Path
  /-- Further directories in which sources to load are sought. -/
  loadRoots : List Path

/-- The float object of the positive NaN literal. -/
def positiveNan : ObjectId := 0

/-- The float object of the negative NaN literal. -/
def negativeNan : ObjectId := 1

/-- The scope that is around all others. -/
def rootScope : ScopeId := 0

/-- The stream of standard input. -/
def standardInput : StreamId := 0

/-- The stream of standard output. -/
def standardOutput : StreamId := 1

namespace Store

/-- A store with an empty root scope. -/
def initial (input : Text) (files : FileTree) (directory : Path) (loadRoots : List Path) : Store where
  scopes := #[⟨[], [], none⟩]
  buffers := #[]
  closures := #[]
  ports := #[]
  streams := #[.source input, .console []]
  files := files
  nextObject := 2
  nextFresh := 1
  input := standardInput
  output := standardOutput
  directory := directory
  loadRoots := loadRoots

/-- The content of a string. -/
def content (s : Store) (buffer : BufferId) : Text := s.buffers[buffer]?.getD []

/-- The name of a procedure. -/
def procedureName (s : Store) : Atom → Text
  | .primitive p => p.name
  | .form f => f.name
  | .closure id => match s.closures[id]? with
    | some c => c.shownName
    | none => []
  | _ => []

/-- The argument counts of a procedure. -/
def procedureArity (s : Store) : Atom → Arity
  | .primitive p => p.arity
  | .form f => f.arity
  | .closure id => match s.closures[id]? with
    | some c => c.params.arity
    | none => .any
  | _ => .any

/-- The printed form of a procedure. -/
def showProcedure (s : Store) (a : Atom) : Text :=
  let sort : Text := match a with
    | .form _ => "special form"
    | .closure _ => "compound procedure"
    | _ => "atomic procedure"
  text "#<" ++ sort ++ text " '" ++ s.procedureName a ++ text "'>"

/-- The printed form of a port. -/
def showPort (s : Store) (id : PortId) : Text :=
  match s.ports[id]? with
  | some p => p.render
  | none => []

/-- The external form of an atom. -/
def atomDatum (s : Store) : Atom → Datum
  | .int n => .int n
  | .float x _ => .float x
  | .bool b => .bool b
  | .sym name => .sym name
  | .str buffer => .str (s.content buffer)
  | .char c => .char c
  | .void => .unreadable "#<void>"
  | .primitive p => .unreadable (s.showProcedure (.primitive p))
  | .form f => .unreadable (s.showProcedure (.form f))
  | .closure id => .unreadable (s.showProcedure (.closure id))
  | .port id => .unreadable (s.showPort id)

mutual

/-- The external form of a value. -/
def datum (s : Store) : Value → Datum
  | .atom a => s.atomDatum a
  | .nil => .nil
  | .list _ head rest last =>
    .pair (s.datum head) (s.rowDatum rest (match last with
      | none => .nil
      | some a => s.atomDatum a))

/-- The external form of a row of values before an ending. -/
def rowDatum (s : Store) : List Value → Datum → Datum
  | [], last => last
  | v :: vs, last => .pair (s.datum v) (s.rowDatum vs last)

end

/-- The printed form of a value, or what keeps it from being printed when printing may go so deep. An evaluator
sets its own bound; outside of a session the usual limit applies. -/
def print (s : Store) (mode : PrintMode) (v : Value) (room : Nat := nestingLimit) :
    Except PrintFault Text :=
  match v.obstacle? room with
  | some fault => .error fault
  | none => .ok ((s.datum v).print mode)

/-- The files with everything that open streams still hold back. -/
def flushedFiles (s : Store) : FileTree := s.streams.foldl Stream.flush s.files

end Store

end Lisplet
