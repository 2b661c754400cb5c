import Lisplet.Evaluation.Machine
import Lisplet.Prelude
import Lisplet.Settings

/-!
# Sessions

A session is a store with all special forms and primitive procedures bound in its root scope, on which
sources are evaluated one after another. The forms of a source are evaluated in order, those before a
syntax error too; the error is reported where it stands. What a failed step has done stays done.

The bounds of a session stand for the stack of the machine that it runs on. One counts evaluations inside each
other, one the nesting of data wherever they are descended into: in sources, in templates and when they are
printed. Left aside are the common stack behind these two, the stack of a strict comparison of lists, which no
procedure makes, memory and time, and what is logged.
-/

namespace Lisplet

/-- The bounds of a session. -/
structure Bounds where
  /-- How many evaluations may be nested. -/
  depth : Nat
  /-- How many rounds one evaluation or loop may take. -/
  rounds : Nat
  /-- How deep the data of a source, a template or a printed value may be nested. -/
  nesting : Nat

/-- Bounds that no ordinary program reaches. -/
def Bounds.standard : Bounds := ⟨8330, 1000000000000000, nestingLimit⟩

/-- The evaluator with these bounds. -/
def Bounds.evaluator (b : Bounds) : Evaluator := Evaluator.nested b.rounds b.nesting b.depth

/-- How a session starts. -/
inductive PreludeChoice where
  /-- Without a prelude. -/
  | none
  /-- With the prelude of the library, or that of a directory if one is set. -/
  | standard (setting : Option Text)
  /-- With a source of its own. -/
  | source (t : Text)

/-- The bindings of every root scope. -/
def initialBindings : Table Value :=
  SpecialForm.all.map (fun f => (f.name, .atom (.form f))) ++
    Primitive.all.map (fun p => (p.name, .atom (.primitive p)))

namespace Session

/-- A store with all special forms and primitive procedures. -/
def initialStore (input : Text) (files : FileTree) (directory : Path) (loadRoots : List Path) :
    Store :=
  let s := Store.initial (normalizeNewlines input) files directory loadRoots
  { s with scopes := #[⟨initialBindings, [], none⟩] }

/-- Evaluates the forms of a source in the root scope: the value of the last one. A fault of the
source is reported when the forms before it have been evaluated. -/
def evaluate (ev : Evaluator) (source : Text) : Action Value := do
  let reading := readAll ev.nesting source
  let v ← Action.limited (ev.evalData rootScope reading.forms)
  match reading.failure with
  | none => pure v
  | some (.malformed e) => Action.fail (.parse e)
  | some (.fault f) => Action.fault (.reading f)
  | some .numeralTooLong => Action.fault .numeralTooLong
  | some .nestedTooDeeply => Action.fail .tooDeep

/-- Loads a source file. -/
def loadFile (ev : Evaluator) (name : Text) : Action Value := loadSource ev name

/-- The source of the prelude of a directory; none if the directory has no prelude. -/
def preludeOf (files : FileTree) (directory : Path) : Except Fault (Option Text) :=
  match files.find (Path.within directory (Path.ofText Settings.preludeFile)) with
  | .ok (.file place) => (sourceText files place).map some
  | .ok (.directory _) => .error .isDirectory
  | .ok (.none .nameTooLong) => .error .fileNameTooLong
  | _ => .ok none

/-- Starts a session: evaluates the prelude that is asked for. -/
def start (ev : Evaluator) (choice : PreludeChoice) : Action Unit := do
  match choice with
  | .none => pure ()
  | .source t =>
    if t.isEmpty then pure ()
    else
      let _ ← evaluate ev t
  | .standard none | .standard (some []) =>
    let _ ← evaluate ev preludeSource
  | .standard setting =>
    let s ← get
    match Settings.preludeRoot s.files setting [] >>= preludeOf s.files with
    | .error f => Action.fault f
    | .ok none => pure ()
    | .ok (some t) =>
      let _ ← evaluate ev t

/-- Takes what was written to standard output since it was last taken. -/
def takeOutput : Action Text :=
  modifyGet fun (s : Store) =>
    match s.streams[standardOutput]? with
    | some (.console pieces) =>
      (Text.gathered pieces, { s with streams := s.streams.set! standardOutput (.console []) })
    | _ => ([], s)

end Session

end Lisplet
