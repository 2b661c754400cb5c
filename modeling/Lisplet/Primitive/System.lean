import Lisplet.Evaluation.Evaluator
import Lisplet.Port.Operations

/-!
# Loading sources and leaving

A source file is read as a whole before any of its forms is evaluated, and its forms are evaluated in
the root scope. A relative name is sought in the working directory and then in the load directories.
-/

namespace Lisplet

/-- The value of the last of some data, evaluated in order in a scope. -/
def Evaluator.evalData (ev : Evaluator) (scope : ScopeId) : List Datum → Action Value
  | [] => pure .void
  | [d] => do
    let expr ← Action.instantiate d
    ev.eval expr scope
  | d :: more => do
    let expr ← Action.instantiate d
    let _ ← ev.eval expr scope
    ev.evalData scope more

/-- The place of the file that a path leads to. A path that is too long for the system is a fault, and a
path that no file can have leads to none. -/
def sourceAt (files : FileTree) (p : Path) : Except Fault (Option Location) :=
  match files.find p with
  | .ok (.file place) => .ok (some place)
  | .ok (.none .nameTooLong) => .error .fileNameTooLong
  | _ => .ok none

/-- The first directory that has a file under a relative path, with the path from the root on. -/
def searchDirectories (files : FileTree) (p : Path) :
    List Path → Except Fault (Option (Path × Location))
  | [] => .ok none
  | directory :: more => do
    let full := files.home.within (Path.within directory p)
    match ← sourceAt files full with
    | some place => pure (some (full.resolved, place))
    | none => searchDirectories files p more

/-- The file that a name to load refers to, and the path that messages use for it. -/
def findSource (s : Store) (name : Text) : Except Fault (Option (Path × Location)) :=
  match s.files.expandHome (Path.ofText name) with
  | .error f => .error (.name f)
  | .ok p =>
    if p.isAbsolute then do
      let found ← sourceAt s.files p
      pure (found.map fun place => (p, place))
    else searchDirectories s.files p (s.directory :: s.loadRoots)

/-- The text of a file, with uniform line ends. -/
def sourceText (files : FileTree) (place : Location) : Except Fault Text :=
  match Utf8.decode? ((files.content? place).getD []) with
  | some t => .ok (normalizeNewlines t)
  | none => .error (.stream .undecodable)

/-- Loads a source file: reads it completely, then evaluates its forms in the root scope. -/
def loadSource (ev : Evaluator) (name : Text) : Action Value := do
  let s ← get
  match findSource s name with
  | .error f => Action.fault f
  | .ok none => Action.evaluationError (.loadNotFound name)
  | .ok (some (path, place)) =>
    match sourceText s.files place with
    | .error f => Action.fault f
    | .ok source =>
      let reading := readAll ev.nesting source
      match reading.failure with
      | some (.malformed e) => Action.evaluationError (.loadMalformed path e)
      | some (.fault f) => Action.fault (.reading f)
      | some .numeralTooLong => Action.fault .numeralTooLong
      | some .nestedTooDeeply => Action.fault .nestedTooDeeply
      | none => Action.limited (ev.evalData rootScope reading.forms)

/-- The exit code that an optional argument gives. -/
def exitCode : List Value → Action Int
  | [] => pure 0
  | .atom (.bool true) :: _ => pure 0
  | .atom (.bool false) :: _ => pure 1
  | .atom (.int n) :: _ => pure n
  | v :: _ => Action.typeError .exitCode v

/-- Applies a system procedure. -/
def SystemOp.run (op : SystemOp) (ev : Evaluator) (args : List Value) : Action Value := do
  match op, args with
  | .load, [name] =>
    let t ← Action.asText (some op.name) name
    loadSource ev t
  | .exit, args =>
    let code ← exitCode args
    throw (.exit code)
  | _, _ => Action.fault .operandMissing

end Lisplet
