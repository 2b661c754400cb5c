import Lisplet.Files.Tree
import Lisplet.Failure

/-!
# Settings

What a session takes from named texts around it: directories to load sources from, the directory of
the prelude, and the bound on nested calls. An unset or empty list of directories means the default
ones; a directory for the prelude that is none stands for the directory above it.
-/

namespace Lisplet.Settings

/-- The bound on nested calls when none is set. -/
def defaultDepth : Int := 25000

/-- The file that the prelude is in. -/
def preludeFile : Text := "core.scm"

/-- The directories of a setting, or the default ones. -/
def directories (setting : Option Text) (defaults : List Path) : List Path :=
  match setting with
  | none | some [] => defaults
  | some t => Path.splitList t

/-- The directories to load sources from. -/
def loadRoots (setting : Option Text) : List Path := directories setting []

/-- The directory of the prelude: the first one of the setting. -/
def preludeRoot (files : FileTree) (setting : Option Text) (defaults : List Path) :
    Except Fault Path :=
  match directories setting defaults with
  | [] => .error .indexOutOfRange
  | p :: _ =>
    match files.find p with
    | .ok (.directory _) => .ok p
    | .ok (.none .nameTooLong) => .error .fileNameTooLong
    | _ => .ok p.parent

/-- The bound on nested calls that a setting asks for. -/
def depth (setting : Option Text) : Except Fault Int :=
  let t := Text.trim CodePoint.isBlank (setting.getD [])
  if t.isEmpty then .ok defaultDepth
  else
    match Integer.read? 10 t with
    | some n => .ok n
    | none => .error .notAnInteger

end Lisplet.Settings
