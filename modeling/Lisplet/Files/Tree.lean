import Lisplet.Files.Name
import Lisplet.Files.Path

/-!
# The file tree

Files with their bytes, and the directories that hold them. Programs create and overwrite files; no
operation makes or removes a directory. A path is looked up name by name from the root, so a name
below something that is no directory, a name that is absent and one that is too long are told apart.
A path that is too long as a whole is refused before any of its names is looked up.
-/

namespace Lisplet

/-- The place of a file or directory: the encoded names from the root to it. -/
abbrev Location := List Bytes

/-- The files and directories there are. -/
structure FileTree where
  /-- The files with their contents. -/
  files : List (Location × Bytes)
  /-- The directories; the root is one without being listed. -/
  directories : List Location
  /-- The home directory, from which relative paths start. -/
  home : Path
  /-- The home directories of users. -/
  userHomes : List (Text × Path)

/-- Why a file cannot be opened. -/
inductive OpenError where
  | absent
  | notDirectory
  | isDirectory
  | nameTooLong
  deriving DecidableEq

/-- Why no file is opened: the path is no name of a file, or the system refuses it. -/
inductive OpenRefusal where
  | name (fault : NameFault)
  | system (reason : OpenError)

/-- The wording of the system for a file that cannot be opened. -/
def OpenError.message : OpenError → Text
  | .absent => text "[Errno 2] No such file or directory"
  | .notDirectory => text "[Errno 20] Not a directory"
  | .isDirectory => text "[Errno 21] Is a directory"
  | .nameTooLong => text "[Errno 36] File name too long"

/-- What a path leads to. -/
inductive Target where
  | file (place : Location)
  | directory (place : Location)
  /-- Nothing, in a directory where a file may be made. -/
  | vacant (place : Location)
  | none (reason : OpenError)

namespace FileTree

/-- The most bytes that one name may have. -/
def maxNameBytes : Nat := 255

/-- The most bytes that a path may have from the root on. -/
def maxPathBytes : Nat := 4095

/-- The content of a file. -/
def content? (tree : FileTree) (place : Location) : Option Bytes := tree.files.lookup place

/-- Whether a place is a directory. -/
def isDirectory (tree : FileTree) (place : Location) : Bool :=
  place.isEmpty || tree.directories.contains place

/-- The bytes of the name that leads to the directory above. -/
def aboveName : Bytes := Utf8.encodeCode '.'.toNat ++ Utf8.encodeCode '.'.toNat

/-- Follows names from a directory. -/
def follow (tree : FileTree) (place : Location) : List Bytes → Target
  | [] => .directory place
  | name :: more =>
    if name = aboveName then tree.follow place.dropLast more
    else if maxNameBytes < name.length then .none .nameTooLong
    else
      let next := place ++ [name]
      if tree.isDirectory next then tree.follow next more
      else if (tree.content? next).isSome then
        if more.isEmpty then .file next else .none .notDirectory
      else if more.isEmpty then .vacant next
      else .none .absent

/-- The names of a path in bytes, or what is wrong with one of them. A missing encoding anywhere in the
path is noticed before a zero byte. -/
def encodedNames (names : List Text) : Except NameFault (List Bytes) :=
  match names.mapM FileName.encode? with
  | none => .error .unencodable
  | some encoded => encoded.mapM fun name => if name.contains 0 then .error .zeroByte else .ok name

/-- What a path leads to. -/
def find (tree : FileTree) (p : Path) : Except NameFault Target := do
  let p := tree.home.within p
  let names ← encodedNames p.names
  let size := names.foldl (fun n name => n + name.length + 1) p.root.length - 1
  if maxPathBytes < size then pure (.none .nameTooLong) else pure (tree.follow [] names)

/-- The home directory of a user; nobody means the own one. -/
def homeOf (tree : FileTree) (user : Text) : Except NameFault Path :=
  if user.isEmpty then .ok tree.home
  else do
    let _ ← encodedNames [user]
    match tree.userHomes.lookup user with
    | some home => pure home
    | none => .error .homeUnknown

/-- A relative path that begins with a tilde means the home directory, and one that begins with a tilde
and a name means the home directory of that user. -/
def expandHome (tree : FileTree) (p : Path) : Except NameFault Path :=
  match p.root, p.names with
  | [], (c :: user) :: more =>
    if c = '~' then do
      let home ← tree.homeOf user
      pure ⟨home.root, home.names ++ more⟩
    else .ok p
  | _, _ => .ok p

/-- The file that a path leads to, for reading. -/
def openForReading (tree : FileTree) (p : Path) : Except OpenRefusal Location :=
  match tree.find p with
  | .error fault => .error (.name fault)
  | .ok (.file place) => .ok place
  | .ok (.directory _) => .error (.system .isDirectory)
  | .ok (.vacant _) => .error (.system .absent)
  | .ok (.none reason) => .error (.system reason)

/-- Replaces the content of a file, or makes the file. -/
def write (tree : FileTree) (place : Location) (bytes : Bytes) : FileTree :=
  if (tree.content? place).isSome then
    { tree with files := tree.files.map fun (p, old) => (p, if p = place then bytes else old) }
  else { tree with files := tree.files ++ [(place, bytes)] }

/-- Makes the file that a path leads to empty, or makes an empty file, for writing. -/
def openForWriting (tree : FileTree) (p : Path) : Except OpenRefusal (Location × FileTree) :=
  match tree.find p with
  | .error fault => .error (.name fault)
  | .ok (.file place) | .ok (.vacant place) => .ok (place, tree.write place [])
  | .ok (.directory _) => .error (.system .isDirectory)
  | .ok (.none reason) => .error (.system reason)

/-- Writes bytes into a file from a position on; a gap before it is filled with zeros. -/
def writeAt (tree : FileTree) (place : Location) (position : Nat) (bytes : Bytes) : FileTree :=
  let old := (tree.content? place).getD []
  let front := old.take position
  let gap := List.replicate (position - front.length) 0
  tree.write place (front ++ gap ++ bytes ++ old.drop (position + bytes.length))

/-- The directories above a place. -/
def ancestors : Location → List Location
  | [] => []
  | name :: more => [] :: (ancestors more).map (name :: ·)

/-- The place of a path from the root that stands for itself. -/
def placeOf (p : Path) : Location := p.names.map fun name => (FileName.encode? name).getD []

/-- The tree with these files below a home directory. -/
def ofFiles (home : Path) (userHomes : List (Text × Path)) (files : List (Path × Bytes)) :
    FileTree :=
  let placed := files.map fun (p, bytes) => (placeOf (home.within p), bytes)
  { files := placed
    directories := (placeOf home :: placed.flatMap fun (place, _) => ancestors place).eraseDups
    home := home
    userHomes := userHomes }

end FileTree

end Lisplet
