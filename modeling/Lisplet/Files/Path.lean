import Lisplet.Text.Blank

/-!
# File names

A path is a root mark and a row of names. Reading one from text drops empty names and single dots, so
repeated and trailing slashes vanish; double dots stay. Exactly two slashes in front are a root mark
of their own.
-/

namespace Lisplet

/-- A file name, taken apart. -/
structure Path where
  /-- Nothing for a relative path, else one slash or two. -/
  root : Text
  /-- The names between the slashes. -/
  names : List Text
  deriving DecidableEq

namespace Path

/-- The slash that separates names. -/
def slash : CodePoint := '/'

/-- The root mark of a text. -/
def rootOf (t : Text) : Text :=
  match (t.takeWhile fun c => decide (c = slash)).length with
  | 0 => []
  | 2 => [slash, slash]
  | _ => [slash]

/-- Reads a path. -/
def ofText (t : Text) : Path :=
  ⟨rootOf t, (Text.splitOn slash t).filter fun name => !name.isEmpty && decide (name ≠ text ".")⟩

/-- The spelling of a path; the empty relative path is a dot. -/
def toText (p : Path) : Text :=
  if p.root.isEmpty && p.names.isEmpty then text "." else p.root ++ Text.join [slash] p.names

/-- Whether a path starts at the root. -/
def isAbsolute (p : Path) : Bool := !p.root.isEmpty

/-- A path seen from a directory; an absolute path is seen alike from everywhere. -/
def within (directory p : Path) : Path :=
  if p.isAbsolute then p else ⟨directory.root, directory.names ++ p.names⟩

/-- The path without its last name. -/
def parent (p : Path) : Path := ⟨p.root, p.names.dropLast⟩

/-- The path from the root with every double dot taken out together with the name before it. -/
def resolved (p : Path) : Path :=
  ⟨[slash], p.names.foldl (fun above name =>
    if name = text ".." then above.dropLast else above ++ [name]) []⟩

/-- The paths of a text with colons between them; blank ones are left out. -/
def splitList (t : Text) : List Path :=
  ((Text.splitOn ':' t).filterMap fun piece =>
    let trimmed := Text.trim CodePoint.isBlank piece
    if trimmed.isEmpty then none else some (ofText trimmed))

end Path

end Lisplet
