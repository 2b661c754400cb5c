import Lisplet.Port.FileReader

/-!
# Streams of text

A stream is what a port reads from or writes to: a text that is used up, a text that grows, or a file
that is read or written. Text that leaves the program, to standard output or to a file, must have bytes.
Written file text is gathered in two stages and reaches the file when a stage overflows or when the
stream is closed; each stream writes from where it has got to.

Every operation gives the stream as it is afterwards, whether it succeeds or not.
-/

namespace Lisplet

/-- Where text comes from or goes to. -/
inductive Stream where
  /-- Text that is still to be read. -/
  | source (rest : Text)
  /-- Text written so far, last piece first, that can be asked for. -/
  | sink (pieces : List Text)
  /-- Text written to standard output and not yet delivered, last piece first. -/
  | console (pieces : List Text)
  /-- A file that is read. -/
  | fileSource (reader : FileReader)
  /-- A file that is written: where the next bytes go, and the bytes of the two stages. -/
  | fileSink (place : Location) (position : Nat) (outer inner : Bytes)
  /-- A file stream after closing. -/
  | closed

namespace Stream

/-- The inner stage of a written file passes its bytes on when it would exceed this. -/
def innerCapacity : Nat := 8192

/-- The outer stage of a written file passes its bytes on when it would exceed this. -/
def outerCapacity : Nat := 4096

/-- The outcome of a reading operation. -/
structure ReadResult where
  /-- The text that was read, or the refusal. -/
  outcome : Except StreamFault Text
  /-- The stream afterwards. -/
  after : Stream

/-- What a file that is read leaves behind, as a stream. -/
def ReadResult.ofFile (result : FileReader.Result) : ReadResult :=
  ⟨result.outcome, .fileSource result.after⟩

/-- The bytes of a file that is read. -/
def contentOf (tree : FileTree) (r : FileReader) : Bytes := (tree.content? r.place).getD []

/-- Reads what is demanded, or all there is if there is less. -/
def read (tree : FileTree) (s : Stream) (demand : Demand) : ReadResult :=
  match s with
  | .source rest =>
    let (out, stay) := demand.split rest
    ⟨.ok out, .source stay⟩
  | .fileSource r => .ofFile (r.read (contentOf tree r) demand [])
  | s => ⟨.error .closed, s⟩

/-- Reads all there is. -/
def readAll (tree : FileTree) (s : Stream) : ReadResult :=
  match s with
  | .source rest => ⟨.ok rest, .source []⟩
  | .fileSource r => .ofFile (r.readAll (contentOf tree r))
  | s => ⟨.error .closed, s⟩

/-- Passes bytes to the outer stage of a written file, and to the file what that cannot hold. -/
def pass (tree : FileTree) (place : Location) (position : Nat) (outer bytes : Bytes) :
    FileTree × Nat × Bytes :=
  if outer.length + bytes.length ≤ outerCapacity then (tree, position, outer ++ bytes)
  else
    let tree := tree.writeAt place position outer
    let position := position + outer.length
    if outerCapacity < bytes.length then
      (tree.writeAt place position bytes, position + bytes.length, [])
    else (tree, position, bytes)

/-- Writes a text. -/
def write (tree : FileTree) (s : Stream) (t : Text) : Except StreamFault (Stream × FileTree) :=
  match s with
  | .sink pieces => .ok (.sink (t :: pieces), tree)
  | .console pieces =>
    match Utf8.encode? t with
    | none => .error .unencodable
    | some _ => .ok (.console (t :: pieces), tree)
  | .fileSink place position outer inner =>
    match Utf8.encode? t with
    | none => .error .unencodable
    | some bytes =>
      let (tree, position, outer, inner) :=
        if !inner.isEmpty && innerCapacity < inner.length + bytes.length then
          let (tree, position, outer) := pass tree place position outer inner
          (tree, position, outer, bytes)
        else (tree, position, outer, inner ++ bytes)
      if innerCapacity ≤ inner.length then
        let (tree, position, outer) := pass tree place position outer inner
        .ok (.fileSink place position outer [], tree)
      else .ok (.fileSink place position outer inner, tree)
  | _ => .error .closed

/-- The file tree with everything that a stream still holds back. -/
def flush (tree : FileTree) : Stream → FileTree
  | .fileSink place position outer inner =>
    if outer.isEmpty && inner.isEmpty then tree
    else tree.writeAt place position (outer ++ inner)
  | _ => tree

end Stream

end Lisplet
