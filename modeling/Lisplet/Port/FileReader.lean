import Lisplet.Files.Tree
import Lisplet.Number.Significant
import Lisplet.Text.Newline

/-!
# Reading a file

The bytes of a file are taken in portions, each when the text of the one before has been used up, so
what is written into the file meanwhile is seen from the next portion on. A portion is decoded and its
line ends are made uniform; a truncated sequence and a carriage return at its end wait for the next one.
A portion is larger than usual when it is asked for more code points than that: it has as many bytes as
they need if each needs as many as in the portion before.

`FileReader.left_lt_of_portion` says why reading ends: every portion leaves less to take.
-/

namespace Lisplet

/-- Why a stream refuses an operation. -/
inductive StreamFault where
  /-- The stream has been closed. -/
  | closed
  /-- The file holds bytes that are no text. -/
  | undecodable
  /-- The text holds a surrogate, which has no bytes. -/
  | unencodable
  /-- More bytes are asked for than memory can hold. -/
  | outOfMemory

/-- What is asked of a text that is read. -/
inductive Demand where
  /-- So many code points, or all there are if there are fewer. -/
  | points (count : Nat)
  /-- Everything up to and including the next line feed, or to the end. -/
  | line

namespace Demand

/-- What a demand takes off a text, and what stays. -/
def split : Demand → Text → Text × Text
  | .points count, t => (t.take count, t.drop count)
  | .line, t => splitLine t

/-- What is still asked for after a text was handed out; nothing when the demand is met. -/
def after? : Demand → Text → Option Demand
  | .points count, out => if count ≤ out.length then none else some (.points (count - out.length))
  | .line, out => if out.getLast? = some newline then none else some .line

/-- The number of code points that is known to be wanted. -/
def count : Demand → Nat
  | .points count => count
  | .line => 0

end Demand

/-- A file that is being read. -/
structure FileReader where
  /-- The file. -/
  place : Location
  /-- How many of its bytes have been taken. -/
  taken : Nat
  /-- A truncated sequence at the end of the bytes taken. -/
  held : Bytes
  /-- A carriage return at the end of the text taken has been kept back. -/
  holdsReturn : Bool
  /-- Decoded text that is still to be read. -/
  ready : Text
  /-- How many bytes the last portion had. -/
  portionBytes : Nat
  /-- How many code points came of them. -/
  portionPoints : Nat

namespace FileReader

/-- A file before its first byte. -/
def start (place : Location) : FileReader := ⟨place, 0, [], false, [], 0, 0⟩

/-- The bytes of a portion for which nothing else is known. -/
def usualPortion : Nat := 8192

/-- The largest number of bytes that memory can hold at once. -/
def maxPortion : Nat := Nat.pow 2 35

/-- The numbers of bytes from here on say nothing. -/
def machineLimit : Nat := Nat.pow 2 63

/-- How many bytes so many code points are expected to take: as many for each as in the last portion, and
at least one. -/
def expectedBytes (r : FileReader) (count : Nat) : Nat :=
  let size :=
    if r.portionPoints = 0 ∨ r.portionBytes ≤ r.portionPoints then estimatedProduct 1 1 count
    else estimatedProduct r.portionBytes r.portionPoints count
  if size < machineLimit then size else 0

/-- The size of the next portion when so many code points are wanted. -/
def portionSize (r : FileReader) (count : Nat) : Nat := max usualPortion (r.expectedBytes count)

/-- What comes of taking a portion. -/
inductive Portion where
  /-- There is less left than before, and some text may be ready. -/
  | more (r : FileReader)
  /-- There is nothing left. -/
  | finished (r : FileReader)
  | refused (fault : StreamFault) (r : FileReader)

/-- The portion that consists of some bytes. Bytes that are no text are passed over. -/
def takeIn (r : FileReader) (fresh : Bytes) : Portion :=
  let taken := r.taken + fresh.length
  match Utf8.decodePrefix? (r.held ++ fresh) with
  | none => .refused .undecodable { r with taken := taken }
  | some (t, held) =>
    let (t, holdsReturn) := normalizePortion r.holdsReturn t
    .more ⟨r.place, taken, held, holdsReturn, t, fresh.length, t.length⟩

/-- What is found when there are no bytes left: a carriage return that was kept back is a line end, and a
truncated sequence is no text. -/
def atEnd (r : FileReader) : Portion :=
  if !r.held.isEmpty then .refused .undecodable r
  else if r.holdsReturn then .more ⟨r.place, r.taken, [], false, [newline], 0, 1⟩
  else .finished ⟨r.place, r.taken, [], false, [], 0, 0⟩

/-- Takes the next portion of a file with this content when the ready text is used up and so many code
points are wanted. -/
def portion (content : Bytes) (count : Nat) (r : FileReader) : Portion :=
  let size := r.portionSize count
  if maxPortion < size then .refused .outOfMemory r
  else
    let fresh := (content.drop r.taken).take size
    if fresh.isEmpty then r.atEnd else r.takeIn fresh

/-- How much there is left to take: every byte counts, and so does a carriage return kept back. -/
def left (content : Bytes) (r : FileReader) : Nat :=
  2 * (content.length - r.taken) + if r.holdsReturn then 1 else 0

theorem left_le (content : Bytes) (r : FileReader) :
    r.left content ≤ 2 * (content.length - r.taken) + 1 := by
  unfold left
  split <;> omega

/-- Every portion leaves less to take. -/
theorem left_lt_of_portion {content : Bytes} {count : Nat} {r next : FileReader}
    (h : r.portion content count = .more next) : next.left content < r.left content := by
  unfold portion at h
  dsimp only at h
  split at h
  · cases h
  · split at h
    · unfold atEnd at h
      split at h
      · cases h
      · split at h
        · next hr =>
          cases h
          simp [left, hr]
        · cases h
    · next hf =>
      unfold takeIn at h
      dsimp only at h
      split at h
      · cases h
      · cases h
        have hpos : 0 < ((content.drop r.taken).take (r.portionSize count)).length := by
          cases hl : (content.drop r.taken).take (r.portionSize count) with
          | nil => simp [hl] at hf
          | cons b bs => simp
        have hle : ((content.drop r.taken).take (r.portionSize count)).length ≤
            content.length - r.taken := by
          simp only [List.length_take, List.length_drop]
          omega
        refine Nat.lt_of_le_of_lt (left_le content _) ?_
        unfold left
        dsimp only
        omega

/-- The outcome of reading from a file. -/
structure Result where
  /-- The text that was read, or the refusal. -/
  outcome : Except StreamFault Text
  /-- The file afterwards. -/
  after : FileReader

/-- Reads what is demanded; `pieces` is what has been read of it before, last piece first. What was read
before a refusal is lost. -/
def read (content : Bytes) (r : FileReader) (demand : Demand) (pieces : List Text) : Result :=
  let (out, stay) := demand.split r.ready
  let pieces := out :: pieces
  let r := { r with ready := stay }
  match demand.after? out with
  | none => ⟨.ok (Text.gathered pieces), r⟩
  | some demand =>
    match _ : r.portion content demand.count with
    | .more next => read content next demand pieces
    | .finished next => ⟨.ok (Text.gathered pieces), next⟩
    | .refused fault next => ⟨.error fault, next⟩
  termination_by r.left content
  decreasing_by
    have less := left_lt_of_portion ‹_›
    exact less

/-- Reads all there is. Bytes that are no text are passed over and leave the ready text. -/
def readAll (content : Bytes) (r : FileReader) : Result :=
  let fresh := content.drop r.taken
  let taken := r.taken + fresh.length
  match Utf8.decode? (r.held ++ fresh) with
  | none => ⟨.error .undecodable, { r with taken := taken }⟩
  | some t =>
    ⟨.ok (r.ready ++ normalizeNewlines (afterReturn r.holdsReturn t)),
      { r with taken := taken, held := [], holdsReturn := false, ready := [] }⟩

end FileReader

end Lisplet
