import Lisplet.Evaluation.Evaluator
import Lisplet.Text.Casing

/-!
# String procedures

Strings are shared buffers: `string-set!`, `string-fill!` and `string-copy!` change a buffer in place,
keeping its length, and check all their arguments before that. Every other procedure that gives a
string makes a new buffer. All procedures that take a part of a string take the half-open range of
places from a start, by default zero, to an end, by default the length.
-/

namespace Lisplet.StringOp

/-- An index argument: an integer from zero to a limit. -/
def index (who : Text) (limit : Int) (v : Value) : Action Nat := do
  let k ← Action.asInteger (some who) v
  if 0 ≤ k ∧ k ≤ limit then pure k.toNat
  else Action.evaluationError (.indexOutOfRange k who)

/-- The range that optional start and end arguments select in a text of some length. -/
def range (who : Text) (size : Nat) (args : List Value) : Action (Nat × Nat) := do
  let start ← match args with
    | a :: _ => index who size a
    | [] => pure 0
  let finish ← match args with
    | _ :: b :: _ => index who size b
    | _ => pure size
  if finish < start then Action.evaluationError (.startAfterEnd start finish who)
  else pure (start, finish)

/-- The part of a text from a start to an end. -/
def slice (t : Text) (start finish : Nat) : Text := (t.take finish).drop start

/-- A text with the places from `start` on replaced by a piece. -/
def splice (t : Text) (start : Nat) (piece : Text) : Text :=
  t.take start ++ piece ++ t.drop (start + piece.length)

/-- The part of a string argument that optional arguments select, as a new string. -/
def part (who : Text) (v : Value) (bounds : List Value) : Action Value := do
  let t ← Action.asText (some who) v
  let (start, finish) ← range who t.length bounds
  Action.newString (slice t start finish)

/-- The largest count of code points that a size can express. -/
def maxCount : Int := 9223372036854775807

/-- The largest count of code points that memory can hold. -/
def maxLength : Int := 4294967296

/-- A new string of one code point, repeated. -/
def makeString (who : Text) (count : Value) (filler : List Value) : Action Value := do
  let k ← Action.asInteger (some who) count
  if k < 0 then Action.typeError (.negative "length" who k) (.int k)
  else
    let c ← match filler with
      | v :: _ => Action.asChar (some who) v
      | [] => pure (CodePoint.ofChar ' ')
    if maxCount < k then Action.fault .countTooLarge
    else if maxLength < k then Action.fault .outOfMemory
    else Action.newString (List.replicate k.toNat c)

/-- Replaces one place of a string. -/
def setPlace (who : Text) (v k c : Value) : Action Value := do
  let buffer ← Action.asString (some who) v
  let t ← Action.content buffer
  let k ← index who ((t.length : Int) - 1) k
  let c ← Action.asChar (some who) c
  Action.setContent buffer (splice t k [c])
  pure .void

/-- Copies a part of a string into another one, which may be the same. -/
def copyPart (who : Text) (target position source : Value) (bounds : List Value) :
    Action Value := do
  let buffer ← Action.asString (some who) target
  let old ← Action.content buffer
  let k ← index who old.length position
  let t ← Action.asText (some who) source
  let (start, finish) ← range who t.length bounds
  if old.length < k + (finish - start) then
    Action.evaluationError (.copyDoesNotFit (finish - start) k)
  else
    Action.setContent buffer (splice old k (slice t start finish))
    pure .void

/-- Compares two string arguments. -/
def compareTexts (who : Text) (holds : Text → Text → Bool) (a b : Value) : Action Value := do
  let s ← Action.asText (some who) a
  let t ← Action.asText (some who) b
  pure (.bool (holds s t))

/-- Applies a string procedure. -/
def run (op : StringOp) (args : List Value) : Action Value := do
  match op, args with
  | .length, [v] =>
    let t ← Action.asText (some op.name) v
    pure (.int t.length)
  | .ref, [v, k] =>
    let t ← Action.asText (some op.name) v
    let k ← index op.name ((t.length : Int) - 1) k
    match t[k]? with
    | some c => pure (.char c)
    | none => Action.fault .operandMissing
  | .set, [v, k, c] => setPlace op.name v k c
  | .fill, [v, c] =>
    let buffer ← Action.asString (some op.name) v
    let c ← Action.asChar (some op.name) c
    let t ← Action.content buffer
    Action.setContent buffer (t.map fun _ => c)
    pure .void
  | .make, k :: filler => makeString op.name k filler
  | .ofChars, cs =>
    let t ← cs.mapM (Action.asChar (some op.name))
    Action.newString t
  | .append, vs =>
    let ts ← vs.mapM (Action.asText (some op.name))
    Action.newString ts.flatten
  | .substring, v :: bounds => part op.name v bounds
  | .copy, v :: bounds => part op.name v bounds
  | .upcase, [v] =>
    let t ← Action.asText (some op.name) v
    Action.newString t.upper
  | .downcase, [v] =>
    let t ← Action.asText (some op.name) v
    Action.newString t.lower
  | .foldcase, [v] =>
    let t ← Action.asText (some op.name) v
    Action.newString t.fold
  | .copyInto, target :: position :: source :: bounds =>
    copyPart op.name target position source bounds
  | .equal, [a, b] => compareTexts op.name (fun s t => Text.same s t) a b
  | .less, [a, b] => compareTexts op.name Text.lt a b
  | .greater, [a, b] => compareTexts op.name (fun s t => Text.lt t s) a b
  | .lessEqual, [a, b] => compareTexts op.name (fun s t => !Text.lt t s) a b
  | .greaterEqual, [a, b] => compareTexts op.name (fun s t => !Text.lt s t) a b
  | _, _ => Action.fault .operandMissing

end Lisplet.StringOp
