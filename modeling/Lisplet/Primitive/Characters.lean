import Lisplet.Evaluation.Evaluator
import Lisplet.Text.Casing
import Lisplet.Text.Letter

/-!
# Character procedures

Case mappings and classes of single characters.
-/

namespace Lisplet

/-- The answer of a character procedure on one code point. -/
def CharOp.answer (op : CharOp) (c : CodePoint) : Value :=
  match op with
  | .upcase => .char c.simpleUpper
  | .downcase => .char c.simpleLower
  | .foldcase => .char c.simpleFold
  | .isAlphabetic => .bool c.isLetter
  | .isNumeric => .bool c.isDigit
  | .isWhitespace => .bool c.isBlank
  | .isUpperCase => .bool c.isUpperCase
  | .isLowerCase => .bool c.isLowerCase
  | .digitValue => match c.decimalValue? with
    | some d => .int d
    | none => .bool false

/-- Applies a character procedure. -/
def CharOp.run (op : CharOp) (args : List Value) : Action Value := do
  match args with
  | [v] =>
    let c ← Action.asChar (some op.name) v
    pure (op.answer c)
  | _ => Action.fault .operandMissing

end Lisplet
