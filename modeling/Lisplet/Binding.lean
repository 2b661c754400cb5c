import Lisplet.Action
import Lisplet.Text.Printable

/-!
# Binding under any value

Only symbols name bindings. A definition under another value fails, and shows that value in an
internal form that tells its representation: truth values by name, strings and characters quoted,
lists in their written form.
-/

namespace Lisplet

/-- Floats in their internal form have names of their own for what is no number. -/
def internalFloatStyle : FloatStyle :=
  { floatStyle with notANumber := "nan", infinity := "inf", minusInfinity := "-inf" }

/-- The internal form of a value. -/
def Action.internalForm (v : Value) : Action Text := do
  let s ← get
  match v with
  | .atom (.bool b) => pure (text (if b then "True" else "False"))
  | .atom (.float x _) => pure (internalFloatStyle.render x)
  | .atom (.str buffer) => pure (text "MString(" ++ (s.content buffer).quoted ++ text ")")
  | .atom (.char c) => pure (text "Char(" ++ Text.quoted [c] ++ text ")")
  | .atom a => Action.print .write (.atom a)
  | v => do
    let shown ← Action.print .write v
    pure (text "List(" ++ shown ++ text ")")

/-- Binds a name, which must be a symbol, in a scope. -/
def Action.defineUnder (scope : ScopeId) (name v : Value) : Action Unit := do
  match name with
  | .atom (.sym name) => Action.define scope name v
  | name => do
    let shown ← Action.internalForm name
    Action.typeError (.notBindable shown) name

end Lisplet
