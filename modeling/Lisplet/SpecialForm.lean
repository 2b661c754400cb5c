import Lisplet.Arity

/-!
# Special forms

The seventeen forms whose operands are not evaluated before the form sees them: their names and how
many operands each takes.
-/

namespace Lisplet

/-- A form with an evaluation rule of its own. -/
inductive SpecialForm where
  | define
  | assign
  | lambda
  | conditional
  | cond
  | conjunction
  | disjunction
  | bind
  | bindSequentially
  | bindRecursively
  | sequence
  | loop
  | quote
  | quasiquote
  | unquote
  | unquoteSplicing
  | defineTransformer
  deriving DecidableEq

namespace SpecialForm

/-- Every special form, in the order of its registration. -/
def all : List SpecialForm :=
  [define, assign, lambda, conditional, cond, conjunction, disjunction, bind, bindSequentially,
    bindRecursively, sequence, loop, quote, quasiquote, unquote, unquoteSplicing, defineTransformer]

/-- The symbol that a special form is bound to. -/
def name : SpecialForm → Text
  | define => "define"
  | assign => "set!"
  | lambda => "lambda"
  | conditional => "if"
  | cond => "cond"
  | conjunction => "and"
  | disjunction => "or"
  | bind => "let"
  | bindSequentially => "let*"
  | bindRecursively => "letrec"
  | sequence => "begin"
  | loop => "do"
  | quote => "quote"
  | quasiquote => "quasiquote"
  | unquote => "unquote"
  | unquoteSplicing => "unquote-splicing"
  | defineTransformer => "define-macro"

/-- How many operands a special form takes. -/
def arity : SpecialForm → Arity
  | define | lambda | bind | bindSequentially | bindRecursively | loop | defineTransformer =>
    .atLeast 2
  | assign => .exact 2
  | conditional => .range 2 3
  | cond | conjunction | disjunction | sequence | unquote | unquoteSplicing => .any
  | quote | quasiquote => .exact 1

/-- The list of special forms leaves none out. -/
theorem mem_all (f : SpecialForm) : f ∈ all := by
  cases f <;> decide

end SpecialForm

end Lisplet
