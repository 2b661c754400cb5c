import Lisplet.Proofs.SingleSteps

/-!
# Tail calls

An expression finishes when some bound on the rounds, and every larger one, lets it come to a value. A tail
call hands over to another expression and needs no more room for nesting, so an expression finishes as soon
as what it leaves over does.

A procedure that calls itself in tail position goes on in a store that has grown. Its closure stands where
it stood and the scope around it sees what it saw, which is all that the next call needs.
-/

namespace Lisplet

namespace Evaluator

/-- With this much room, and rounds enough, an expression comes to a value. -/
def Finishes (nesting depth : Nat) (expr : Value) (scope : ScopeId) (s : Store) (v : Value) : Prop :=
  ∃ least, ∀ rounds ≥ least, ∀ fuel ≥ least, ∃ s',
    (nested rounds nesting depth).trampoline fuel expr scope s = .ok v s'

section

variable {nesting depth : Nat} {expr expr' v : Value} {scope scope' : ScopeId} {s s' : Store}

theorem Steps.finishes (h : Steps nesting depth expr scope s (.value v) s') :
    Finishes nesting depth expr scope s v :=
  ⟨1, fun rounds hrounds _ hfuel => ⟨s', trampoline_value (h rounds hrounds) hfuel⟩⟩

/-- A step that leaves an expression over finishes with it. -/
theorem Steps.finishes_with (h : Steps nesting depth expr scope s (.tailCall expr' scope') s')
    (hnext : Finishes nesting depth expr' scope' s' v) : Finishes nesting depth expr scope s v := by
  obtain ⟨least, hleast⟩ := hnext
  refine ⟨least + 1, fun rounds hrounds fuel hfuel => ?_⟩
  obtain ⟨fuel, rfl⟩ := Nat.exists_eq_add_one_of_ne_zero (Nat.ne_zero_of_lt hfuel)
  rw [trampoline_tailCall (h rounds (Nat.lt_of_lt_of_le (Nat.succ_pos least) hrounds)) fuel]
  exact hleast rounds (Nat.le_of_succ_le hrounds) fuel (Nat.le_of_succ_le_succ hfuel)

/-- An evaluator of one level more evaluates what finishes. -/
theorem Finishes.eval (h : Finishes nesting depth expr scope s v) :
    ∃ least, ∀ rounds ≥ least, ∃ s', (nested rounds nesting (depth + 1)).eval expr scope s = .ok v s' := by
  obtain ⟨least, hleast⟩ := h
  exact ⟨least, fun rounds hrounds => hleast rounds hrounds rounds hrounds⟩

end

end Evaluator

/-! ### Procedures of one parameter -/

/-- A name means a closure, and no transformer. -/
structure Env.Knows (env : Env) (name : Text) (c : ClosureId) : Prop where
  value : env.value name = some (.atom (.closure c))
  transformer : env.transformer name = none

theorem Env.Knows.bind_one {env : Env} {name other : Text} {c : ClosureId} (h : env.Knows name c)
    (hne : name ≠ other) (v : Value) : (env.bind [(other, v)]).Knows name c :=
  ⟨(value_bind_of_ne hne v env).trans h.value, h.transformer⟩

/-- A procedure with one parameter and one expression: where it stands among all closures, the scope that it
was made in and what that scope sees. -/
structure UnaryProcedure where
  id : ClosureId
  name : Text
  param : Text
  body : Value
  scope : ScopeId
  home : Env
  closures : Array Closure

namespace UnaryProcedure

/-- The procedure as a store keeps it. -/
def closure (p : UnaryProcedure) : Closure := ⟨some p.name, ⟨[p.param], none⟩, [p.body], p.scope⟩

/-- The environment of its body when the parameter is bound. -/
def inside (p : UnaryProcedure) (w : Value) : Env := p.home.bind [(p.param, w)]

/-- A procedure stands in a store, and the scope that it was made in sees what is around it. -/
structure IsIn (p : UnaryProcedure) (s : Store) : Prop where
  closures : s.closures = p.closures
  closure : s.closures[p.id]? = some p.closure
  sees : s.scopes.Sees p.scope p.home

/-- Applied to one value, a procedure finishes with another one, in every store that it stands in. -/
def Proceeds (p : UnaryProcedure) (nesting depth : Nat) (w v : Value) : Prop :=
  ∀ (s : Store) (scope : ScopeId), p.IsIn s → s.scopes.Sees scope (p.inside w) →
    Evaluator.Finishes nesting depth p.body scope s v

variable {p : UnaryProcedure} {s s' : Store} {scope : ScopeId} {env : Env} {w v : Value}
  {nesting depth : Nat}

theorem IsIn.withObject (h : p.IsIn s) : p.IsIn s.withObject :=
  ⟨h.closures, h.closure, h.sees⟩

theorem IsIn.withScope (h : p.IsIn s) (hsees : s.scopes.Sees scope env) (t : Table Value) :
    p.IsIn (s.withScope scope t) := ⟨h.closures, h.closure, h.sees.push_extends hsees t⟩

/-- Its body finishes in a new scope inside its own. -/
theorem Proceeds.enter (h : p.Proceeds nesting depth w v) (hs : p.IsIn s) :
    Evaluator.Finishes nesting depth p.body s.scopes.size
      (s.withObject.withScope p.scope [(p.param, w)]) v :=
  h _ _ (hs.withObject.withScope hs.sees _) (hs.sees.push _)

section

open Evaluator

variable (hs : p.IsIn s) (hsees : s.scopes.Sees scope env)
include hs hsees

/-- A call by name. -/
theorem Proceeds.call (h : p.Proceeds nesting (depth + 1) w v) {name : Text} (hknows : env.Knows name p.id)
    {arg : Value} (harg : Gives nesting (depth + 1) arg scope s w s) (id : ObjectId) :
    Finishes nesting (depth + 1) (.call id name [arg]) scope s v :=
  (Steps.closure hsees hknows.value hknows.transformer (.cons harg .nil) hs.closure rfl rfl).finishes_with
    (h.enter hs)

variable (husual : env.IsUsual)
include husual

/-- An application to a list of one argument. -/
theorem Proceeds.apply (h : p.Proceeds nesting (depth + 2) w v) {name : Text}
    (hknows : env.Knows name p.id) {arg : Value} (harg : Gives nesting (depth + 1) arg scope s w s)
    (id id' : ObjectId) :
    Finishes nesting (depth + 2) (.call id "apply" [.sym name, .call id' "list" [arg]]) scope s v :=
  (Steps.apply hsees husual (.name hsees hknows.value) (.list hsees husual (.cons harg .nil)) rfl
    hs.withObject.closure rfl rfl).finishes_with (h.enter hs.withObject)

/-- A call that is put together as a list and evaluated. -/
theorem Proceeds.eval (h : p.Proceeds nesting (depth + 3) w v) {name : Text}
    (hknows : env.Knows name p.id) {arg : Value} (harg : Gives nesting (depth + 2) arg scope s w s)
    (hw : w.isSelfEvaluating = true) (id id' id'' : ObjectId) :
    Finishes nesting (depth + 3)
      (.call id "eval" [.call id' "list" [.call id'' "quote" [.sym name], arg]]) scope s v := by
  have hquote : Gives nesting (depth + 2) (.call id'' "quote" [.sym name]) scope s (.sym name) s :=
    (Steps.quote hsees husual (.sym name)).gives
  refine (Steps.eval hsees husual (.list hsees husual (.cons hquote (.cons harg .nil)))).finishes_with ?_
  exact h.call hs.withObject hsees hknows (.constant hw) s.nextObject

/-- A clause that hands the value of its test to the procedure, behind a clause that is passed over. -/
theorem Proceeds.receiver (h : p.Proceeds nesting (depth + 2) w v) {name : Text}
    (hknows : env.Knows name p.id) {before arg : Value} (body : List Value)
    (hbefore : Gives nesting (depth + 2) before scope s (.bool false) s)
    (hname : before.isSymbol Forms.elseName = false)
    (harg : Gives nesting (depth + 2) arg scope s w s) (hname' : arg.isSymbol Forms.elseName = false)
    (hw : w.isTruthy = true) (id id' id'' : ObjectId) :
    Finishes nesting (depth + 2)
      (.call id "cond" [.list id' before body none, .list id'' arg [.sym "=>", .sym name] none]) scope s
      v := by
  refine (Steps.cond hsees husual ?_ fun rounds hrounds => ?_).finishes_with (h.enter hs)
  · rw [Forms.checkClauses, hname, Bool.false_and, if_neg Bool.false_ne_true, Forms.checkClauses, hname',
      Bool.false_and, if_neg Bool.false_ne_true, Forms.checkClauses]
  · rw [tryClauses_false (hbefore rounds hrounds) hname rfl]
    refine (tryClauses_receiver (harg rounds hrounds) hname' hw
      (Gives.name hsees hknows.value rounds hrounds) hs.closure rfl []).trans ?_
    exact applyClosure_single hs.closure rfl rfl

end

end UnaryProcedure

end Lisplet
