import Lisplet.Proofs.DepthOrder
import Lisplet.Proofs.FormShapes

/-!
# Evaluation by other rules

What evaluation does with special forms is told by a rule here, and everything else is left as it is. With the
rule that runs each form, this is evaluation itself. With the rule that refuses a definition or an assignment
where one scope is on the way to the root, an evaluation either is refused or does what it always does: so this
rule tells the evaluations in which code that holds the scope binds a name from all others.
-/

namespace Lisplet

/-- What is done when a form is run. -/
abbrev FormRule := SpecialForm → Evaluator → List Value → ScopeId → Action Step

namespace Evaluator

/-- Applies a procedure to arguments, or a form to operands by a rule. -/
def applyStepBy (rule : FormRule) (ev : Evaluator) (proc : Value) (args : List Value) (scope : ScopeId) :
    Action Step :=
  match proc with
  | .atom (.form f) =>
    if f.arity.accepts args.length then rule f ev args scope
    else Action.fail (.arity f.arity f.name args.length)
  | proc => ev.applyStep proc args scope

/-- The value of the head of a call applied to operands, forms by a rule. -/
def callStepBy (rule : FormRule) (ev : Evaluator) (head : Value) (operands : List Value) (scope : ScopeId) :
    Action Step := do
  let proc ← ev.eval head scope
  match proc with
  | .atom (.form f) => ev.applyStepBy rule (.atom (.form f)) operands scope
  | proc =>
    if proc.isProcedure then
      let args ← ev.operands scope operands
      ev.applyStepBy rule proc args scope
    else Action.typeError .notApplicable proc

/-- One step of evaluating an expression in a scope, with a rule for forms. -/
def stepBy (rule : FormRule) (ev : Evaluator) (expr : Value) (scope : ScopeId) : Action Step :=
  match expr with
  | .list _ head operands none => do
    match ← transformerOf head scope with
    | some id => do
      let expansion ← Action.limited do
        let body ← ev.applyClosure id operands
        ev.finish body
      pure (.tailCall expansion scope)
    | none => ev.callStepBy rule head operands scope
  | expr => ev.step expr scope

/-- Repeats steps until a value comes out; the fuel bounds their number. -/
def trampolineBy (rule : FormRule) (ev : Evaluator) : Nat → Value → ScopeId → Action Value
  | 0, _, _ => throw .exhausted
  | fuel + 1, expr, scope => do
    match ← ev.stepBy rule expr scope with
    | .value v => pure v
    | .tailCall expr scope => ev.trampolineBy rule fuel expr scope

/-- The evaluator that allows this many nested evaluations, all by the same rule for forms. -/
def nestedBy (rule : FormRule) (rounds nesting : Nat) : Nat → Evaluator
  | 0 =>
    { eval := fun _ _ => Action.fault .nestedTooDeeply
      apply := fun _ _ _ => Action.fault .nestedTooDeeply
      rounds := rounds
      nesting := nesting }
  | depth + 1 =>
    { eval := fun expr scope => (nestedBy rule rounds nesting depth).trampolineBy rule rounds expr scope
      apply := fun proc args scope => (nestedBy rule rounds nesting depth).applyStepBy rule proc args scope
      rounds := rounds
      nesting := nesting }

/-! ### The rule of evaluation -/

theorem applyStepBy_run (ev : Evaluator) : ev.applyStepBy SpecialForm.run = ev.applyStep := by
  funext proc args scope
  unfold applyStepBy
  split <;> rfl

theorem callStepBy_run (ev : Evaluator) : ev.callStepBy SpecialForm.run = ev.callStep := by
  have hstep := applyStepBy_run ev
  unfold callStepBy callStep
  generalize ev.applyStepBy SpecialForm.run = act at hstep ⊢
  subst hstep
  funext head operands scope
  refine bind_congr fun proc => ?_
  cases proc with
  | atom a => cases a <;> rfl
  | _ => rfl

theorem stepBy_run (ev : Evaluator) : ev.stepBy SpecialForm.run = ev.step := by
  funext expr scope
  unfold stepBy
  split
  · next head operands =>
    refine bind_congr fun found => ?_
    cases found with
    | none => exact congrFun (congrFun (congrFun (callStepBy_run ev) head) operands) scope
    | some id => rfl
  · rfl

theorem trampolineBy_run (ev : Evaluator) (fuel : Nat) :
    ev.trampolineBy SpecialForm.run fuel = ev.trampoline fuel := by
  induction fuel with
  | zero => rfl
  | succ fuel ih =>
    funext expr scope
    rw [trampolineBy, trampoline, stepBy_run]
    refine bind_congr fun next => ?_
    cases next with
    | value v => rfl
    | tailCall expr scope => exact congrFun (congrFun ih expr) scope

/-- By the rule that runs each form, evaluation is what it is. -/
theorem nestedBy_run (rounds nesting depth : Nat) :
    nestedBy SpecialForm.run rounds nesting depth = nested rounds nesting depth := by
  induction depth with
  | zero => rfl
  | succ depth ih => rw [nestedBy, nested, ih, trampolineBy_run, applyStepBy_run]

end Evaluator

/-! ### Rules that refuse some forms -/

/-- A rule runs a form, or it ends in a signal of some kind. -/
def FormRule.RunsOrRefuses (rule : FormRule) (lost : Signal → Prop) : Prop :=
  ∀ (form : SpecialForm) (ev : Evaluator) (operands : List Value) (scope : ScopeId),
    (rule form ev operands scope).Below lost (form.run ev operands scope)

namespace Evaluator.Below

variable {lost : Signal → Prop} {rule : FormRule} {ev ev' : Evaluator} (hrule : rule.RunsOrRefuses lost)
  (h : ev.Below lost ev')
include hrule h

theorem applyStepBy (proc : Value) (args : List Value) (scope : ScopeId) :
    (ev.applyStepBy rule proc args scope).Below lost (ev'.applyStep proc args scope) := by
  unfold Evaluator.applyStepBy
  split
  · next f =>
    by_cases hcount : f.arity.accepts args.length = true
    · rw [if_pos hcount, Evaluator.applyStep_form hcount]
      exact .trans (hrule f ev args scope) (SpecialForm.run_below h f args scope)
    · rw [if_neg hcount, Evaluator.applyStep_form_of_not hcount]
      exact .refl _
  · exact h.applyStep _ args scope

theorem callStepBy (head : Value) (operands : List Value) (scope : ScopeId) :
    (ev.callStepBy rule head operands scope).Below lost (ev'.callStep head operands scope) := by
  have hprocedure : ∀ proc : Value,
      Action.Below (if proc.isProcedure then do
          let args ← ev.operands scope operands
          ev.applyStepBy rule proc args scope
        else Action.typeError .notApplicable proc) lost
        (if proc.isProcedure then do
          let args ← ev'.operands scope operands
          ev'.applyStep proc args scope
        else Action.typeError .notApplicable proc) := by
    intro proc
    split
    · exact .bind (h.operands scope operands) fun args => h.applyStepBy hrule proc args scope
    · exact .refl _
  refine .bind (h.eval head scope) fun proc => ?_
  cases proc with
  | atom a =>
    cases a with
    | form f => exact h.applyStepBy hrule _ operands scope
    | _ => exact hprocedure _
  | _ => exact hprocedure _

theorem stepBy (expr : Value) (scope : ScopeId) :
    (ev.stepBy rule expr scope).Below lost (ev'.step expr scope) := by
  unfold Evaluator.stepBy
  split
  · refine .bind_right fun found => ?_
    split
    · exact .bind_left (.limited h.lasting (.bind (h.applyClosure _ _) h.finish))
    · exact h.callStepBy hrule _ _ scope
  · exact h.step expr scope

theorem trampolineBy (fuel : Nat) (expr : Value) (scope : ScopeId) :
    (ev.trampolineBy rule fuel expr scope).Below lost (ev'.trampoline fuel expr scope) := by
  induction fuel generalizing expr scope with
  | zero => exact .refl _
  | succ fuel ih =>
    refine .bind (h.stepBy hrule expr scope) fun next => ?_
    cases next with
    | value v => exact .refl _
    | tailCall expr scope => exact ih expr scope

end Evaluator.Below

/-- An evaluation by a rule that refuses some forms is refused as a whole, or it is evaluation itself. -/
theorem Evaluator.nestedBy_below {lost : Signal → Prop} (hlost : Signal.IsLasting lost) {rule : FormRule}
    (hrule : rule.RunsOrRefuses lost) (rounds nesting depth : Nat) :
    (nestedBy rule rounds nesting depth).Below lost (nested rounds nesting depth) := by
  induction depth with
  | zero => exact ⟨hlost, fun expr scope => .refl _, fun proc args scope => .refl _, .inl rfl, .inl rfl⟩
  | succ depth ih => exact ⟨hlost, ih.trampolineBy hrule rounds, ih.applyStepBy hrule, .inl rfl, .inl rfl⟩

end Lisplet
