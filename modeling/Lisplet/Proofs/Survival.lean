import Lisplet.Proofs.PolicyEvaluation

/-!
# What evaluation leaves behind

Evaluation only makes changes that a store may undergo, on every way out: with a value, with a failure or by
leaving the program: this is a policy. So in a session the scopes always make one tree, and whatever exists
survives.
-/

namespace Lisplet

open Lisplet.Action

/-- The scope that a step leaves an expression over to exists. -/
def Step.IsIn : Step → Store → Prop
  | .value _, _ => True
  | .tailCall _ scope, s => scope < s.scopes.size

/-- In scopes that exist, an evaluator only makes changes that a store may undergo. -/
structure Evaluator.Evolving (ev : Evaluator) : Prop where
  eval : ∀ (expr : Value) {scope : ScopeId} {s : Store}, scope < s.scopes.size →
    (ev.eval expr scope).Evolving s fun _ _ => True
  apply : ∀ (proc : Value) (args : List Value) {scope : ScopeId} {s : Store}, scope < s.scopes.size →
    (ev.apply proc args scope).Evolving s Step.IsIn

/-! ### The policy -/

namespace Action.Evolving

variable {α : Type} {act : Action α} {s : Store} {post post' : α → Store → Prop}

theorem imp (h : act.Evolving s post) (himp : ∀ a s', post a s' → post' a s') : act.Evolving s post' :=
  fun hs => ⟨(h hs).1, fun a s' ha => himp a s' ((h hs).2 a s' ha)⟩

theorem of_drifts {good : α → Prop} (h : act.Drifts good) : act.Evolving s fun a _ => good a :=
  fun _ => ⟨(h s).1.evolves, (h s).2⟩

end Action.Evolving

/-- By this policy a store only undergoes changes. Code may be handed everything, and it may run and bind names
in every scope that exists. -/
def Policy.evolution : Policy where
  Obeys := Evolving
  Good := Store.WellFormed
  Later s s' := s.scopes.size ≤ s'.scopes.size
  AdmitsAtom _ _ := True
  Opens scope s := scope < s.scopes.size
  Binds _ := True
  Yields _ _ := True
  IsStrict := False
  of_ok := .of_ok
  of_error h _ := .of_error h
  bind h hnext := h.bind fun a s' hevolves ha => hnext a s' hevolves.size_le ha
  of_good h hs := h hs hs
  limited := .limited
  drifts h _ := .of_drifts h
  strict h := h.elim
  gensym hstart ev scope := .ok (ControlOp.run_gensym hstart ev scope) (.change .freshName) trivial
  newPort port s := .modifyGet (.change (.port port)) ⟨_, rfl, trivial⟩
  closing {act s} port h := by
    have hclose : (modify id >>= fun _ => ensuring act fun s' => s'.closePort port : Action Value).Evolving s _ :=
      .within id h (fun s' hevolves => hevolves.trans (.change (.closing port))) fun _ _ => id
    exact hclose
  redirecting {act s} direction stream port h := .within (·.redirect direction stream) h
    (fun s' hevolves => hevolves.redirect.trans (.change (.closing port))) fun _ _ => id
  later_redirect s direction stream := Nat.le_of_eq (congrArg Array.size (s.scopes_redirect direction stream).symm)
  later_atom _ _ := trivial
  later_opens h hlater := Nat.lt_of_lt_of_le h hlater
  later_yields _ _ _ _ := trivial
  plain _ _ := trivial
  binds _ _ := trivial
  root hs := hs.root_lt
  closure hs _ hc := ⟨hs.closures _ _ hc, fun v _ => v.everywhere_true⟩
  newScope hparent _ := (newScope_evolving hparent _).imp fun _ _ hscope => ⟨hscope, trivial⟩
  newClosure hscope _ := newClosure_evolving hscope
  define _ name _ := define_evolving _ name _
  defineTransformer _ name _ := defineTransformer_evolving _ name _
  assign _ name _ := assign_evolving _ name _
  lookup _ name := (Evolving.of_drifts (lookup_looks _ name).drifts).imp fun v _ _ => v.everywhere_true
  transformer? _ name := (Evolving.of_drifts (transformer?_looks _ name).drifts).imp fun _ _ _ _ _ => trivial

namespace Policy

variable {s : Store}

theorem evolution_admits (v : Value) : evolution.Admits v s := v.everywhere_true

theorem evolution_admitsAll (vs : List Value) : evolution.AdmitsAll vs s := fun v _ => evolution_admits v

theorem evolution_admitsStep_iff {step : Step} : evolution.AdmitsStep step s ↔ step.IsIn s := by
  cases step with
  | value v => exact iff_of_true (evolution_admits v) trivial
  | tailCall expr scope => exact and_iff_right (evolution_admits expr)

end Policy

/-- A file that has been opened has only brought changes. -/
theorem openFile_evolves {direction : Direction} {who : Text} {name port : Value} {s s' : Store} (hs : s.WellFormed)
    (h : openFile direction who name s = .ok port s') : s.Evolves s' := by
  have hopening : (openFile direction who name).Evolving s _ :=
    openFile_obeys (p := Policy.evolution) direction who name s
  have hevolves := (hopening hs).1
  rwa [after_of_ok h] at hevolves

/-! ### Evaluators -/

namespace Evaluator

theorem evolving_iff {ev : Evaluator} : ev.Evolving ↔ Policy.evolution.Governs ev := by
  constructor
  · intro h
    refine ⟨fun _ hscope => (h.eval _ hscope).imp fun v _ _ => Policy.evolution_admits v, fun _ _ hscope => ?_⟩
    exact (h.apply _ _ hscope).imp fun _ _ => Policy.evolution_admitsStep_iff.mpr
  · intro h
    refine ⟨fun expr scope s hscope => ?_, fun proc args scope s hscope => ?_⟩
    · exact (h.eval (Policy.evolution_admits expr) hscope).imp fun _ _ _ _ => trivial
    · exact (h.apply (Policy.evolution_admits proc) (Policy.evolution_admitsAll args) hscope).imp
        fun _ _ _ => Policy.evolution_admitsStep_iff.mp

namespace Evolving

variable {ev : Evaluator} (h : ev.Evolving) {scope : ScopeId} {s : Store}

include h

theorem evalForms (hscope : scope < s.scopes.size) (exprs : List Value) :
    (ev.evalForms scope exprs).Evolving s fun _ _ => True :=
  ((evolving_iff.mp h).evalForms (Policy.evolution_admitsAll exprs) hscope).imp fun _ _ _ _ => trivial

theorem operands (hscope : scope < s.scopes.size) (exprs : List Value) :
    (ev.operands scope exprs).Evolving s fun _ _ => True :=
  ((evolving_iff.mp h).operands (Policy.evolution_admitsAll exprs) hscope).imp fun _ _ _ _ => trivial

theorem call (hscope : scope < s.scopes.size) (proc : Value) (args : List Value) :
    (ev.call proc args scope).Evolving s fun _ _ => True :=
  ((evolving_iff.mp h).call (Policy.evolution_admits proc) (Policy.evolution_admitsAll args) hscope).imp
    fun _ _ _ _ => trivial

theorem evalData (hscope : scope < s.scopes.size) (ds : List Datum) :
    (ev.evalData scope ds).Evolving s fun _ _ => True :=
  ((evolving_iff.mp h).evalData ds hscope).imp fun _ _ _ _ => trivial

theorem applyStep (proc : Value) (args : List Value) (hscope : scope < s.scopes.size) :
    (ev.applyStep proc args scope).Evolving s Step.IsIn := by
  have hrun := (evolving_iff.mp h).applyStepBy (Policy.permits_run fun _ _ => trivial)
    (Policy.evolution_admits proc) (Policy.evolution_admitsAll args) hscope
  rw [applyStepBy_run] at hrun
  exact hrun.imp fun _ _ _ => Policy.evolution_admitsStep_iff.mp

end Evolving

/-- Any number of nested evaluations. -/
theorem nested_evolving (rounds nesting depth : Nat) : (nested rounds nesting depth).Evolving :=
  evolving_iff.mpr (nested_governed (fun _ _ => trivial) rounds nesting depth)

end Evaluator

/-! ### Sessions -/

namespace Session

/-- An expression needs a scope to be evaluated in. -/
def Request.FitsIn (s : Store) : Request → Prop
  | .expression _ scope => scope < s.scopes.size
  | _ => True

theorem Request.perform_evolving (b : Bounds) {r : Request} {s : Store} (hr : r.FitsIn s) :
    (r.perform b).Evolving s fun _ _ => True := by
  have h : b.evaluator.Evolving := Evaluator.nested_evolving b.rounds b.nesting b.depth
  refine (Request.perform_obeys (Evaluator.evolving_iff.mp h) id fun expr scope heq => ?_).imp
    fun _ _ _ _ => trivial
  cases heq
  exact ⟨Policy.evolution_admits expr, hr⟩

/-- The stores that a session passes through, however its requests end. -/
inductive Reachable : Store → Prop
  | initial (input : Text) (files : FileTree) (directory : Path) (loadRoots : List Path) :
      Reachable (initialStore input files directory loadRoots)
  | after {s : Store} (h : Reachable s) (b : Bounds) (r : Request) (hr : r.FitsIn s) :
      Reachable ((r.perform b).after s)

theorem initialStore_wellFormed (input : Text) (files : FileTree) (directory : Path)
    (loadRoots : List Path) : (initialStore input files directory loadRoots).WellFormed where
  scopes := by
    refine ⟨⟨_, rfl, rfl⟩, fun id scope hscope hne => ?_⟩
    have hlt := Scopes.lt_size hscope
    have hzero : id = rootScope := Nat.lt_one_iff.mp hlt
    exact absurd hzero hne
  closures _ _ hc := nomatch hc

theorem Reachable.wellFormed {s : Store} (h : Reachable s) : s.WellFormed := by
  induction h with
  | initial => exact initialStore_wellFormed _ _ _ _
  | after h b r hr ih => exact ((Request.perform_evolving b hr) ih).1.wellFormed ih

end Session

/-! ### Normalized values -/

namespace Value

mutual

/-- No list in a value ends in a list, and none that ends in something else is without items. -/
def IsNormalized : Value → Prop
  | .atom _ | .nil => True
  | .list id head rest last =>
    (∀ tail ∈ last.map Value.atom, tail.isList = false) ∧
      ((Value.list id head rest last).isProper = false →
        (Value.list id head rest last).items ≠ []) ∧
      head.IsNormalized ∧ RowIsNormalized rest

def RowIsNormalized : List Value → Prop
  | [] => True
  | v :: vs => v.IsNormalized ∧ RowIsNormalized vs

end

mutual

/-- Lists are normalized by what they are made of. -/
theorem isNormalized : ∀ v : Value, v.IsNormalized
  | .atom _ => trivial
  | .nil => trivial
  | .list id head rest last => by
    refine ⟨?_, fun _ => List.cons_ne_nil head rest, isNormalized head, rowIsNormalized rest⟩
    intro tail htail
    cases last with
    | none => exact nomatch htail
    | some a =>
      obtain rfl := Option.some.inj htail
      rfl

theorem rowIsNormalized : ∀ vs : List Value, RowIsNormalized vs
  | [] => trivial
  | v :: vs => ⟨isNormalized v, rowIsNormalized vs⟩

end

end Value

namespace Session

/-- Whatever is asked of a session, and however it ends: scopes keep their parents and their names, strings
their lengths, closed ports stay closed and fresh numbers grow; every scope's way along its parents ends in
the root; and all lists that are bound or returned are normalized. -/
theorem perform_keeps_store {s : Store} (h : Reachable s) (b : Bounds) {r : Request}
    (hr : r.FitsIn s) :
    let s' := (r.perform b).after s
    s.Survives s' ∧
    (∀ id < s'.scopes.size, s'.scopes.Climbs id (s'.scopes.chain id)) ∧
    (∀ (id : ScopeId) (scope : Scope), s'.scopes[id]? = some scope →
      ∀ entry ∈ scope.bindings, entry.2.IsNormalized) ∧
    ∀ v s'', r.perform b s = .ok v s'' → v.IsNormalized := by
  intro s'
  have hevolves : s.Evolves s' := (Request.perform_evolving b hr h.wellFormed).1
  have htree : s'.scopes.IsTree := (hevolves.wellFormed h.wellFormed).scopes
  exact ⟨hevolves.survives, fun id hid => htree.climbs_chain hid,
    fun _ _ _ entry _ => entry.2.isNormalized, fun v _ _ => v.isNormalized⟩

/-- A definition in a fresh session. -/
theorem perform_keeps_store_define :
    let s := initialStore [] ⟨[], [], ⟨[], []⟩, []⟩ ⟨[], []⟩ []
    let r := Request.expression (.list 2 (.sym "define") [.sym "x", .int 5] none) rootScope
    Reachable s ∧ r.FitsIn s ∧ s.Survives ((r.perform .standard).after s) := by
  intro s r
  have hs : Reachable s := .initial [] _ _ []
  have hr : r.FitsIn s := Nat.zero_lt_one
  exact ⟨hs, hr, (perform_keeps_store hs .standard hr).1⟩

end Session

end Lisplet
