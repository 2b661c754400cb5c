import Lisplet.Proofs.ArgumentBinding
import Lisplet.Proofs.Clauses
import Lisplet.Proofs.FormRules
import Lisplet.Proofs.PrimitiveValues

/-!
# Policies

A policy says what code may be handed, where it may run, and where it may bind names; an action obeys it from one
store on, and its value fits the store that it leaves. What evaluation is put together from obeys when its parts
do. So a policy is given by what it says of the few actions that touch scopes, closures and ports, and of putting
actions together; that evaluation as a whole obeys follows for all policies at once.

This module has the laws of a policy, and what they give for the actions that forms and procedures are made of.
-/

namespace Lisplet

open Lisplet.Action

theorem Value.everywhere_true (v : Value) : v.Everywhere fun _ => True := v.everywhere_of_forall fun _ => trivial

/-- What a policy speaks of. -/
structure Policy.Terms where
  /-- From a store on an action obeys, and its value fits the store that it leaves. -/
  Obeys : {α : Type} → Action α → Store → (α → Store → Prop) → Prop
  /-- What holds of every store that actions run on. -/
  Good : Store → Prop
  /-- What may become of a store. -/
  Later : Store → Store → Prop
  /-- Code may be handed an atom. -/
  AdmitsAtom : Atom → Store → Prop
  /-- Code may run in a scope. -/
  Opens : ScopeId → Store → Prop
  /-- Names may be bound in a scope. -/
  Binds : ScopeId → Prop
  /-- Names may be bound in all scopes from one on. -/
  Yields : ScopeId → Store → Prop
  /-- No action may reach for what is not there. -/
  IsStrict : Prop

namespace Policy.Terms

variable (t : Policy.Terms)

/-- A value may be handed to code. -/
def Admits (v : Value) (s : Store) : Prop := v.Everywhere fun a => t.AdmitsAtom a s

/-- All values in a row may be handed to code. -/
def AdmitsAll (vs : List Value) (s : Store) : Prop := ∀ v ∈ vs, t.Admits v s

/-- What a step leads to may be handed to code. -/
def AdmitsStep : Step → Store → Prop
  | .value v, s => t.Admits v s
  | .tailCall expr scope, s => t.Admits expr s ∧ t.Opens scope s

/-- Code is only handed what is there, and quiet procedures reach for nothing else. -/
structure StaysInRange : Prop where
  held {a : Atom} {s : Store} (h : t.AdmitsAtom a s) : a.IsHeld s
  quiet {p : Primitive} (hp : p.IsQuiet) {args : List Value} {s : Store}
    (hcount : p.arity.accepts args.length = true) (hargs : s.HoldsAll args) (ev : Evaluator) (scope : ScopeId) :
    ∀ f, (p.run ev args scope).EndsInFault s f → ¬ f.IsOutOfRange

end Policy.Terms

/-- A policy: the laws by which actions obey. -/
structure Policy extends Policy.Terms where
  of_ok {α : Type} {act : Action α} {s : Store} {a : α} {post : α → Store → Prop} (h : act s = .ok a s)
    (hpost : post a s) : Obeys act s post
  of_error {α : Type} {act : Action α} {s : Store} {e : Signal} {post : α → Store → Prop}
    (h : act s = .error e s) (he : IsStrict → e.IsInRange) : Obeys act s post
  bind {α β : Type} {act : Action α} {next : α → Action β} {s : Store} {post : α → Store → Prop}
    {post' : β → Store → Prop} (h : Obeys act s post)
    (hnext : ∀ a s', Later s s' → post a s' → Obeys (next a) s' post') : Obeys (act >>= next) s post'
  of_good {α : Type} {act : Action α} {s : Store} {post : α → Store → Prop} (h : Good s → Obeys act s post) :
    Obeys act s post
  limited {α : Type} {act : Action α} {s : Store} {post : α → Store → Prop} (h : Obeys act s post) :
    Obeys (Action.limited act) s post
  /-- What lets the store drift obeys. -/
  drifts {α : Type} {act : Action α} {good : α → Prop} {s : Store} (h : act.Drifts good)
    (hfault : IsStrict → ∀ f, act.EndsInFault s f → ¬ f.IsOutOfRange) : Obeys act s fun a _ => good a
  strict (h : IsStrict) : toTerms.StaysInRange
  /-- A call for a fresh symbol that is not refused. -/
  gensym {args : List Value} {start : Text} {s : Store} (hstart : s.freshPrefix? args = some start)
    (ev : Evaluator) (scope : ScopeId) : Obeys (ControlOp.gensym.run ev args scope) s toTerms.AdmitsStep
  newPort (port : Port) (s : Store) : Obeys (Action.newPort port) s fun v s' =>
    ∃ id, v = .atom (.port id) ∧ AdmitsAtom (.port id) s'
  /-- A port may be closed at the end of a call. -/
  closing {act : Action Value} {s : Store} (port : PortId) (h : Obeys act s toTerms.Admits) :
    Obeys (Action.ensuring act fun s' => s'.closePort port) s toTerms.Admits
  /-- A current port may be another one during a call. -/
  redirecting {act : Action Value} {s : Store} (direction : Direction) (stream : StreamId) (port : PortId)
    (h : Obeys act (s.redirect direction stream) toTerms.Admits) :
    Obeys (modify (fun s' => s'.redirect direction stream) >>= fun _ => Action.ensuring act
      fun s' => (s'.redirect direction (s.current direction)).closePort port) s toTerms.Admits
  later_redirect (s : Store) (direction : Direction) (stream : StreamId) : Later s (s.redirect direction stream)
  later_atom {a : Atom} {s s' : Store} (h : AdmitsAtom a s) (hlater : Later s s') : AdmitsAtom a s'
  later_opens {scope : ScopeId} {s s' : Store} (h : Opens scope s) (hlater : Later s s') : Opens scope s'
  later_yields {scope : ScopeId} {s s' : Store} (hs : Good s) (hscope : Opens scope s) (h : Yields scope s)
    (hlater : Later s s') : Yields scope s'
  plain {a : Atom} (h : a.IsPlain) (s : Store) : AdmitsAtom a s
  binds {scope : ScopeId} {s : Store} (hscope : Opens scope s) (h : Yields scope s) : Binds scope
  root {s : Store} (hs : Good s) : Opens rootScope s
  /-- A closure that code may be handed runs where code may run. -/
  closure {id : ClosureId} {c : Closure} {s : Store} (hs : Good s) (hid : AdmitsAtom (.closure id) s)
    (hc : s.closures[id]? = some c) : Opens c.scope s ∧ toTerms.AdmitsAll c.body s
  newScope {parent : ScopeId} {s : Store} {t : Table Value} (hparent : Opens parent s)
    (ht : ∀ entry ∈ t, toTerms.Admits entry.2 s) :
    Obeys (Action.newScope parent t) s fun scope s' => Opens scope s' ∧ Binds scope
  newClosure {c : Closure} {s : Store} (hscope : Opens c.scope s) (hbody : toTerms.AdmitsAll c.body s) :
    Obeys (Action.newClosure c) s fun id s' => AdmitsAtom (.closure id) s'
  define {scope : ScopeId} {v : Value} {s : Store} (hscope : Binds scope) (name : Text)
    (hv : toTerms.Admits v s) : Obeys (Action.define scope name v) s fun _ _ => True
  defineTransformer {scope : ScopeId} {c : ClosureId} {s : Store} (hscope : Binds scope) (name : Text)
    (hc : AdmitsAtom (.closure c) s) : Obeys (Action.defineTransformer scope name c) s fun _ _ => True
  assign {scope : ScopeId} {v : Value} {s : Store} (hscope : Yields scope s) (name : Text)
    (hv : toTerms.Admits v s) : Obeys (Action.assign scope name v) s fun _ _ => True
  lookup {scope : ScopeId} {s : Store} (hscope : Opens scope s) (name : Text) :
    Obeys (Action.lookup scope name) s toTerms.Admits
  transformer? {scope : ScopeId} {s : Store} (hscope : Opens scope s) (name : Text) :
    Obeys (Action.transformer? scope name) s fun found s' => ∀ c ∈ found, AdmitsAtom (.closure c) s'

variable {p : Policy} {s s' : Store} {scope : ScopeId} {v w : Value} {vs : List Value}

namespace Policy.Terms

/-! ### What may be handed to code -/

theorem Opens.later (h : p.Opens scope s) (hlater : p.Later s s') : p.Opens scope s' := p.later_opens h hlater

theorem Admits.later (h : p.Admits v s) (hlater : p.Later s s') : p.Admits v s' :=
  Value.Everywhere.imp (fun _ ha => p.later_atom ha hlater) h

theorem AdmitsAll.later (h : p.AdmitsAll vs s) (hlater : p.Later s s') : p.AdmitsAll vs s' :=
  fun v hv => (h v hv).later hlater

theorem Admits.items (h : p.Admits v s) : p.AdmitsAll v.items s := (Value.everywhere_iff.mp h).1

theorem admitsAll_nil : p.AdmitsAll [] s := fun _ hv => absurd hv List.not_mem_nil

theorem admitsAll_cons_iff : p.AdmitsAll (v :: vs) s ↔ p.Admits v s ∧ p.AdmitsAll vs s := List.forall_mem_cons

theorem admitsAll_singleton (h : p.Admits v s) : p.AdmitsAll [v] s := admitsAll_cons_iff.mpr ⟨h, admitsAll_nil⟩

theorem admits_of_isPlain (h : v.IsPlain) : p.Admits v s := h.imp fun _ ha => p.plain ha s

theorem admits_of_isMadeOf (h : v.IsMadeOf vs) (hvs : p.AdmitsAll vs s) : p.Admits v s :=
  h (fun a => p.AdmitsAtom a s) (fun _ ha => p.plain ha s) hvs

/-- By a strict policy code is only handed what is there. -/
theorem AdmitsAll.holdsAll (h : p.AdmitsAll vs s) (hstrict : p.IsStrict) : s.HoldsAll vs :=
  fun v hv => Value.Everywhere.imp (fun _ ha => (p.strict hstrict).held ha) (h v hv)

/-! ### Putting actions together -/

namespace Obeys

variable {α β : Type} {act : Action α} {post : α → Store → Prop} {post' : β → Store → Prop}

theorem pure {a : α} (h : post a s) : p.Obeys (Pure.pure a) s post := p.of_ok rfl h

theorem throw {e : Signal} (h : p.IsStrict → e.IsInRange) : p.Obeys (MonadExcept.throw e : Action α) s post :=
  p.of_error rfl h

/-- A failure of the language is no fault. -/
theorem fail {e : Failure} (h : ∀ f, e ≠ .fault f) : p.Obeys (Action.fail e : Action α) s post :=
  throw fun _ => Signal.isInRange_failure h

theorem fault {f : Fault} (h : p.IsStrict → ¬ f.IsOutOfRange) : p.Obeys (Action.fault f : Action α) s post :=
  throw fun hstrict => Signal.isInRange_fault (h hstrict)

theorem shapeError (e : ShapeError) : p.Obeys (Action.shapeError e : Action α) s post :=
  fail fun f hf => by cases hf

theorem typeError (e : TypeError) (v : Value) : p.Obeys (Action.typeError e v : Action α) s post :=
  fail fun f hf => by cases hf

theorem evaluationError (e : EvaluationError) : p.Obeys (Action.evaluationError e : Action α) s post :=
  fail fun f hf => by cases hf

theorem bind {next : α → Action β} (h : p.Obeys act s post)
    (hnext : ∀ a s', p.Later s s' → post a s' → p.Obeys (next a) s' post') : p.Obeys (act >>= next) s post' :=
  p.bind h hnext

theorem limited (h : p.Obeys act s post) : p.Obeys (Action.limited act) s post := p.limited h

theorem imp {post' : α → Store → Prop} (h : p.Obeys act s post)
    (himp : ∀ a s', p.Later s s' → post a s' → post' a s') : p.Obeys act s post' := by
  rw [← bind_pure act]
  exact h.bind fun a s' hlater ha => pure (himp a s' hlater ha)

theorem get_bind {next : Store → Action β} (h : p.Obeys (next s) s post') :
    p.Obeys ((get : Action Store) >>= next) s post' := by
  have hget : p.Obeys (get : Action Store) s fun a s' => a = s ∧ s' = s := p.of_ok rfl ⟨rfl, rfl⟩
  refine hget.bind fun a s' _ ha => ?_
  rw [ha.1, ha.2]
  exact h

/-- What follows a check obeys if it does for what the check may find. -/
theorem finds_bind {found : Option α} {next : α → Action β} (hfinds : act.Finds s found)
    (h : ∀ a, found = some a → p.Obeys (next a) s post') : p.Obeys (act >>= next) s post' := by
  cases hfinds with
  | @found a hact =>
    have hfound : p.Obeys act s fun b s' => b = a ∧ s' = s := p.of_ok hact ⟨rfl, rfl⟩
    refine hfound.bind fun b s' _ hb => ?_
    rw [hb.1, hb.2]
    exact h a rfl
  | refused hact he => exact p.of_error (bind_of_error hact) fun _ => Signal.isInRange_failure he

/-- What lets the store drift and ends in no fault but that of a long numeral. -/
theorem of_guarded {good : α → Prop} (h : act.Drifts good) (hguarded : act.Guarded) :
    p.Obeys act s fun a _ => good a := by
  refine p.drifts h fun _ f hf => ?_
  rw [hguarded s f hf]
  exact id

/-- The value of a procedure. -/
theorem value {act : Action Value} (h : p.Obeys act s p.Admits) :
    p.Obeys (act >>= fun v => Pure.pure (Step.value v)) s p.AdmitsStep :=
  h.bind fun _ _ _ hv => .pure hv

end Obeys

end Policy.Terms

open Policy.Terms

/-! ### Basic actions -/

namespace Action

theorem freshObject_obeys : p.Obeys freshObject s fun _ _ => True :=
  .of_guarded freshObject_drifts freshObject_guarded

theorem instantiate_obeys (d : Datum) : p.Obeys (instantiate d) s p.Admits :=
  (Obeys.of_guarded (instantiate_drifts d) (instantiate_guarded d)).imp fun _ _ _ hv => admits_of_isPlain hv

theorem asProcedure_bind_obeys {α : Type} {who : Option Text} {next : Value → Action α}
    {post : α → Store → Prop} (h : v.isProcedure = true → p.Obeys (next v) s post) :
    p.Obeys (asProcedure who v >>= next) s post := by
  refine .finds_bind (asProcedure_finds who v s) fun found hfound => ?_
  obtain ⟨hprocedure, heq⟩ := Option.ite_none_right_eq_some.mp hfound
  cases heq
  exact h hprocedure

end Action

/-- What refuses a form is no fault of access. -/
theorem Store.Rejects.isInRange {nesting : Nat} {bad : Value → Prop} {e : Failure} (h : s.Rejects nesting bad e) :
    (Signal.failure e).IsInRange := by
  cases h with
  | shape e => exact Signal.isInRange_failure fun f hf => by cases hf
  | @unwritable v f hbad h => exact Signal.isInRange_fault (by cases f <;> exact id)

/-- Names are bound to the values that they are given. -/
theorem Forms.mem_of_mem_tableOf {names : List Text} {values : List Value} {entry : Text × Value}
    (h : entry ∈ tableOf names values) : entry.2 ∈ values := by
  have hfold : tableOf names values =
      (names.zip values).foldl (fun t entry => Table.put entry.1 entry.2 t) [] := rfl
  rw [hfold] at h
  rcases Table.mem_foldl_put h with h | ⟨other, hother, heq⟩
  · exact absurd h List.not_mem_nil
  · exact heq ▸ (List.of_mem_zip hother).2

/-- Names are bound one after another to what code may be handed. -/
theorem Action.defineEach_obeys {entries : List (Text × Value)} (hscope : p.Binds scope)
    (hentries : ∀ entry ∈ entries, p.Admits entry.2 s) :
    p.Obeys (defineEach scope entries) s fun _ _ => True := by
  induction entries generalizing s with
  | nil => exact .pure trivial
  | cons entry entries ih =>
    obtain ⟨hentry, hmore⟩ := List.forall_mem_cons.mp hentries
    exact (p.define hscope entry.1 hentry).bind fun _ s' h1 _ => ih fun other hother => (hmore other hother).later h1

/-- The scope of a call is one where code may run; a wrong number of arguments is no fault. -/
theorem Closure.bindArguments_obeys {c : Closure} {args : List Value} (hparent : p.Opens c.scope s)
    (hargs : p.AdmitsAll args s) : p.Obeys (c.bindArguments args) s p.Opens := by
  have hcount (provided : Nat) (s' : Store) : p.Obeys (c.countArguments provided) s' fun _ _ => True := by
    rw [countArguments_eq]
    split
    · exact .pure trivial
    · exact .fail fun f hf => by cases hf
  refine (p.newScope hparent fun _ hentry => absurd hentry List.not_mem_nil).bind fun inner s1 h1 hinner => ?_
  refine (hcount args.length s1).bind fun _ s2 h2 _ => ?_
  have hargs2 := (hargs.later h1).later h2
  refine (Action.defineEach_obeys hinner.2 fun entry hentry =>
    hargs2 entry.2 (List.of_mem_zip hentry).2).bind fun _ s3 h3 _ => ?_
  refine Action.freshObject_obeys.bind fun restList s4 h4 _ => ?_
  have hopens := ((hinner.1.later h2).later h3).later h4
  split
  · exact .pure hopens
  · next name _ =>
    have hrest : p.Admits (.ofList restList (args.drop c.params.required.length)) s4 :=
      admits_of_isMadeOf (Value.isMadeOf_ofList fun w hw => Value.isMadeOf_of_mem (List.mem_of_mem_drop hw))
        ((hargs2.later h3).later h4)
    exact (p.define hinner.2 name hrest).bind fun _ s5 h5 _ => .pure (hopens.later h5)

/-- A closure is made in a scope where code may run, unless its parameters are refused. -/
theorem makeClosure_obeys (name : Option Text) (form : Text) (params : Value) {body : List Value}
    (hbody : p.AdmitsAll body s) (hscope : p.Opens scope s) :
    p.Obeys (makeClosure name form params body scope) s fun c s' => p.AdmitsAtom (.closure c) s' := by
  rw [makeClosure]
  cases Params.parse form params with
  | error e => exact p.of_error (bind_of_error rfl) fun _ => Signal.isInRange_failure fun f hf => by cases hf
  | ok params => exact p.newClosure hscope hbody

/-! ### Evaluators -/

/-- Given what code may be handed, an evaluator obeys a policy and gives what code may be handed. -/
structure Policy.Governs (p : Policy) (ev : Evaluator) : Prop where
  eval : ∀ {expr : Value} {scope : ScopeId} {s : Store}, p.Admits expr s → p.Opens scope s →
    p.Obeys (ev.eval expr scope) s p.Admits
  apply : ∀ {proc : Value} {args : List Value} {scope : ScopeId} {s : Store}, p.Admits proc s →
    p.AdmitsAll args s → p.Opens scope s → p.Obeys (ev.apply proc args scope) s p.AdmitsStep

section

variable {ev : Evaluator} (h : p.Governs ev)

include h

namespace Policy.Governs

theorem finish {step : Step} (hstep : p.AdmitsStep step s) : p.Obeys (ev.finish step) s p.Admits := by
  cases step with
  | value v => exact .pure hstep
  | tailCall expr scope => exact h.eval hstep.1 hstep.2

theorem sequence {exprs : List Value} (hexprs : p.AdmitsAll exprs s) (hscope : p.Opens scope s) :
    p.Obeys (ev.sequence scope exprs) s p.AdmitsStep := by
  induction exprs generalizing s with
  | nil => exact .pure (admits_of_isPlain trivial)
  | cons expr more ih =>
    obtain ⟨hexpr, hmore⟩ := admitsAll_cons_iff.mp hexprs
    cases more with
    | nil => exact .pure ⟨hexpr, hscope⟩
    | cons next more =>
      exact (h.eval hexpr hscope).bind fun _ s' h1 _ => ih (hmore.later h1) (hscope.later h1)

theorem evalForms {exprs : List Value} (hexprs : p.AdmitsAll exprs s) (hscope : p.Opens scope s) :
    p.Obeys (ev.evalForms scope exprs) s p.Admits := by
  induction exprs generalizing s with
  | nil => exact .pure (admits_of_isPlain trivial)
  | cons expr more ih =>
    obtain ⟨hexpr, hmore⟩ := admitsAll_cons_iff.mp hexprs
    cases more with
    | nil => exact h.eval hexpr hscope
    | cons next more =>
      exact (h.eval hexpr hscope).bind fun _ s' h1 _ => ih (hmore.later h1) (hscope.later h1)

theorem operands {exprs : List Value} (hexprs : p.AdmitsAll exprs s) (hscope : p.Opens scope s) :
    p.Obeys (ev.operands scope exprs) s p.AdmitsAll := by
  induction exprs generalizing s with
  | nil => exact .pure admitsAll_nil
  | cons expr more ih =>
    obtain ⟨hexpr, hmore⟩ := admitsAll_cons_iff.mp hexprs
    rw [Evaluator.operands, List.mapM_cons]
    exact (h.eval hexpr hscope).bind fun v s1 h1 hv => (ih (hmore.later h1) (hscope.later h1)).bind
      fun vs s2 h2 hvs => .pure (admitsAll_cons_iff.mpr ⟨hv.later h2, hvs⟩)

/-- The body of a closure is evaluated in a new scope inside the one that it was made in. -/
theorem applyClosure {id : ClosureId} {args : List Value} (hid : p.AdmitsAtom (.closure id) s)
    (hargs : p.AdmitsAll args s) : p.Obeys (ev.applyClosure id args) s p.AdmitsStep := by
  refine p.of_good fun hs => .get_bind ?_
  split
  · next hmissing =>
    have hclosure := Nat.not_lt.mpr (Array.getElem?_eq_none_iff.mp hmissing)
    exact .fault fun hstrict => absurd ((p.strict hstrict).held hid) hclosure
  · next c hc =>
    obtain ⟨hscope, hbody⟩ := p.closure hs hid hc
    exact (Closure.bindArguments_obeys hscope hargs).bind fun inner s1 h1 hinner =>
      h.sequence (hbody.later h1) hinner

theorem call {proc : Value} {args : List Value} (hproc : p.Admits proc s) (hargs : p.AdmitsAll args s)
    (hscope : p.Opens scope s) : p.Obeys (ev.call proc args scope) s p.Admits :=
  .limited ((h.apply hproc hargs hscope).bind fun _ _ _ hstep => h.finish hstep)

end Policy.Governs

end

end Lisplet
