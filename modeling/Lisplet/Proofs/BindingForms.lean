import Lisplet.Proofs.Faults
import Lisplet.Proofs.Patterns
import Lisplet.Proofs.Survival

/-!
# Binding forms

The forms that bind names or make procedures look at the shape of their operands before anything is evaluated
or changed. Operands of another shape are refused; with operands of the right shape a form does not refuse its
own, so that what it ends in comes from the evaluation of one of their parts.
-/

namespace Lisplet

namespace Forms

/-! ### Shapes -/

/-- The forms that bind names or make procedures. -/
def bindingForms : List SpecialForm :=
  [.bind, .bindSequentially, .bindRecursively, .loop, .lambda, .define, .assign, .defineTransformer]

/-- A signature: a name in front of a parameter pattern. -/
def IsSignature (v : Value) : Prop := ∃ id name params, v = .cons id (.sym name) params ∧ params.IsPattern

theorem IsSignature.isList {v : Value} (h : IsSignature v) : v.isList = true := by
  obtain ⟨id, name, params, rfl, -⟩ := h
  rfl

/-- The operands that these forms admit. -/
inductive HasShape : SpecialForm → List Value → Prop
  | bind {spec : Value} {body : List Value} (hspec : IsRowOf IsBinding spec) (hbody : body ≠ []) :
      HasShape .bind (spec :: body)
  | bindNamed {name : Text} {spec : Value} {body : List Value} (hspec : IsRowOf IsBinding spec)
      (hbody : body ≠ []) : HasShape .bind (.sym name :: spec :: body)
  | bindSequentially {spec : Value} {body : List Value} (hspec : IsRowOf IsBinding spec) (hbody : body ≠ []) :
      HasShape .bindSequentially (spec :: body)
  | bindRecursively {spec : Value} {body : List Value} (hspec : IsRowOf IsBinding spec) (hbody : body ≠ []) :
      HasShape .bindRecursively (spec :: body)
  | loop {spec finish : Value} {body : List Value} (hspec : IsRowOf IsLoopVariable spec)
      (hfinish : IsLoopEnd finish) : HasShape .loop (spec :: finish :: body)
  | lambda {params : Value} {body : List Value} (hparams : params.IsPattern) (hbody : body ≠ []) :
      HasShape .lambda (params :: body)
  | define (name : Text) (expr : Value) : HasShape .define [.sym name, expr]
  | defineProcedure {signature : Value} {body : List Value} (hsignature : IsSignature signature)
      (hbody : body ≠ []) : HasShape .define (signature :: body)
  | assign (name : Text) (expr : Value) : HasShape .assign [.sym name, expr]
  | defineTransformer {signature : Value} {body : List Value} (hsignature : IsSignature signature)
      (hbody : body ≠ []) : HasShape .defineTransformer (signature :: body)

/-- The parts that a message shows when they are not what a form asks for. -/
inductive IsMalformed (operands : List Value) : SpecialForm → Value → Prop
  | binding {form : SpecialForm} {spec v : Value} (hform : form ∈ [.bind, .bindSequentially, .bindRecursively])
      (hspec : spec ∈ operands) (hv : v ∈ spec.items) (h : ¬ IsBinding v) : IsMalformed operands form v
  | loopVariable {spec v : Value} (hspec : spec ∈ operands) (hv : v ∈ spec.items) (h : ¬ IsLoopVariable v) :
      IsMalformed operands .loop v
  | loopEnd {v : Value} (hv : v ∈ operands) (h : ¬ IsLoopEnd v) : IsMalformed operands .loop v

/-- A form is refused before it does anything, whatever evaluates expressions under that bound on nesting. -/
def IsRefused (nesting : Nat) (form : SpecialForm) (operands : List Value) (s : Store) : Prop :=
  ∃ e, s.Rejects nesting (IsMalformed operands form) e ∧
    ∀ ev scope, ev.nesting = nesting → form.run ev operands scope s = .error (.failure e) s

variable {nesting : Nat} {s : Store}

/-- A refusal that shows no part of the operands does not depend on how deep printing may go. -/
theorem IsRefused.of_shape {form : SpecialForm} {operands : List Value} (e : ShapeError)
    (hrun : ∀ ev scope, form.run ev operands scope s = .error (.failure (.shape e)) s) :
    IsRefused nesting form operands s := ⟨_, .shape e, fun ev scope _ => hrun ev scope⟩

theorem bindNamed_isRefused {name : Text} {spec : Value} {body : List Value}
    (h : ¬ HasShape .bind (.sym name :: spec :: body)) : IsRefused nesting .bind (.sym name :: spec :: body) s := by
  cases body with
  | nil => exact .of_shape (.namedBody name) fun ev scope => rfl
  | cons expr more =>
    have hspec : ¬ IsRowOf IsBinding spec := fun hspec => h (.bindNamed hspec (List.cons_ne_nil _ _))
    obtain ⟨e, he, hread⟩ := bindings_of_not_isRowOf hspec nesting "let" s
    refine ⟨e, he.imp fun v hv => ?_, ?_⟩
    · exact .binding (by decide) (List.mem_cons_of_mem _ List.mem_cons_self) hv.1 hv.2
    · rintro ev scope rfl
      exact bind_of_error hread

/-- A form that begins with reading bindings is refused for what is no row of them. -/
theorem readingBindings_isRefused {form : SpecialForm} {spec expr : Value} {more : List Value} {name : Text}
    {next : Evaluator → ScopeId → List Binding → Action Step}
    (hform : form ∈ [.bind, .bindSequentially, .bindRecursively])
    (hrun : ∀ ev scope, form.run ev (spec :: expr :: more) scope =
      bindings ev.nesting name spec >>= next ev scope)
    (hspec : ¬ IsRowOf IsBinding spec) : IsRefused nesting form (spec :: expr :: more) s := by
  obtain ⟨e, he, hread⟩ := bindings_of_not_isRowOf hspec nesting name s
  refine ⟨e, he.imp fun v hv => .binding hform List.mem_cons_self hv.1 hv.2, ?_⟩
  rintro ev scope rfl
  rw [hrun, bind_of_error hread]

theorem bind_of_not_symbol {spec : Value} (h : ∀ name, spec ≠ .sym name) (body : List Value) (ev : Evaluator)
    (scope : ScopeId) : bind ev scope (spec :: body) = (do
      let pairs ← bindings ev.nesting "let" spec
      let values ← ev.operands scope (pairs.map (·.2))
      let inner ← Action.newScope scope (tableOf (pairs.map (·.1)) values)
      ev.sequence inner body) := by
  rw [bind.eq_def]
  split
  · next heq =>
    cases heq
    exact absurd rfl (h _)
  · next heq =>
    cases heq
    rfl
  · next heq => cases heq

theorem bind_isRefused {spec expr : Value} {more : List Value} (h : ¬ HasShape .bind (spec :: expr :: more)) :
    IsRefused nesting .bind (spec :: expr :: more) s := by
  by_cases hname : ∃ name, spec = .sym name
  · obtain ⟨name, rfl⟩ := hname
    exact bindNamed_isRefused h
  · have hne : ∀ name, spec ≠ .sym name := fun name heq => hname ⟨name, heq⟩
    exact readingBindings_isRefused (by decide) (fun ev scope => bind_of_not_symbol hne (expr :: more) ev scope)
      fun hspec => h (.bind hspec (List.cons_ne_nil _ _))

theorem loop_isRefused {spec finish : Value} {body : List Value} (h : ¬ HasShape .loop (spec :: finish :: body)) :
    IsRefused nesting .loop (spec :: finish :: body) s := by
  obtain ⟨e, he, hread⟩ := readLoop_of_not_shape (fun hshape => h (.loop hshape.1 hshape.2)) nesting body s
  refine ⟨e, he.imp fun v hv => ?_, ?_⟩
  · rcases hv with ⟨hmem, hitem⟩ | ⟨rfl, hend⟩
    · exact .loopVariable List.mem_cons_self hmem hitem
    · exact .loopEnd (List.mem_cons_of_mem _ List.mem_cons_self) hend
  · rintro ev scope rfl
    exact bind_of_error hread

/-- What a signature is split into. -/
theorem splitSignature_eq_ok {form name : Text} {signature params : Value}
    (h : splitSignature form signature = .ok (name, params)) (hparams : params.IsPattern) :
    IsSignature signature := by
  unfold splitSignature at h
  split at h
  · next id name' rest last =>
    cases h
    exact ⟨id, name, .assemble id rest last, by
      rw [Value.cons, Value.items_assemble, Value.ending_assemble], hparams⟩
  · cases h
  · cases h

/-- A form that splits a signature and makes a closure is refused for anything else than a signature. -/
theorem splitting_isRefused {form : SpecialForm} {signature expr : Value} {more : List Value} (name : Text)
    (next : ScopeId → Text → ClosureId → Action Step)
    (hrun : ∀ ev scope, form.run ev (signature :: expr :: more) scope =
      Action.ofShape (splitSignature name signature) >>= fun split =>
        makeClosure (some split.1) name split.2 (expr :: more) scope >>= next scope split.1)
    (h : ¬ IsSignature signature) : IsRefused nesting form (signature :: expr :: more) s := by
  cases hsplit : splitSignature name signature with
  | error e =>
    refine .of_shape e fun ev scope => ?_
    rw [hrun, hsplit]
    rfl
  | ok split =>
    have hparams : ¬ split.2.IsPattern := fun hparams => h (splitSignature_eq_ok hsplit hparams)
    obtain ⟨e, he⟩ := makeClosure_of_not_isPattern hparams name s
    refine .of_shape e fun ev scope => ?_
    rw [hrun, hsplit]
    have hok : Action.ofShape (.ok split) s = .ok split s := rfl
    exact (bind_of_ok hok).trans (bind_of_error (he (some split.1) (expr :: more) scope))

/-- What becomes of the closure that a signature has made. -/
def bindProcedure (scope : ScopeId) (name : Text) (c : ClosureId) : Action Step := do
  Action.define scope name (.atom (.closure c))
  pure (.value .void)

/-- What becomes of the closure that the signature of a transformer has made. -/
def bindTransformer (scope : ScopeId) (name : Text) (c : ClosureId) : Action Step := do
  Action.defineTransformer scope name c
  pure (.value .void)

theorem define_list (ev : Evaluator) (scope : ScopeId) {signature : Value} (h : signature.isList = true)
    (body : List Value) : define ev scope (signature :: body) =
      Action.ofShape (splitSignature "define" signature) >>= fun split =>
        makeClosure (some split.1) "define" split.2 body scope >>= bindProcedure scope split.1 := by
  cases signature with
  | atom a => cases h
  | _ => rfl

theorem defineTransformer_list (scope : ScopeId) {signature : Value} (h : signature.isList = true)
    (body : List Value) : defineTransformer scope (signature :: body) =
      Action.ofShape (splitSignature "define-macro" signature) >>= fun split =>
        makeClosure (some split.1) "define-macro" split.2 body scope >>= bindTransformer scope split.1 := by
  cases signature with
  | atom a => cases h
  | _ => rfl

theorem define_isRefused {target expr : Value} {more : List Value}
    (h : ¬ HasShape .define (target :: expr :: more)) : IsRefused nesting .define (target :: expr :: more) s := by
  have hsignature : ¬ IsSignature target := fun hsignature =>
    h (.defineProcedure hsignature (List.cons_ne_nil _ _))
  by_cases hlist : target.isList = true
  · exact splitting_isRefused "define" bindProcedure (fun ev scope => define_list ev scope hlist _) hsignature
  · cases target with
    | atom a =>
      cases a with
      | sym name =>
        cases more with
        | nil => exact absurd (.define name expr) h
        | cons _ _ => exact .of_shape _ fun ev scope => rfl
      | _ => exact .of_shape (.defineTarget _) fun ev scope => rfl
    | _ => exact absurd rfl hlist

theorem defineTransformer_isRefused {target expr : Value} {more : List Value}
    (h : ¬ HasShape .defineTransformer (target :: expr :: more)) :
    IsRefused nesting .defineTransformer (target :: expr :: more) s := by
  have hsignature : ¬ IsSignature target := fun hsignature =>
    h (.defineTransformer hsignature (List.cons_ne_nil _ _))
  by_cases hlist : target.isList = true
  · exact splitting_isRefused "define-macro" bindTransformer
      (fun ev scope => defineTransformer_list scope hlist _) hsignature
  · cases target with
    | atom a => exact .of_shape (.transformerTarget a.kind) fun ev scope => rfl
    | _ => exact absurd rfl hlist

theorem lambda_isRefused {params expr : Value} {more : List Value}
    (h : ¬ HasShape .lambda (params :: expr :: more)) : IsRefused nesting .lambda (params :: expr :: more) s := by
  obtain ⟨e, he⟩ := makeClosure_of_not_isPattern (fun hparams => h (.lambda hparams (List.cons_ne_nil expr more)))
    "lambda" s
  exact .of_shape e fun ev scope => bind_of_error (he none (expr :: more) scope)

theorem assign_isRefused {target expr : Value} (h : ¬ HasShape .assign [target, expr]) :
    IsRefused nesting .assign [target, expr] s := by
  cases target with
  | atom a =>
    cases a with
    | sym name => exact absurd (.assign name expr) h
    | _ => exact .of_shape (.assignTarget _) fun ev scope => rfl
  | _ => exact .of_shape (.assignTarget _) fun ev scope => rfl

end Forms

namespace Forms

theorem isRefused_of_not_hasShape {form : SpecialForm} (hform : form ∈ bindingForms) {operands : List Value}
    (hcount : form.arity.accepts operands.length = true) (h : ¬ HasShape form operands) (nesting : Nat)
    (s : Store) : IsRefused nesting form operands s := by
  cases form with
  | bind =>
    obtain ⟨spec, expr, more, rfl⟩ := Arity.exists_cons_cons hcount
    exact bind_isRefused h
  | bindSequentially =>
    obtain ⟨spec, expr, more, rfl⟩ := Arity.exists_cons_cons hcount
    exact readingBindings_isRefused (by decide) (fun ev scope => rfl)
      fun hspec => h (.bindSequentially hspec (List.cons_ne_nil _ _))
  | bindRecursively =>
    obtain ⟨spec, expr, more, rfl⟩ := Arity.exists_cons_cons hcount
    exact readingBindings_isRefused (by decide) (fun ev scope => rfl)
      fun hspec => h (.bindRecursively hspec (List.cons_ne_nil _ _))
  | loop =>
    obtain ⟨spec, finish, body, rfl⟩ := Arity.exists_cons_cons hcount
    exact loop_isRefused h
  | lambda =>
    obtain ⟨params, expr, more, rfl⟩ := Arity.exists_cons_cons hcount
    exact lambda_isRefused h
  | define =>
    obtain ⟨target, expr, more, rfl⟩ := Arity.exists_cons_cons hcount
    exact define_isRefused h
  | defineTransformer =>
    obtain ⟨target, expr, more, rfl⟩ := Arity.exists_cons_cons hcount
    exact defineTransformer_isRefused h
  | assign =>
    obtain ⟨target, expr, rfl⟩ := Arity.exists_two hcount
    exact assign_isRefused h
  | _ => exact absurd hform (by decide)

end Forms

/-! ### Who is to blame -/

/-- A wrong shape or a wrong number of arguments. -/
inductive Failure.IsSyntactic : Failure → Prop
  | shape (e : ShapeError) : IsSyntactic (.shape e)
  | arity (expected : Arity) (who : Text) (count : Nat) : IsSyntactic (.arity expected who count)

namespace Action

variable {α β : Type} {ev : Evaluator} {part : Value → Prop} {scope : ScopeId} {s : Store}

/-- A wrong shape or number of arguments that an action ends in, from one store on, is that of an evaluation of
one of these expressions. -/
def Blames (act : Action α) (ev : Evaluator) (part : Value → Prop) (s : Store) : Prop :=
  ∀ e s', act s = .error (.failure e) s' → e.IsSyntactic →
    ∃ expr scope s₁, part expr ∧ ev.eval expr scope s₁ = .error (.failure e) s'

namespace Blames

theorem of_ok {act : Action α} {a : α} {s' : Store} (h : act s = .ok a s') : act.Blames ev part s := by
  intro e s'' he
  rw [h] at he
  cases he

/-- Other failures are nobody's. -/
theorem fail {e : Failure} (h : ¬ e.IsSyntactic) : (Action.fail e : Action α).Blames ev part s := by
  intro e' s' he hsyntactic
  cases he
  exact absurd hsyntactic h

theorem eval {expr : Value} (h : part expr) : (ev.eval expr scope).Blames ev part s :=
  fun _ _ he _ => ⟨expr, scope, s, h, he⟩

theorem bind {act : Action α} {next : α → Action β} (h : act.Blames ev part s)
    (hnext : ∀ a s', act s = .ok a s' → (next a).Blames ev part s') : (act >>= next).Blames ev part s := by
  intro e s' he
  cases hact : act s with
  | ok a s₁ =>
    rw [bind_of_ok hact] at he
    exact hnext a s₁ hact e s' he
  | error e₁ s₁ =>
    rw [bind_of_error hact] at he
    cases he
    exact h e s' hact

theorem newScope (parent : ScopeId) (t : Table Value) : (Action.newScope parent t).Blames ev part s :=
  of_ok rfl

theorem define (scope : ScopeId) (name : Text) (v : Value) : (Action.define scope name v).Blames ev part s :=
  of_ok rfl

theorem get_bind {next : Store → Action β} (h : (next s).Blames ev part s) :
    ((get : Action Store) >>= next).Blames ev part s := h

theorem sequence {exprs : List Value} (h : ∀ expr ∈ exprs, part expr) :
    (ev.sequence scope exprs).Blames ev part s := by
  induction exprs generalizing s with
  | nil => exact of_ok rfl
  | cons expr more ih =>
    cases more with
    | nil => exact of_ok rfl
    | cons next more =>
      exact (eval (h expr List.mem_cons_self)).bind fun _ s' _ =>
        ih fun expr' hmem => h expr' (List.mem_cons_of_mem expr hmem)

theorem evalForms {exprs : List Value} (h : ∀ expr ∈ exprs, part expr) :
    (ev.evalForms scope exprs).Blames ev part s := by
  induction exprs generalizing s with
  | nil => exact of_ok rfl
  | cons expr more ih =>
    cases more with
    | nil => exact eval (h expr List.mem_cons_self)
    | cons next more =>
      exact (eval (h expr List.mem_cons_self)).bind fun _ s' _ =>
        ih fun expr' hmem => h expr' (List.mem_cons_of_mem expr hmem)

theorem operands {exprs : List Value} (h : ∀ expr ∈ exprs, part expr) :
    (ev.operands scope exprs).Blames ev part s := by
  induction exprs generalizing s with
  | nil => exact of_ok rfl
  | cons expr more ih =>
    rw [Evaluator.operands, List.mapM_cons]
    exact (eval (h expr List.mem_cons_self)).bind fun _ s₁ _ =>
      (ih fun expr' hmem => h expr' (List.mem_cons_of_mem expr hmem)).bind fun _ s₂ _ => of_ok rfl

theorem nestBindings {pairs : List Forms.Binding} (h : ∀ pair ∈ pairs, part pair.2) :
    (Forms.nestBindings ev pairs scope).Blames ev part s := by
  induction pairs generalizing scope s with
  | nil => exact of_ok rfl
  | cons pair more ih =>
    rw [Forms.nestBindings]
    exact (eval (h pair List.mem_cons_self)).bind fun v s₁ _ =>
      (newScope scope _).bind fun inner s₂ _ => ih fun pair' hmem => h pair' (List.mem_cons_of_mem pair hmem)

theorem fillBindings {pairs : List Forms.Binding} (h : ∀ pair ∈ pairs, part pair.2) :
    (Forms.fillBindings ev scope pairs).Blames ev part s := by
  induction pairs generalizing s with
  | nil => exact of_ok rfl
  | cons pair more ih =>
    refine (eval (h pair List.mem_cons_self)).bind fun v s₁ _ => ?_
    exact (define scope pair.1 v).bind fun _ s₂ _ => ih fun pair' hmem => h pair' (List.mem_cons_of_mem pair hmem)

/-- A name without a value is no matter of shape. -/
theorem lookup (name : Text) : (Action.lookup scope name).Blames ev part s := by
  refine get_bind ?_
  cases s.scopes.lookup? scope name with
  | none => exact fail (by rintro ⟨⟩)
  | some v => exact of_ok rfl

theorem assign (name : Text) (v : Value) : (Action.assign scope name v).Blames ev part s := by
  refine get_bind ?_
  cases s.scopes.binder? scope name with
  | none => exact fail (by rintro ⟨⟩)
  | some binder => exact of_ok rfl

theorem nextValues {vars : List Forms.LoopVariable} (h : ∀ x ∈ vars, ∀ step ∈ x.step, part step) :
    (Forms.nextValues ev scope vars).Blames ev part s := by
  induction vars generalizing s with
  | nil => exact of_ok rfl
  | cons x more ih =>
    rw [Forms.nextValues]
    have hmore {s₁ : Store} : (Forms.nextValues ev scope more).Blames ev part s₁ :=
      ih fun x' hmem => h x' (List.mem_cons_of_mem x hmem)
    cases hstep : x.step with
    | none => exact (lookup x.name).bind fun v s₁ _ => hmore.bind fun vs s₂ _ => of_ok rfl
    | some expr =>
      exact (eval (h x List.mem_cons_self expr hstep)).bind fun v s₁ _ => hmore.bind fun vs s₂ _ => of_ok rfl

/-- The rounds of a loop, by induction on their bound. -/
theorem rounds {loop : Forms.Loop} (htest : part loop.test) (hresults : ∀ expr ∈ loop.results, part expr)
    (hbody : ∀ expr ∈ loop.body, part expr) (hvars : ∀ x ∈ loop.vars, ∀ step ∈ x.step, part step)
    (outer : ScopeId) (fuel : Nat) : (Forms.rounds ev loop outer fuel scope).Blames ev part s := by
  induction fuel generalizing scope s with
  | zero =>
    intro e s' he
    cases he
  | succ fuel ih =>
    rw [Forms.rounds]
    refine (eval htest).bind fun t s₁ _ => ?_
    split
    · exact sequence hresults
    · exact (evalForms hbody).bind fun _ s₂ _ => (nextValues hvars).bind fun values s₃ _ =>
        (newScope outer _).bind fun next s₄ _ => ih

end Blames

end Action

namespace Forms

/-- The expressions that the operands of a form hold: operands, items of operands, and items of those. -/
inductive IsPart (operands : List Value) : Value → Prop
  | operand {v : Value} (h : v ∈ operands) : IsPart operands v
  | item {v w : Value} (h : v ∈ operands) (hw : w ∈ v.items) : IsPart operands w
  | itemOfItem {v w expr : Value} (h : v ∈ operands) (hw : w ∈ v.items) (hexpr : expr ∈ w.items) :
      IsPart operands expr

section

open Lisplet.Action

variable {ev : Evaluator} {scope : ScopeId} {s : Store} {operands body : List Value} {spec : Value}

theorem IsPart.inits {pairs : List Binding} (hspec : spec ∈ operands)
    (h : ∀ pair ∈ pairs, ∃ v ∈ spec.items, pair.2 ∈ v.items) : ∀ pair ∈ pairs, IsPart operands pair.2 := by
  intro pair hpair
  obtain ⟨v, hv, hinit⟩ := h pair hpair
  exact .itemOfItem hspec hv hinit

theorem IsPart.of_mem_map {pairs : List Binding} (h : ∀ pair ∈ pairs, IsPart operands pair.2) :
    ∀ init ∈ pairs.map (·.2), IsPart operands init := by
  intro init hinit
  obtain ⟨pair, hpair, rfl⟩ := List.mem_map.mp hinit
  exact h pair hpair

theorem bind_blames (h : IsRowOf IsBinding spec) :
    (bind ev scope (spec :: body)).Blames ev (IsPart (spec :: body)) s := by
  have hname : ∀ name, spec ≠ .sym name := by
    rintro name rfl
    cases h.1
  obtain ⟨pairs, hread, hmem⟩ := bindings_of_isRowOf h ev.nesting "let"
  have hinits : ∀ init ∈ pairs.map (·.2), IsPart (spec :: body) init :=
    IsPart.of_mem_map (IsPart.inits List.mem_cons_self hmem)
  rw [bind_of_not_symbol hname, hread, pure_bind]
  exact (Blames.operands hinits).bind fun values s₁ _ => (Blames.newScope scope _).bind fun inner s₂ _ =>
    .sequence fun expr hexpr => .operand (List.mem_cons_of_mem spec hexpr)

theorem length_operands {exprs vs : List Value} {s' : Store} (h : ev.operands scope exprs s = .ok vs s') :
    vs.length = exprs.length := by
  induction exprs generalizing vs s with
  | nil =>
    cases h
    rfl
  | cons expr more ih =>
    rw [Evaluator.operands, List.mapM_cons] at h
    cases hexpr : ev.eval expr scope s with
    | error e s₁ =>
      rw [bind_of_error hexpr] at h
      cases h
    | ok v s₁ =>
      rw [bind_of_ok hexpr] at h
      cases hmore : more.mapM (fun expr => ev.eval expr scope) s₁ with
      | error e s₂ =>
        rw [bind_of_error hmore] at h
        cases h
      | ok ws s₂ =>
        rw [bind_of_ok hmore] at h
        cases h
        rw [List.length_cons, List.length_cons, ih hmore]

/-- The procedure of a named `let` is there when the inits have come to values, and takes as many. -/
theorem bindNamed_blames (hev : ev.Evolving) (hs : s.WellFormed) (hscope : scope < s.scopes.size) {name : Text}
    (h : IsRowOf IsBinding spec) (hbody : body ≠ []) :
    (bindNamed ev scope name spec body).Blames ev (IsPart (.sym name :: spec :: body)) s := by
  obtain ⟨pairs, hread, hmem⟩ := bindings_of_isRowOf h ev.nesting "let"
  have hspec : spec ∈ Value.sym name :: spec :: body := List.mem_cons_of_mem _ List.mem_cons_self
  have hinits := IsPart.of_mem_map (IsPart.inits hspec hmem)
  have hnonempty : ¬ body.isEmpty = true := fun hempty => hbody (List.isEmpty_iff.mp hempty)
  let c : Closure := ⟨some name, ⟨pairs.map (·.1), none⟩, body, s.scopes.size⟩
  let s₁ : Store := { s with scopes := s.scopes.push ⟨[], [], some scope⟩ }
  let s₂ : Store := { s₁ with closures := s₁.closures.push c }
  let s₃ : Store := { s₂ with scopes := s₂.scopes.define s.scopes.size name (.atom (.closure s.closures.size)) }
  have hsize : s.scopes.size < s₁.scopes.size := by
    show _ < (s.scopes.push _).size
    rw [Array.size_push]
    exact Nat.lt_succ_self _
  have hevolves : s.Evolves s₃ := .trans (.change (.scope scope [] hscope))
    (.trans (.change (.closure c hsize)) (.change (.binding _ _ _)))
  have hrun : bindNamed ev scope name spec body s =
      (ev.operands scope (pairs.map (·.2)) >>= ev.applyClosure s.closures.size) s₃ := by
    rw [bindNamed, if_neg hnonempty, hread]
    rfl
  rw [Blames, hrun]
  refine (Blames.operands hinits).bind fun values s₄ hvalues => ?_
  -- The inits may run any code, but the closure stays where it was made.
  have hafter := (hev.operands (hevolves.exists_of_exists hscope) (pairs.map (·.2)) (hevolves.wellFormed hs)).1
  rw [after_of_ok hvalues] at hafter
  have hc : s₄.closures[s.closures.size]? = some c := hafter.closure_stays Array.getElem?_push_size
  have harity : c.params.arity.accepts values.length = true := by
    refine Params.arity_accepts_iff.mpr ?_
    rw [length_operands hvalues, List.length_map, List.length_map]
    exact ⟨Nat.le_refl _, fun _ => rfl⟩
  rw [Blames, Evaluator.applyClosure_eq hc harity]
  exact Blames.sequence fun expr hexpr => .operand (List.mem_cons_of_mem _ (List.mem_cons_of_mem _ hexpr))

theorem bindSequentially_blames (h : IsRowOf IsBinding spec) :
    (bindSequentially ev scope (spec :: body)).Blames ev (IsPart (spec :: body)) s := by
  obtain ⟨pairs, hread, hmem⟩ := bindings_of_isRowOf h ev.nesting "let*"
  rw [bindSequentially, hread, pure_bind]
  exact (Blames.newScope scope []).bind fun outer s₁ _ =>
    (Blames.nestBindings (IsPart.inits List.mem_cons_self hmem)).bind fun inner s₂ _ =>
      .sequence fun expr hexpr => .operand (List.mem_cons_of_mem spec hexpr)

theorem bindRecursively_blames (h : IsRowOf IsBinding spec) :
    (bindRecursively ev scope (spec :: body)).Blames ev (IsPart (spec :: body)) s := by
  obtain ⟨pairs, hread, hmem⟩ := bindings_of_isRowOf h ev.nesting "letrec"
  rw [bindRecursively, hread, pure_bind]
  exact (Blames.newScope scope _).bind fun inner s₁ _ =>
    (Blames.fillBindings (IsPart.inits List.mem_cons_self hmem)).bind fun _ s₂ _ =>
      .sequence fun expr hexpr => .operand (List.mem_cons_of_mem spec hexpr)

theorem loop_blames {finish : Value} (hspec : IsRowOf IsLoopVariable spec) (hfinish : IsLoopEnd finish) :
    (loop ev scope (spec :: finish :: body)).Blames ev (IsPart (spec :: finish :: body)) s := by
  obtain ⟨vars, test, results, hread, hitems, hmem⟩ := readLoop_of_shape hspec hfinish ev.nesting body
  have hend : finish ∈ spec :: finish :: body := List.mem_cons_of_mem _ List.mem_cons_self
  have hinits : ∀ init ∈ vars.map (·.init), IsPart (spec :: finish :: body) init := by
    intro init hinit
    obtain ⟨x, hx, rfl⟩ := List.mem_map.mp hinit
    obtain ⟨v, hv, hxv, -⟩ := hmem x hx
    exact .itemOfItem List.mem_cons_self hv hxv
  have hsteps : ∀ x ∈ vars, ∀ step ∈ x.step, IsPart (spec :: finish :: body) step := by
    intro x hx step hstep
    obtain ⟨v, hv, -, hxv⟩ := hmem x hx
    exact .itemOfItem List.mem_cons_self hv (hxv step hstep)
  rw [loop, hread, pure_bind]
  refine (Blames.operands hinits).bind fun values s₁ _ => (Blames.newScope scope _).bind fun first s₂ _ => ?_
  refine Blames.rounds ?_ (fun expr hexpr => ?_) (fun expr hexpr => ?_) hsteps scope ev.rounds
  · exact .item hend (hitems ▸ List.mem_cons_self)
  · exact .item hend (hitems ▸ List.mem_cons_of_mem test hexpr)
  · exact .operand (List.mem_cons_of_mem _ (List.mem_cons_of_mem _ hexpr))

/-- Of a pattern a closure is made. -/
theorem makeClosure_blames {params : Value} (h : params.IsPattern) (name : Option Text) (form : Text)
    {part : Value → Prop} : (makeClosure name form params body scope).Blames ev part s := by
  obtain ⟨p, hp⟩ := Params.isPattern_iff.mp h
  exact .of_ok (Evaluator.makeClosure_eq (Params.parse_eq_ok_iff.mpr hp) name body scope)

/-- A form that splits a signature and makes a closure blames nobody on its own. -/
theorem splitting_blames {signature : Value} (h : IsSignature signature) (form : Text) {part : Value → Prop}
    {next : Text → ClosureId → Action Step} (hnext : ∀ name c s₁, ∃ s₂, next name c s₁ = .ok (.value .void) s₂) :
    (ofShape (splitSignature form signature) >>= fun split =>
      makeClosure (some split.1) form split.2 body scope >>= next split.1).Blames ev part s := by
  obtain ⟨id, name, params, rfl, hparams⟩ := h
  have hassembled : (Value.assemble id params.items params.ending).IsPattern := by
    rw [Params.isPattern_iff] at hparams ⊢
    exact hparams.imp fun p => Params.spells_assemble_iff.mpr
  have hsplit : ofShape (splitSignature form (.cons id (.sym name) params)) =
      pure (name, .assemble id params.items params.ending) := rfl
  rw [hsplit, pure_bind]
  refine (makeClosure_blames hassembled _ form).bind fun c s₁ _ => ?_
  obtain ⟨s₂, hok⟩ := hnext name c s₁
  exact .of_ok hok

theorem HasShape.blames {form : SpecialForm} (h : HasShape form operands) (hev : ev.Evolving) (hs : s.WellFormed)
    (hscope : scope < s.scopes.size) : (form.run ev operands scope).Blames ev (IsPart operands) s := by
  cases h with
  | bind hspec hbody => exact bind_blames hspec
  | bindNamed hspec hbody => exact bindNamed_blames hev hs hscope hspec hbody
  | bindSequentially hspec hbody => exact bindSequentially_blames hspec
  | bindRecursively hspec hbody => exact bindRecursively_blames hspec
  | loop hspec hfinish => exact loop_blames hspec hfinish
  | lambda hparams hbody =>
    exact (makeClosure_blames hparams none "lambda").bind fun c s₁ _ => .of_ok rfl
  | define name expr =>
    exact (Blames.eval (.operand (List.mem_cons_of_mem _ List.mem_cons_self))).bind fun v s₁ _ =>
      (Blames.define scope name v).bind fun _ s₂ _ => .of_ok rfl
  | defineProcedure hsignature hbody =>
    rw [SpecialForm.run, define_list ev scope hsignature.isList]
    exact splitting_blames hsignature "define" fun name c s₁ => ⟨_, rfl⟩
  | assign name expr =>
    exact (Blames.eval (.operand (List.mem_cons_of_mem _ List.mem_cons_self))).bind fun v s₁ _ =>
      (Blames.assign name v).bind fun _ s₂ _ => .of_ok rfl
  | defineTransformer hsignature hbody =>
    rw [SpecialForm.run, defineTransformer_list scope hsignature.isList]
    exact splitting_blames hsignature "define-macro" fun name c s₁ => ⟨_, rfl⟩

end

theorem HasShape.accepts {form : SpecialForm} {operands : List Value} (h : HasShape form operands) :
    form.arity.accepts operands.length = true := by
  cases h with
  | bindNamed hspec hbody => exact Evaluator.accepts_body _ (List.cons_ne_nil _ _)
  | loop hspec hfinish => exact Evaluator.accepts_body _ (List.cons_ne_nil _ _)
  | define name expr => exact Evaluator.accepts_body _ (List.cons_ne_nil _ _)
  | assign name expr => exact (Arity.accepts_exact 2 _).mpr rfl
  | _ => exact Evaluator.accepts_body _ (by assumption)

/-- Operands of the wrong shape are refused before anything is evaluated or changed; those of the right shape
are not refused by the form itself. -/
theorem binding_forms_check_first {form : SpecialForm} (hform : form ∈ bindingForms) (operands : List Value)
    (s : Store) :
    (¬ HasShape form operands → ∀ nesting, ∃ e,
      (if form.arity.accepts operands.length = true then s.Rejects nesting (IsMalformed operands form) e
        else e = .arity form.arity form.name operands.length) ∧
      ∀ ev scope, ev.nesting = nesting →
        Evaluator.applyStep ev (.atom (.form form)) operands scope s = .error (.failure e) s) ∧
    (HasShape form operands → form.arity.accepts operands.length = true ∧
      ∀ rounds nesting depth scope, s.WellFormed → scope < s.scopes.size →
        ((Evaluator.nested rounds nesting depth).applyStep (.atom (.form form)) operands scope).Blames
          (Evaluator.nested rounds nesting depth) (IsPart operands) s) := by
  refine ⟨fun h nesting => ?_, fun h => ⟨h.accepts, fun rounds nesting depth scope hs hscope => ?_⟩⟩
  · by_cases hcount : form.arity.accepts operands.length = true
    · obtain ⟨e, he, hrun⟩ := isRefused_of_not_hasShape hform hcount h nesting s
      refine ⟨e, by rwa [if_pos hcount], fun ev scope hnesting => ?_⟩
      rw [Evaluator.applyStep_form hcount, hrun ev scope hnesting]
    · refine ⟨_, by rw [if_neg hcount], fun ev scope _ => ?_⟩
      rw [Evaluator.applyStep_form_of_not hcount]
      rfl
  · rw [Evaluator.applyStep_form h.accepts]
    exact h.blames (Evaluator.nested_evolving rounds nesting depth) hs hscope

theorem not_hasShape_bind {spec v : Value} (hspec : spec.isProper = true) (hv : v ∈ spec.items)
    (h : ¬ IsBinding v) (body : List Value) : ¬ HasShape .bind (spec :: body) := by
  intro hshape
  cases hshape with
  | bind hrow hbody => exact h (hrow.2 v hv)
  | bindNamed hrow hbody => cases hspec

/-- The second binding has two inits, so the init of the first is not evaluated. -/
theorem binding_forms_check_first_twoInits :
    let operands : List Value := [.list 0 (.list 1 (.sym "x") [.list 2 (.sym "display") [.int 1] none] none)
      [.list 3 (.sym "y") [.int 1, .int 2] none] none, .sym "x"]
    let s : Store := .initial [] ⟨[], [], ⟨[], []⟩, []⟩ ⟨[], []⟩ []
    SpecialForm.bind ∈ bindingForms ∧ ¬ HasShape .bind operands ∧ ∀ nesting, ∃ e,
      s.Rejects nesting (IsMalformed operands .bind) e ∧
      ∀ ev scope, ev.nesting = nesting →
        Evaluator.applyStep ev (.atom (.form .bind)) operands scope s = .error (.failure e) s := by
  intro operands s
  have hform : SpecialForm.bind ∈ bindingForms := by decide
  have hshape : ¬ HasShape .bind operands := by
    refine not_hasShape_bind rfl (List.mem_cons_of_mem _ List.mem_cons_self) ?_ _
    rintro ⟨id, name, init, heq⟩
    cases heq
  exact ⟨hform, hshape, (binding_forms_check_first hform operands s).1 hshape⟩

/-- A very long integer keeps the list it is in from being written. -/
theorem obstacle?_long {n : Int} (h : fitsDecimal n.natAbs = false) :
    (Value.list 1 (.sym "x") [.int 1, .int n] none).obstacle? listDepth = some .numeralTooLong := by
  have hlong : (Value.int n).obstacle? (listDepth - listDepth) = some .numeralTooLong := by
    rw [Value.obstacle?, Atom.obstacle?, h]
    rfl
  have hrest : Value.obstacleIn? (listDepth - listDepth) none [.int 1, .int n] = some .numeralTooLong := by
    rw [Value.obstacleIn?, Value.obstacleIn?, hlong]
    rfl
  rw [Value.obstacle?]
  exact hrest

/-- A binding with a very long integer in it cannot be shown in the message: that is another failure than the
one for its shape. -/
theorem not_refused_by_shape_alone : ¬ ∀ (form : SpecialForm) (operands : List Value) (s : Store),
    form ∈ bindingForms → ¬ HasShape form operands → ∀ ev scope, ∃ e : Failure, e.IsSyntactic ∧
      Evaluator.applyStep ev (.atom (.form form)) operands scope s = .error (.failure e) s := by
  intro h
  obtain ⟨n, hn⟩ : ∃ n : Int, fitsDecimal n.natAbs = false :=
    ⟨(2 ^ (4 * maxDecimalDigits + 1) : Nat), by
      rw [Int.natAbs_natCast, fitsDecimal, Nat.log2_two_pow, decide_eq_false (Nat.not_succ_le_self _), Bool.false_and]⟩
  let s : Store := .initial [] ⟨[], [], ⟨[], []⟩, []⟩ ⟨[], []⟩ []
  have hprint : s.print .write (.list 1 (.sym "x") [.int 1, .int n] none) listDepth =
      .error .numeralTooLong := by
    rw [Store.print, obstacle?_long hn]
  have hshape : ¬ HasShape .bind [.list 0 (.list 1 (.sym "x") [.int 1, .int n] none) [] none, .int 1] := by
    refine not_hasShape_bind rfl List.mem_cons_self ?_ _
    rintro ⟨id, name, init, heq⟩
    cases heq
  obtain ⟨e, he, hrun⟩ := h .bind _ s (by decide) hshape (.nested 1 listDepth 1) rootScope
  have hfault : (Evaluator.nested 1 listDepth 1).applyStep (.atom (.form .bind))
      [.list 0 (.list 1 (.sym "x") [.int 1, .int n] none) [] none, .int 1] rootScope s =
      .error (.failure (.fault .numeralTooLong)) s :=
    bind_of_error (bind_of_error (Action.print_of_error hprint))
  rw [hfault] at hrun
  cases hrun
  cases he

end Forms

end Lisplet
