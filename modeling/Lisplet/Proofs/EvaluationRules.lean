import Lisplet.Proofs.DepthOrder
import Lisplet.Proofs.SingleSteps

/-!
# Rules of evaluation

An action leads to postconditions when, from some number of rounds on, it always ends in the same outcome, and the
outcome fits a postcondition on values or one on signals. What an expression leads to follows from what its
operands lead to, by one rule for each form and for each sort of procedure; so code is followed from one expression
to the next, with all signals on the way, and nothing is said about rounds.
-/

namespace Lisplet

section

variable {α β : Type}

/-- An outcome fits one postcondition if it is a value, and another one if it is a signal. -/
def Fits (post : α → Store → Prop) (failing : Signal → Store → Prop) : EStateM.Result Signal Store α → Prop
  | .ok a s => post a s
  | .error e s => failing e s

theorem Fits.imp {post post' : α → Store → Prop} {failing failing' : Signal → Store → Prop}
    {out : EStateM.Result Signal Store α} (h : Fits post failing out) (hpost : ∀ a s, post a s → post' a s)
    (hfailing : ∀ e s, failing e s → failing' e s) : Fits post' failing' out := by
  cases out with
  | ok a s => exact hpost a s h
  | error e s => exact hfailing e s h

/-- From some number of rounds on, an action always ends in one outcome, which fits. -/
def LeadsTo (act : Nat → Action α) (s : Store) (post : α → Store → Prop) (failing : Signal → Store → Prop) :
    Prop :=
  ∃ least out, Fits post failing out ∧ ∀ rounds ≥ least, act rounds s = out

namespace LeadsTo

variable {act act' : Nat → Action α} {s s' : Store} {post post' : α → Store → Prop}
  {failing failing' : Signal → Store → Prop}

theorem of_ok {a : α} (hpost : post a s') (h : ∀ rounds, act rounds s = .ok a s') : LeadsTo act s post failing :=
  ⟨0, .ok a s', hpost, fun rounds _ => h rounds⟩

theorem pure {a : α} (h : post a s) : LeadsTo (fun _ => Pure.pure a) s post failing := of_ok h fun _ => rfl

theorem imp (h : LeadsTo act s post failing) (hpost : ∀ a s, post a s → post' a s)
    (hfailing : ∀ e s, failing e s → failing' e s) : LeadsTo act s post' failing' := by
  obtain ⟨least, out, hout, heq⟩ := h
  exact ⟨least, out, hout.imp hpost hfailing, heq⟩

theorem mono (h : LeadsTo act s post failing) (hpost : ∀ a s, post a s → post' a s) :
    LeadsTo act s post' failing := h.imp hpost fun _ _ => id

/-- An action that does the same. -/
theorem congr (h : LeadsTo act' s' post failing) (heq : ∀ rounds, act rounds s = act' rounds s') :
    LeadsTo act s post failing := by
  obtain ⟨least, out, hout, heq'⟩ := h
  exact ⟨least, out, hout, fun rounds hrounds => (heq rounds).trans (heq' rounds hrounds)⟩

theorem bind {next : Nat → α → Action β} {post : β → Store → Prop}
    (h : LeadsTo act s (fun a s' => LeadsTo (fun rounds => next rounds a) s' post failing) failing) :
    LeadsTo (fun rounds => act rounds >>= next rounds) s post failing := by
  obtain ⟨least, out, hout, heq⟩ := h
  cases out with
  | ok a s' =>
    obtain ⟨least', out', hout', heq'⟩ := hout
    refine ⟨max least least', out', hout', fun rounds hrounds => ?_⟩
    exact (bind_of_ok (heq rounds (Nat.max_le.mp hrounds).1)).trans (heq' rounds (Nat.max_le.mp hrounds).2)
  | error e s' => exact ⟨least, .error e s', hout, fun rounds hrounds => bind_of_error (heq rounds hrounds)⟩

/-- An action that leads to values only always ends in one of them. -/
theorem exists_ok (h : LeadsTo act s post fun _ _ => False) :
    ∃ a s', post a s' ∧ ∃ least, ∀ rounds ≥ least, act rounds s = .ok a s' := by
  obtain ⟨least, out, hout, heq⟩ := h
  cases out with
  | ok a s' => exact ⟨a, s', hout, least, heq⟩
  | error e s' => exact hout.elim

end LeadsTo

end

/-- Seen from a scope, a name means a value and no transformer. -/
structure Store.Means (s : Store) (scope : ScopeId) (name : Text) (v : Value) : Prop where
  value : s.scopes.lookup? scope name = some v
  transformer : s.scopes.transformer? scope name = none

namespace Evaluator

/-- From some number of rounds on, an expression always has one outcome, which fits. -/
def Comes (nesting depth : Nat) (expr : Value) (scope : ScopeId) (s : Store) (post : Value → Store → Prop)
    (failing : Signal → Store → Prop) : Prop :=
  ∃ least out, Fits post failing out ∧ ∀ rounds ≥ least, ∀ fuel ≥ least,
    (nested rounds nesting depth).trampoline fuel expr scope s = out

/-- What a step leads to has an outcome that fits. -/
def Onward (nesting depth : Nat) (post : Value → Store → Prop) (failing : Signal → Store → Prop) :
    Step → Store → Prop
  | .value v, s => post v s
  | .tailCall expr scope, s => Comes nesting depth expr scope s post failing

variable {nesting depth : Nat} {expr : Value} {exprs operands : List Value} {scope : ScopeId} {s s' : Store}
  {id : ObjectId} {x : Text} {post post' : Value → Store → Prop} {failing failing' : Signal → Store → Prop}

namespace Comes

theorem imp (h : Comes nesting depth expr scope s post failing) (hpost : ∀ v s, post v s → post' v s)
    (hfailing : ∀ e s, failing e s → failing' e s) : Comes nesting depth expr scope s post' failing' := by
  obtain ⟨least, out, hout, heq⟩ := h
  exact ⟨least, out, hout.imp hpost hfailing, heq⟩

theorem mono (h : Comes nesting depth expr scope s post failing) (hpost : ∀ v s, post v s → post' v s) :
    Comes nesting depth expr scope s post' failing := h.imp hpost fun _ _ => id

/-- An evaluator of one level more evaluates it. -/
theorem eval (h : Comes nesting depth expr scope s post failing) :
    LeadsTo (fun rounds => (nested rounds nesting (depth + 1)).eval expr scope) s post failing := by
  obtain ⟨least, out, hout, heq⟩ := h
  exact ⟨least, out, hout, fun rounds hrounds => heq rounds hrounds rounds hrounds⟩

/-- An expression comes to what its first step leads to. -/
theorem of_step (h : LeadsTo (fun rounds => (nested rounds nesting depth).step expr scope) s
    (Onward nesting depth post failing) failing) : Comes nesting depth expr scope s post failing := by
  obtain ⟨least, out, hout, heq⟩ := h
  cases out with
  | ok next s' =>
    cases next with
    | value v =>
      refine ⟨least + 1, .ok v s', hout, fun rounds hrounds fuel hfuel => ?_⟩
      exact trampoline_value (heq rounds (Nat.le_of_succ_le hrounds)) (Nat.lt_of_lt_of_le (Nat.succ_pos _) hfuel)
    | tailCall expr' scope' =>
      obtain ⟨least', out', hout', heq'⟩ := hout
      refine ⟨max least least' + 1, out', hout', fun rounds hrounds fuel hfuel => ?_⟩
      obtain ⟨fuel, rfl⟩ := Nat.exists_eq_add_one_of_ne_zero (Nat.ne_zero_of_lt hfuel)
      have hrounds := Nat.le_of_succ_le hrounds
      rw [trampoline_tailCall (heq rounds (Nat.max_le.mp hrounds).1) fuel]
      exact heq' rounds (Nat.max_le.mp hrounds).2 fuel
        (Nat.max_le.mp (Nat.le_of_succ_le_succ hfuel)).2
  | error e s' =>
    refine ⟨least + 1, .error e s', hout, fun rounds hrounds fuel hfuel => ?_⟩
    obtain ⟨fuel, rfl⟩ := Nat.exists_eq_add_one_of_ne_zero (Nat.ne_zero_of_lt hfuel)
    exact bind_of_error (heq rounds (Nat.le_of_succ_le hrounds))

/-- An expression whose first step gives a value. -/
theorem of_value {v : Value} (hpost : post v s')
    (h : ∀ rounds, (nested rounds nesting depth).step expr scope s = .ok (.value v) s') :
    Comes nesting depth expr scope s post failing :=
  of_step ⟨0, .ok (.value v) s', hpost, fun rounds _ => h rounds⟩

theorem name {v : Value} (h : s.scopes.lookup? scope x = some v) (hpost : post v s) :
    Comes nesting depth (.sym x) scope s post failing := by
  have hlookup : Action.lookup scope x s = .ok v s := by
    rw [Action.lookup, get_bind, h]
    rfl
  refine of_value hpost fun rounds => ?_
  rw [step, bind_of_ok hlookup]
  rfl

theorem bool {b : Bool} (hpost : post (.bool b) s) : Comes nesting depth (.bool b) scope s post failing :=
  of_value hpost fun _ => rfl

end Comes

/-- An expression that comes to values only has one of them, whatever is said about it then. -/
theorem Comes.exists_value (h : Comes nesting depth expr scope s post fun _ _ => False) : ∃ v s', post v s' ∧
    ∀ (post' : Value → Store → Prop) (failing' : Signal → Store → Prop), post' v s' →
      Comes nesting depth expr scope s post' failing' := by
  obtain ⟨least, out, hout, heq⟩ := h
  cases out with
  | ok v s' => exact ⟨v, s', hout, fun _ _ hpost => ⟨least, .ok v s', hpost, heq⟩⟩
  | error e s' => exact hout.elim

theorem Onward.mono {next : Step} (h : Onward nesting depth post failing next s)
    (hpost : ∀ v s, post v s → post' v s) : Onward nesting depth post' failing next s := by
  cases next with
  | value v => exact hpost v s h
  | tailCall expr scope => exact Comes.mono h hpost

/-! ### Operands and sequences -/

theorem operands_nil_leads {post : List Value → Store → Prop} (h : post [] s) :
    LeadsTo (fun rounds => (nested rounds nesting depth).operands scope []) s post failing :=
  .of_ok h fun _ => rfl

theorem operands_cons_leads {post : List Value → Store → Prop}
    (h : Comes nesting depth expr scope s (fun v s' =>
      LeadsTo (fun rounds => (nested rounds nesting (depth + 1)).operands scope exprs) s' (fun vs => post (v :: vs))
        failing) failing) :
    LeadsTo (fun rounds => (nested rounds nesting (depth + 1)).operands scope (expr :: exprs)) s post failing := by
  have hcons : ∀ rounds, (nested rounds nesting (depth + 1)).operands scope (expr :: exprs) s =
      ((nested rounds nesting (depth + 1)).eval expr scope >>= fun v =>
        (nested rounds nesting (depth + 1)).operands scope exprs >>= fun vs => pure (v :: vs)) s := fun rounds => by
    rw [operands, List.mapM_cons]
    rfl
  refine LeadsTo.congr (.bind (h.eval.mono fun v s' hmore => ?_)) hcons
  exact .bind (hmore.mono fun vs s'' hpost => .pure hpost)

theorem sequence_last_leads {depth' : Nat} (h : Comes nesting depth' expr scope s post failing) :
    LeadsTo (fun rounds => (nested rounds nesting depth).sequence scope [expr]) s (Onward nesting depth' post failing)
      failing := ⟨0, .ok (.tailCall expr scope) s, h, fun _ _ => rfl⟩

theorem sequence_cons_leads {post : Step → Store → Prop} {next : Value}
    (h : Comes nesting depth expr scope s (fun _ s' =>
      LeadsTo (fun rounds => (nested rounds nesting (depth + 1)).sequence scope (next :: exprs)) s' post failing)
      failing) :
    LeadsTo (fun rounds => (nested rounds nesting (depth + 1)).sequence scope (expr :: next :: exprs)) s post
      failing := .bind h.eval

/-! ### Applications -/

/-- A closure is entered in a new scope inside its own, where its parameters are bound. -/
theorem applyClosure_leads {c : ClosureId} {proc : Closure} {args : List Value} {post : Step → Store → Prop}
    (hc : s.closures[c]? = some proc) (harity : proc.params.arity.accepts args.length = true)
    (h : LeadsTo (fun rounds => (nested rounds nesting depth).sequence s.scopes.size proc.body)
      (s.withObject.withScope proc.scope (proc.params.bindings s.nextObject args)) post failing) :
    LeadsTo (fun rounds => (nested rounds nesting depth).applyStep (.atom (.closure c)) args scope) s post failing :=
  h.congr fun _ => applyClosure_eq hc harity

/-- A procedure on lists gives a value at once. -/
theorem applyLists_leads {depth' : Nat} (op : ListOp) {args : List Value} {v : Value}
    (harity : (Primitive.lists op).arity.accepts args.length = true) (hrun : op.run args s = .ok v s')
    (hpost : post v s') :
    LeadsTo (fun rounds => (nested rounds nesting depth).applyStep (.atom (.primitive (.lists op))) args scope) s
      (Onward nesting depth' post failing) failing := by
  refine ⟨0, .ok (.value v) s', hpost, fun rounds _ => ?_⟩
  exact (congrFun (if_pos harity) s).trans ((bind_of_ok hrun).trans rfl)

/-- A call that does not end at a bound ends in the same way where there is more room. -/
theorem applyStep_leads {rounds depth' level : Nat} {proc : Value} {args : List Value}
    {out : EStateM.Result Signal Store Value}
    (hcall : (nested rounds nesting (level + 1)).call proc args scope s = out)
    (hroom : ¬ Action.EndsIn Signal.IsBound out) (hout : Fits post failing out) (hdepth : level ≤ depth)
    (hdepth' : level ≤ depth') :
    LeadsTo (fun rounds => (nested rounds nesting depth).applyStep proc args scope) s
      (Onward nesting depth' post failing) failing := by
  have hbelow : ∀ {level' : Nat}, level ≤ level' → ∀ rounds' ≥ rounds,
      (nested rounds nesting level).Below Signal.IsBound (nested rounds' nesting level') :=
    fun hlevel rounds' hrounds => nested_below_more hrounds nesting hlevel
  have hinside : ((nested rounds nesting level).applyStep proc args scope >>=
      (nested rounds nesting (level + 1)).finish) s = out := by
    rcases Action.limited_cases ((nested rounds nesting level).applyStep proc args scope >>=
      (nested rounds nesting (level + 1)).finish) s with heq | ⟨s', _, heq⟩
    · exact heq.symm.trans hcall
    · obtain rfl := heq.symm.trans hcall
      exact absurd (.inr (.inr rfl)) hroom
  -- Neither the step nor what it leads to ends at a bound, so more room changes neither of them.
  cases hstep : (nested rounds nesting level).applyStep proc args scope s with
  | ok next s₁ =>
    rw [bind_of_ok hstep] at hinside
    refine ⟨rounds, .ok next s₁, ?_, fun rounds' hrounds =>
      ((hbelow hdepth rounds' hrounds).applyStep proc args scope).ok hstep⟩
    cases next with
    | value v =>
      obtain rfl : EStateM.Result.ok v s₁ = out := hinside
      exact hout
    | tailCall expr scope' =>
      have hrest : (nested rounds nesting level).trampoline rounds expr scope' s₁ = out := hinside
      refine ⟨rounds, out, hout, fun rounds' hrounds fuel hfuel => ?_⟩
      have hmore := (hbelow hdepth' rounds' hrounds).trampoline rounds fuel (.inr ⟨.inl rfl, hfuel⟩) expr scope' s₁
      rw [hrest] at hmore
      exact hmore.resolve_left hroom
  | error e s₁ =>
    rw [bind_of_error hstep] at hinside
    subst hinside
    refine ⟨rounds, .error e s₁, hout, fun rounds' hrounds => ?_⟩
    have hmore := (hbelow hdepth rounds' hrounds).applyStep proc args scope s
    rw [hstep] at hmore
    exact hmore.resolve_left hroom

/-! ### Calls -/

namespace Comes

/-- A call by a name that means no transformer evaluates the name first. -/
theorem of_call {v : Value} (h : s.Means scope x v)
    (hstep : LeadsTo (fun rounds => (nested rounds nesting (depth + 1)).callStep (.sym x) operands scope) s
      (Onward nesting (depth + 1) post failing) failing) :
    Comes nesting (depth + 1) (.call id x operands) scope s post failing := by
  have htransformer : transformerOf (.sym x) scope s = .ok none s := by
    rw [transformerOf, Action.transformer?, get_bind, h.transformer]
    rfl
  refine of_step (hstep.congr fun rounds => ?_)
  rw [step, bind_of_ok htransformer]

/-- A form is given its operands as they are. -/
theorem form (f : SpecialForm) (h : s.Means scope f.name (.atom (.form f)))
    (harity : f.arity.accepts operands.length = true)
    (hrun : LeadsTo (fun rounds => f.run (nested rounds nesting (depth + 1)) operands scope) s
      (Onward nesting (depth + 1) post failing) failing) :
    Comes nesting (depth + 1) (.call id f.name operands) scope s post failing := by
  refine of_call h (LeadsTo.bind (Comes.name h.value ?_).eval)
  exact hrun.congr fun _ => congrFun (if_pos harity) s

/-- A procedure is applied to the values of its operands. -/
theorem procedure {a : Atom} (h : s.Means scope x (.atom a)) (ha : a.kind = .procedure)
    (hform : ∀ f, a ≠ .form f)
    (hargs : LeadsTo (fun rounds => (nested rounds nesting (depth + 1)).operands scope operands) s (fun args s' =>
      LeadsTo (fun rounds => (nested rounds nesting (depth + 1)).applyStep (.atom a) args scope) s'
        (Onward nesting (depth + 1) post failing) failing) failing) :
    Comes nesting (depth + 1) (.call id x operands) scope s post failing := by
  refine of_call h (LeadsTo.bind (Comes.name h.value ?_).eval)
  cases a with
  | form f => exact absurd rfl (hform f)
  | primitive | closure => exact .bind hargs
  | _ => cases ha

theorem primitive (p : Primitive) (h : s.Means scope p.name (.atom (.primitive p)))
    (hargs : LeadsTo (fun rounds => (nested rounds nesting (depth + 1)).operands scope operands) s (fun args s' =>
      p.arity.accepts args.length = true ∧ LeadsTo (fun rounds => p.run (nested rounds nesting (depth + 1)) args scope)
        s' (Onward nesting (depth + 1) post failing) failing) failing) :
    Comes nesting (depth + 1) (.call id p.name operands) scope s post failing :=
  procedure h rfl (by simp) (hargs.mono fun _ s' ⟨harity, hrun⟩ =>
    hrun.congr fun _ => congrFun (if_pos harity) s')

/-! ### Procedures on lists -/

theorem lists (op : ListOp) (h : s.Means scope (Primitive.lists op).name (.atom (.primitive (.lists op))))
    (hargs : LeadsTo (fun rounds => (nested rounds nesting (depth + 1)).operands scope operands) s (fun args s' =>
      (Primitive.lists op).arity.accepts args.length = true ∧ ∃ v s'', op.run args s' = .ok v s'' ∧ post v s'')
      failing) :
    Comes nesting (depth + 1) (.call id (Primitive.lists op).name operands) scope s post failing :=
  procedure h rfl (by simp) (hargs.mono fun _ _ ⟨harity, _, _, hrun, hpost⟩ =>
    applyLists_leads op harity hrun hpost)

/-- A procedure of one list. -/
theorem lists_one (op : ListOp) (h : s.Means scope (Primitive.lists op).name (.atom (.primitive (.lists op))))
    (harity : (Primitive.lists op).arity.accepts 1 = true)
    (harg : Comes nesting depth expr scope s (fun v s' => ∃ w s'', op.run [v] s' = .ok w s'' ∧ post w s'') failing) :
    Comes nesting (depth + 1) (.call id (Primitive.lists op).name [expr]) scope s post failing :=
  lists op h (operands_cons_leads (harg.mono fun _ _ hpost => operands_nil_leads ⟨harity, hpost⟩))

theorem cons {expr' : Value} (h : s.Means scope "cons" (.atom (.primitive (.lists .cons))))
    (hargs : Comes nesting depth expr scope s (fun v s' => Comes nesting depth expr' scope s' (fun w s'' =>
      post (.cons s''.nextObject v w) s''.withObject) failing) failing) :
    Comes nesting (depth + 1) (.call id "cons" [expr, expr']) scope s post failing :=
  lists .cons h (operands_cons_leads (hargs.mono fun _ _ hmore => operands_cons_leads (hmore.mono fun _ _ hpost =>
    operands_nil_leads ⟨rfl, _, _, rfl, hpost⟩)))

/-- A test of two values. -/
theorem tests_two {expr' : Value} (op : TestOp)
    (h : s.Means scope (Primitive.tests op).name (.atom (.primitive (.tests op))))
    (harity : (Primitive.tests op).arity.accepts 2 = true)
    (hargs : Comes nesting depth expr scope s (fun v s' => Comes nesting depth expr' scope s' (fun w s'' =>
      ∃ b, op.run [v, w] s'' = .ok (.bool b) s'' ∧ post (.bool b) s'') failing) failing) :
    Comes nesting (depth + 1) (.call id (Primitive.tests op).name [expr, expr']) scope s post failing := by
  refine primitive (.tests op) h (operands_cons_leads (hargs.mono fun v _ hmore => operands_cons_leads
    (hmore.mono fun w s'' ⟨b, hrun, hpost⟩ => operands_nil_leads ⟨harity, ?_⟩)))
  exact ⟨0, .ok (.value (.bool b)) s'', hpost, fun rounds _ => (bind_of_ok hrun).trans rfl⟩

/-! ### Forms -/

theorem quote {v : Value} (h : s.Means scope "quote" (.atom (.form .quote))) (hpost : post v s) :
    Comes nesting (depth + 1) (.call id "quote" [v]) scope s post failing :=
  form .quote h rfl ⟨0, .ok (.value v) s, hpost, fun _ _ => rfl⟩

theorem conditional {test yes no : Value} (h : s.Means scope "if" (.atom (.form .conditional)))
    (htest : Comes nesting depth test scope s (fun t s' =>
      Comes nesting (depth + 1) (if t.isTruthy then yes else no) scope s' post failing) failing) :
    Comes nesting (depth + 1) (.call id "if" [test, yes, no]) scope s post failing := by
  refine form .conditional h rfl (.bind (htest.eval.mono fun t s' hbranch => ?_))
  refine ⟨0, .ok (.tailCall (if t.isTruthy then yes else no) scope) s', hbranch, fun _ _ => ?_⟩
  cases t.isTruthy <;> rfl

/-- A conditional with one branch, for its effect. -/
theorem conditional_one {test yes : Value} (h : s.Means scope "if" (.atom (.form .conditional)))
    (htest : Comes nesting depth test scope s (fun t s' => t.isTruthy = false ∧ post .void s') failing) :
    Comes nesting (depth + 1) (.call id "if" [test, yes]) scope s post failing := by
  refine form .conditional h rfl (.bind (htest.eval.mono fun t s' ⟨hfalse, hpost⟩ => ?_))
  refine ⟨0, .ok (.value .void) s', hpost, fun _ _ => ?_⟩
  rw [hfalse]
  rfl

/-- The definition of a procedure by its signature. -/
theorem define {id' : ObjectId} {formals : List Value} {last : Option Atom} {params : Params} {body : List Value}
    (h : s.Means scope "define" (.atom (.form .define)))
    (hparams : Params.parse "define" (.assemble id' formals last) = .ok params) (hbody : body ≠ [])
    (hpost : post .void (s.withProcedure scope ⟨some x, params, body, scope⟩ x)) :
    Comes nesting (depth + 1) (.call id "define" (.list id' (.sym x) formals last :: body)) scope s post failing :=
  form .define h (accepts_body _ hbody) ⟨0, .ok (.value .void) _, hpost, fun _ _ =>
    (bind_of_ok (makeClosure_eq hparams (some x) body scope)).trans rfl⟩

/-- A named binding form enters a closure that sees itself under the name. -/
theorem bindNamed {spec : Value} {pairs : List Forms.Binding} {body : Value}
    (h : s.Means scope "let" (.atom (.form .bind))) 
    (hspec : ∀ s, Forms.bindings nesting "let" spec s = .ok pairs s)
    (hargs : LeadsTo (fun rounds => (nested rounds nesting (depth + 1)).operands scope (pairs.map (·.2)))
      (s.withLoop scope x ⟨pairs.map (·.1), none⟩ body) (fun args s' => args.length = pairs.length ∧
        s'.closures[s.closures.size]? = some ⟨some x, ⟨pairs.map (·.1), none⟩, [body], s.scopes.size⟩ ∧
        Comes nesting (depth + 1) body s'.scopes.size (s'.withObject.withScope s.scopes.size
          (Params.bindings ⟨pairs.map (·.1), none⟩ s'.nextObject args)) post failing) failing) :
    Comes nesting (depth + 1) (.call id "let" [.sym x, spec, body]) scope s post failing := by
  have hdefine : Scopes.define (s.scopes.push ⟨[], [], some scope⟩) s.scopes.size x
      (.atom (.closure s.closures.size)) =
        s.scopes.push ⟨[(x, .atom (.closure s.closures.size))], [], some scope⟩ :=
    Scopes.define_push s.scopes [] [] (some scope) x _
  have hrun : ∀ rounds, SpecialForm.bind.run (nested rounds nesting (depth + 1)) [.sym x, spec, body] scope s =
      ((nested rounds nesting (depth + 1)).operands scope (pairs.map (·.2)) >>= fun args =>
        (nested rounds nesting (depth + 1)).applyStep (.atom (.closure s.closures.size)) args scope)
          (s.withLoop scope x ⟨pairs.map (·.1), none⟩ body) := fun rounds => by
    refine (bind_of_ok (hspec s)).trans ?_
    rw [Store.withLoop, Store.withScope, ← hdefine]
    rfl
  refine form .bind h rfl (LeadsTo.congr (.bind (hargs.mono fun args s' ⟨hlength, hc, hbody⟩ => ?_)) hrun)
  refine applyClosure_leads hc ?_ (sequence_last_leads hbody)
  rw [Params.arity, Arity.accepts_exact, hlength, List.length_map]

end Comes

/-! ### Clauses -/

/-- A clause of one test and one expression. -/
theorem tryClauses_cons_leads {test body : Value} {more : List Value}
    (hname : test.isSymbol Forms.elseName = false) (hfirst : body.isSymbol Forms.arrowName = false)
    (h : Comes nesting depth test scope s (fun t s' =>
      if t.isTruthy then Comes nesting (depth + 1) body scope s' post failing
      else LeadsTo (fun rounds => Forms.tryClauses (nested rounds nesting (depth + 1)) scope more) s'
        (Onward nesting (depth + 1) post failing) failing) failing) :
    LeadsTo (fun rounds => Forms.tryClauses (nested rounds nesting (depth + 1)) scope
      (.list id test [body] none :: more)) s (Onward nesting (depth + 1) post failing) failing := by
  have hclause : ∀ rounds, Forms.tryClauses (nested rounds nesting (depth + 1)) scope
      (.list id test [body] none :: more) s = ((nested rounds nesting (depth + 1)).eval test scope >>= fun t =>
        if t.isTruthy then
          if body.isSymbol Forms.arrowName then Forms.receive (nested rounds nesting (depth + 1)) scope [] t
          else (nested rounds nesting (depth + 1)).sequence scope [body]
        else Forms.tryClauses (nested rounds nesting (depth + 1)) scope more) s := fun rounds => by
    rw [Forms.tryClauses, hname]
    rfl
  refine LeadsTo.congr (.bind (h.eval.mono fun t s' hmore => ?_)) hclause
  rw [hfirst]
  cases ht : t.isTruthy with
  | true =>
    rw [ht] at hmore
    exact ⟨0, .ok (.tailCall body scope) s', hmore, fun _ _ => rfl⟩
  | false =>
    rw [ht] at hmore
    exact hmore

theorem tryClauses_else_leads {body : Value} (h : Comes nesting (depth + 1) body scope s post failing) :
    LeadsTo (fun rounds => Forms.tryClauses (nested rounds nesting (depth + 1)) scope
      [.list id (.sym Forms.elseName) [body] none]) s (Onward nesting (depth + 1) post failing) failing :=
  ⟨0, .ok (.tailCall body scope) s, h, fun _ _ => rfl⟩

theorem Comes.cond {clauses : List Value} (h : s.Means scope "cond" (.atom (.form .cond)))
    (hcheck : Forms.checkClauses nesting clauses = pure ())
    (htry : LeadsTo (fun rounds => Forms.tryClauses (nested rounds nesting (depth + 1)) scope clauses) s
      (Onward nesting (depth + 1) post failing) failing) :
    Comes nesting (depth + 1) (.call id "cond" clauses) scope s post failing := by
  refine .form .cond h ((Arity.accepts_atLeast 0 clauses.length).mpr (Int.natCast_nonneg _))
    (htry.congr fun rounds => ?_)
  show Forms.cond _ scope clauses s = _
  exact bind_of_ok (congrFun hcheck s)

/-! ### Application to a list -/

/-- A procedure is applied to some values and to the items of a list. -/
theorem Comes.apply {a : Atom} (h : s.Means scope "apply" (.atom (.primitive (.control .apply))))
    (ha : a.kind = .procedure)
    (hargs : LeadsTo (fun rounds => (nested rounds nesting (depth + 1)).operands scope operands) s (fun args s' =>
      ∃ front list, args = .atom a :: (front ++ [list]) ∧ list.isProper = true ∧
        LeadsTo (fun rounds => (nested rounds nesting depth).applyStep (.atom a) (front ++ list.items) scope) s'
          (Onward nesting (depth + 1) post failing) failing) failing) :
    Comes nesting (depth + 1) (.call id "apply" operands) scope s post failing := by
  refine .primitive (.control .apply) h (hargs.mono fun args s' ⟨front, list, heq, hproper, happly⟩ => ?_)
  subst heq
  have hlast : (front ++ [list]).getLast? = some list := List.getLast?_concat
  refine ⟨?_, happly.congr fun rounds => ?_⟩
  · refine (Arity.accepts_atLeast 2 _).mpr ?_
    rw [List.length_cons, List.length_append, List.length_singleton]
    omega
  · have hproc : (Value.atom a).isProcedure = true := by
      cases a with
      | form | primitive | closure => rfl
      | _ => exact nomatch ha
    have hasProcedure : Action.asProcedure (some ControlOp.apply.name) (.atom a) s' = .ok (.atom a) s' := by
      rw [Action.asProcedure, if_pos hproc]
      rfl
    have hitems : Action.asItems (some ControlOp.apply.name) list s' = .ok list.items s' := by
      rw [Action.asItems, if_pos hproper]
      rfl
    refine (bind_of_ok hasProcedure).trans ?_
    rw [hlast, List.dropLast_concat]
    exact bind_of_ok hitems

end Evaluator

end Lisplet
