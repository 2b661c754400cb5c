import Lisplet.Proofs.Outcomes
import Lisplet.Proofs.Surroundings

/-!
# What single steps come to

Evaluation without loops, told by equations: an expression comes to a value, or a step of it leaves another
expression over, under every positive bound on the rounds. One lemma for each form and for each sort of
procedure says what it leads to when its operands have been evaluated.
-/

namespace Lisplet

/-- A call of what a name means. -/
abbrev Value.call (id : ObjectId) (name : Text) (operands : List Value) : Value :=
  .list id (.sym name) operands none

/-- The list of one binding. -/
abbrev Value.oneBinding (ids : ObjectId × ObjectId) (name : Text) (init : Value) : Value :=
  .list ids.1 (.list ids.2 (.sym name) [init] none) [] none

/-- The store with a closure that a name is bound to. -/
def Store.withProcedure (s : Store) (scope : ScopeId) (c : Closure) (name : Text) : Store :=
  { s with
    closures := s.closures.push c
    scopes := s.scopes.define scope name (.atom (.closure s.closures.size)) }

/-- The store with a closure that is a transformer under a name. -/
def Store.withTransformer (s : Store) (scope : ScopeId) (c : Closure) (name : Text) : Store :=
  { s with
    closures := s.closures.push c
    scopes := s.scopes.defineTransformer scope name s.closures.size }

/-- The store with a closure that sees itself under a name, in a new scope of its own. -/
def Store.withLoop (s : Store) (parent : ScopeId) (name : Text) (params : Params) (body : Value) : Store :=
  { s with closures := s.closures.push ⟨some name, params, [body], s.scopes.size⟩ }.withScope parent
    [(name, .atom (.closure s.closures.size))]

/-! ### Operations on two integers -/

theorem compare_beq (i j : Int) : (compare i j == .eq) = decide (i = j) ∧
    (compare i j == .lt) = decide (i < j) ∧ (compare i j == .gt) = decide (j < i) := by
  have h : compare i j = compareOfLessAndEq i j := rfl
  rw [h, compareOfLessAndEq]
  split
  · refine ⟨?_, ?_, ?_⟩ <;> simp <;> omega
  · split
    · refine ⟨?_, ?_, ?_⟩ <;> simp <;> omega
    · refine ⟨?_, ?_, ?_⟩ <;> simp <;> omega

namespace NumberOp

theorem run_sub (i j : Int) (s : Store) : sub.run [.int i, .int j] s = .ok (.int (i - j)) s := rfl

theorem run_add (i j : Int) (s : Store) : add.run [.int i, .int j] s = .ok (.int (i + j)) s := by
  have h : add.run [.int i, .int j] s = .ok (.int (0 + i + j)) s := rfl
  rw [h, Int.zero_add]

theorem run_equal (i j : Int) (s : Store) :
    equal.run [.int i, .int j] s = .ok (.bool (decide (i = j))) s := by
  have h : equal.run [.int i, .int j] s = .ok (.bool (compare i j == .eq && true)) s := rfl
  rw [h, Bool.and_true, (compare_beq i j).1]

theorem run_less (i j : Int) (s : Store) :
    less.run [.int i, .int j] s = .ok (.bool (decide (i < j))) s := by
  have h : less.run [.int i, .int j] s = .ok (.bool (compare i j == .lt && true)) s := rfl
  rw [h, Bool.and_true, (compare_beq i j).2.1]

theorem run_greater (i j : Int) (s : Store) :
    greater.run [.int i, .int j] s = .ok (.bool (decide (j < i))) s := by
  have h : greater.run [.int i, .int j] s = .ok (.bool (compare i j == .gt && true)) s := rfl
  rw [h, Bool.and_true, (compare_beq i j).2.2]

theorem run_greaterEqual (i j : Int) (s : Store) :
    greaterEqual.run [.int i, .int j] s = .ok (.bool (decide (j ≤ i))) s := by
  have h : greaterEqual.run [.int i, .int j] s = .ok (.bool (!(compare i j == .lt) && true)) s := rfl
  have hle : decide (j ≤ i) = !decide (i < j) := by
    rw [← decide_not]
    exact decide_eq_decide.mpr Int.not_lt.symm
  rw [h, Bool.and_true, (compare_beq i j).2.1, hle]

end NumberOp

namespace Evaluator

/-! ### Operands and sequences -/

section

variable {ev : Evaluator} {scope : ScopeId} {s s' s'' : Store}

theorem operands_nil : ev.operands scope [] s = .ok [] s := rfl

theorem operands_cons {expr v : Value} {exprs vs : List Value} (h : ev.eval expr scope s = .ok v s')
    (hmore : ev.operands scope exprs s' = .ok vs s'') :
    ev.operands scope (expr :: exprs) s = .ok (v :: vs) s'' := by
  rw [operands, List.mapM_cons, bind_of_ok h]
  exact (bind_of_ok hmore).trans rfl

/-- A body of one expression behind some that keep the store. -/
theorem sequence_append {before : List Value} (last : Value)
    (h : ∀ expr ∈ before, ∃ v, ev.eval expr scope s = .ok v s) :
    ev.sequence scope (before ++ [last]) s = .ok (.tailCall last scope) s := by
  induction before with
  | nil => rfl
  | cons expr before ih =>
    obtain ⟨v, hv⟩ := h expr List.mem_cons_self
    have hmore := ih fun expr' hmem => h expr' (List.mem_cons_of_mem expr hmem)
    have hcons : ev.sequence scope (expr :: (before ++ [last])) =
        ev.eval expr scope >>= fun _ => ev.sequence scope (before ++ [last]) := by
      cases before <;> rfl
    rw [List.cons_append, hcons, bind_of_ok hv, hmore]

end

/-! ### Evaluation without loops -/

/-- With this much room an expression comes to a value, whatever the positive bound on the rounds. -/
def Gives (nesting depth : Nat) (expr : Value) (scope : ScopeId) (s : Store) (v : Value)
    (s' : Store) : Prop :=
  ∀ rounds > 0, (nested rounds nesting depth).eval expr scope s = .ok v s'

/-- All operands come to values. -/
def GivesAll (nesting depth : Nat) (exprs : List Value) (scope : ScopeId) (s : Store)
    (vs : List Value) (s' : Store) : Prop :=
  ∀ rounds > 0, (nested rounds nesting depth).operands scope exprs s = .ok vs s'

/-- With this much room a step of an expression comes to an end, whatever the positive bound. -/
def Steps (nesting depth : Nat) (expr : Value) (scope : ScopeId) (s : Store) (next : Step)
    (s' : Store) : Prop :=
  ∀ rounds > 0, (nested rounds nesting depth).step expr scope s = .ok next s'

section

variable {nesting depth : Nat} {scope : ScopeId} {env : Env} {s s' s'' : Store} {id : ObjectId}

theorem trampoline_value {ev : Evaluator} {expr v : Value} (h : ev.step expr scope s = .ok (.value v) s')
    {fuel : Nat} (hfuel : fuel > 0) : ev.trampoline fuel expr scope s = .ok v s' := by
  obtain ⟨fuel, rfl⟩ := Nat.exists_eq_add_one_of_ne_zero (Nat.ne_of_gt hfuel)
  rw [trampoline, bind_of_ok h]
  rfl

theorem trampoline_tailCall {ev : Evaluator} {expr expr' : Value} {scope' : ScopeId}
    (h : ev.step expr scope s = .ok (.tailCall expr' scope') s') (fuel : Nat) :
    ev.trampoline (fuel + 1) expr scope s = ev.trampoline fuel expr' scope' s' := by
  rw [trampoline, bind_of_ok h]

/-- A step to a value is an evaluation. -/
theorem Steps.gives {expr v : Value} (h : Steps nesting depth expr scope s (.value v) s') :
    Gives nesting (depth + 1) expr scope s v s' :=
  fun rounds hrounds => trampoline_value (h rounds hrounds) hrounds

/-- A name comes to what it means. -/
theorem Steps.name {x : Text} {v : Value} (hsees : s.scopes.Sees scope env) (hvalue : env.value x = some v) :
    Steps nesting depth (.sym x) scope s (.value v) s := by
  intro rounds _
  have hlookup : Action.lookup scope x s = .ok v s := by
    rw [Action.lookup, get_bind, hsees.value, hvalue]
    rfl
  rw [step, bind_of_ok hlookup]
  rfl

theorem Gives.name {x : Text} {v : Value} (hsees : s.scopes.Sees scope env) (hvalue : env.value x = some v) :
    Gives nesting (depth + 1) (.sym x) scope s v s := (Steps.name hsees hvalue).gives

theorem Gives.constant {v : Value} (h : v.isSelfEvaluating = true) :
    Gives nesting (depth + 1) v scope s v s := by
  refine Steps.gives fun rounds _ => ?_
  cases v with
  | atom a =>
    cases a <;> first | rfl | exact nomatch h
  | nil => exact nomatch h
  | list _ _ _ _ => exact nomatch h

theorem GivesAll.nil : GivesAll nesting depth [] scope s [] s := fun _ _ => rfl

theorem GivesAll.cons {expr v : Value} {exprs vs : List Value} (h : Gives nesting depth expr scope s v s')
    (hmore : GivesAll nesting depth exprs scope s' vs s'') :
    GivesAll nesting depth (expr :: exprs) scope s (v :: vs) s'' :=
  fun rounds hrounds => operands_cons (h rounds hrounds) (hmore rounds hrounds)

/-! ### Calls -/

/-- A name that means no transformer. -/
theorem transformerOf_none (hsees : s.scopes.Sees scope env) {name : Text}
    (htransformer : env.transformer name = none) : transformerOf (.sym name) scope s = .ok none s := by
  rw [transformerOf, Action.transformer?, get_bind, hsees.transformer, htransformer]
  rfl

/-- A special form is given its operands as they are. -/
theorem Steps.form (hsees : s.scopes.Sees scope env) (husual : env.IsUsual) (f : SpecialForm)
    {operands : List Value} (harity : f.arity.accepts operands.length = true) {next : Step}
    (hrun : ∀ rounds > 0, f.run (nested rounds nesting (depth + 1)) operands scope s = .ok next s') :
    Steps nesting (depth + 1) (.call id f.name operands) scope s next s' := by
  obtain ⟨hvalue, htransformer⟩ := husual.form f
  intro rounds hrounds
  rw [step, bind_of_ok (transformerOf_none hsees htransformer)]
  dsimp only
  rw [callStep, bind_of_ok (Gives.name hsees hvalue rounds hrounds)]
  dsimp only
  rw [applyStep, if_pos harity, hrun rounds hrounds]

/-- A procedure is applied to the values of its operands. -/
theorem Steps.procedure (hsees : s.scopes.Sees scope env) {name : Text} {a : Atom}
    (hvalue : env.value name = some (.atom a)) (htransformer : env.transformer name = none)
    (ha : a.kind = .procedure) (hform : ∀ f, a ≠ .form f) {operands args : List Value}
    (hargs : GivesAll nesting (depth + 1) operands scope s args s') {next : Step}
    (happly : ∀ rounds > 0, (nested rounds nesting (depth + 1)).applyStep (.atom a) args scope s' =
      .ok next s'') :
    Steps nesting (depth + 1) (.call id name operands) scope s next s'' := by
  intro rounds hrounds
  rw [step, bind_of_ok (transformerOf_none hsees htransformer)]
  dsimp only
  rw [callStep, bind_of_ok (Gives.name hsees hvalue rounds hrounds)]
  cases a with
  | form f => exact absurd rfl (hform f)
  | primitive p =>
    exact (bind_of_ok (hargs rounds hrounds)).trans (happly rounds hrounds)
  | closure c =>
    exact (bind_of_ok (hargs rounds hrounds)).trans (happly rounds hrounds)
  | _ => exact nomatch ha

theorem Steps.primitive (hsees : s.scopes.Sees scope env) (husual : env.IsUsual) (p : Primitive)
    {operands args : List Value} (hargs : GivesAll nesting (depth + 1) operands scope s args s')
    (harity : p.arity.accepts args.length = true) {next : Step}
    (hrun : ∀ rounds > 0, p.run (nested rounds nesting (depth + 1)) args scope s' = .ok next s'') :
    Steps nesting (depth + 1) (.call id p.name operands) scope s next s'' := by
  obtain ⟨hvalue, htransformer⟩ := husual.primitive p
  refine .procedure hsees hvalue htransformer rfl (fun f h => nomatch h) hargs fun rounds hrounds => ?_
  rw [applyStep, if_pos harity, hrun rounds hrounds]

/-- A closure of one expression leaves it over in a new scope. -/
theorem applyClosure_single {ev : Evaluator} {c : ClosureId} {proc : Closure} {body : Value}
    {args : List Value} (hc : s.closures[c]? = some proc)
    (harity : proc.params.arity.accepts args.length = true) (hbody : proc.body = [body]) :
    ev.applyClosure c args s = .ok (.tailCall body s.scopes.size)
      (s.withObject.withScope proc.scope (proc.params.bindings s.nextObject args)) := by
  rw [applyClosure_eq hc harity, hbody]
  rfl

theorem Steps.closure (hsees : s.scopes.Sees scope env) {name : Text} {c : ClosureId}
    (hvalue : env.value name = some (.atom (.closure c))) (htransformer : env.transformer name = none)
    {operands args : List Value} (hargs : GivesAll nesting (depth + 1) operands scope s args s')
    {proc : Closure} {body : Value} (hc : s'.closures[c]? = some proc)
    (harity : proc.params.arity.accepts args.length = true) (hbody : proc.body = [body]) :
    Steps nesting (depth + 1) (.call id name operands) scope s (.tailCall body s'.scopes.size)
      (s'.withObject.withScope proc.scope (proc.params.bindings s'.nextObject args)) :=
  .procedure hsees hvalue htransformer rfl (fun _ h => nomatch h) hargs fun _ _ =>
    applyClosure_single hc harity hbody

/-! ### Procedures that make values -/

/-- An operation on two integers that needs no store. -/
theorem Gives.number (hsees : s.scopes.Sees scope env) (husual : env.IsUsual) (op : NumberOp)
    (harity : op.arity.accepts 2 = true) {left right v : Value} {i j : Int}
    (hleft : Gives nesting (depth + 1) left scope s (.int i) s)
    (hright : Gives nesting (depth + 1) right scope s (.int j) s)
    (hrun : ∀ s, op.run [.int i, .int j] s = .ok v s) :
    Gives nesting (depth + 2) (.call id op.name [left, right]) scope s v s := by
  refine Steps.gives (.primitive hsees husual (.numbers op) (.cons hleft (.cons hright .nil)) harity
    fun rounds _ => ?_)
  exact (bind_of_ok (hrun s)).trans rfl

theorem Gives.list (hsees : s.scopes.Sees scope env) (husual : env.IsUsual) {exprs vs : List Value}
    (h : GivesAll nesting (depth + 1) exprs scope s vs s') :
    Gives nesting (depth + 2) (.call id "list" exprs) scope s (.ofList s'.nextObject vs)
      s'.withObject :=
  Steps.gives (.primitive hsees husual (.lists .list) h rfl fun _ _ => rfl)

theorem Steps.quote (hsees : s.scopes.Sees scope env) (husual : env.IsUsual) (v : Value) :
    Steps nesting (depth + 1) (.call id "quote" [v]) scope s (.value v) s :=
  .form hsees husual .quote rfl fun _ _ => rfl

/-! ### Procedures that leave something over -/

/-- Evaluation of the value of an operand. -/
theorem Steps.eval (hsees : s.scopes.Sees scope env) (husual : env.IsUsual) {expr v : Value}
    (h : Gives nesting (depth + 1) expr scope s v s') :
    Steps nesting (depth + 1) (.call id "eval" [expr]) scope s (.tailCall v scope) s' :=
  .primitive hsees husual (.control .eval) (.cons h .nil) rfl fun _ _ => rfl

/-- Application of a closure to a list of arguments. -/
theorem Steps.apply (hsees : s.scopes.Sees scope env) (husual : env.IsUsual) {procExpr argsExpr : Value}
    {c : ClosureId} {list : Value}
    (hproc : Gives nesting (depth + 1) procExpr scope s (.atom (.closure c)) s)
    (hargs : Gives nesting (depth + 1) argsExpr scope s list s') (hproper : list.isProper = true)
    {proc : Closure} {body : Value} (hc : s'.closures[c]? = some proc)
    (harity : proc.params.arity.accepts list.items.length = true) (hbody : proc.body = [body]) :
    Steps nesting (depth + 1) (.call id "apply" [procExpr, argsExpr]) scope s
      (.tailCall body s'.scopes.size)
      (s'.withObject.withScope proc.scope (proc.params.bindings s'.nextObject list.items)) := by
  refine .primitive hsees husual (.control .apply) (.cons hproc (.cons hargs .nil)) rfl fun rounds _ => ?_
  have hitems : Action.asItems (some ControlOp.apply.name) list s' = .ok list.items s' := by
    rw [Action.asItems, if_pos hproper]
    rfl
  exact (bind_of_ok hitems).trans (applyClosure_single hc harity hbody)

/-! ### Forms -/

theorem Steps.conditional (hsees : s.scopes.Sees scope env) (husual : env.IsUsual) {test t : Value}
    (htest : Gives nesting (depth + 1) test scope s t s') (yes no : Value) :
    Steps nesting (depth + 1) (.call id "if" [test, yes, no]) scope s
      (.tailCall (if t.isTruthy then yes else no) scope) s' := by
  refine .form hsees husual .conditional rfl fun rounds hrounds => ?_
  refine (bind_of_ok (htest rounds hrounds)).trans ?_
  cases t.isTruthy <;> rfl

/-- A conditional with one branch. -/
theorem Steps.conditional_one (hsees : s.scopes.Sees scope env) (husual : env.IsUsual) {test t : Value}
    (htest : Gives nesting (depth + 1) test scope s t s') (yes : Value) :
    Steps nesting (depth + 1) (.call id "if" [test, yes]) scope s
      (if t.isTruthy then .tailCall yes scope else .value .void) s' := by
  refine .form hsees husual .conditional rfl fun rounds hrounds => ?_
  refine (bind_of_ok (htest rounds hrounds)).trans ?_
  cases t.isTruthy <;> rfl

/-- Constants are evaluated without a trace. -/
theorem eval_constants {before : List Value} (h : ∀ v ∈ before, v.isSelfEvaluating = true) (rounds : Nat)
    (hrounds : rounds > 0) : ∀ expr ∈ before,
      ∃ v, (nested rounds nesting (depth + 1)).eval expr scope s = .ok v s :=
  fun expr hmem => ⟨expr, Gives.constant (h expr hmem) rounds hrounds⟩

theorem Steps.sequence (hsees : s.scopes.Sees scope env) (husual : env.IsUsual) {before : List Value}
    (hbefore : ∀ v ∈ before, v.isSelfEvaluating = true) (last : Value) :
    Steps nesting (depth + 1) (.call id "begin" (before ++ [last])) scope s (.tailCall last scope) s :=
  .form hsees husual .sequence rfl fun rounds hrounds =>
    sequence_append last (eval_constants hbefore rounds hrounds)

theorem Steps.conjunction (hsees : s.scopes.Sees scope env) (husual : env.IsUsual) {before : List Value}
    (hbefore : ∀ v ∈ before, v.isSelfEvaluating = true ∧ v.isTruthy = true) (last : Value) :
    Steps nesting (depth + 1) (.call id "and" (before ++ [last])) scope s (.tailCall last scope) s := by
  refine .form hsees husual .conjunction rfl fun rounds hrounds => ?_
  show Forms.conjunction _ scope (before ++ [last]) s = _
  induction before with
  | nil => rfl
  | cons v before ih =>
    obtain ⟨hself, htruthy⟩ := hbefore v List.mem_cons_self
    have hmore := ih fun v' hmem => hbefore v' (List.mem_cons_of_mem v hmem)
    obtain ⟨next, more, hsplit⟩ := List.exists_cons_of_ne_nil (List.append_ne_nil_of_right_ne_nil before
      (List.cons_ne_nil last []))
    rw [hsplit] at hmore
    rw [List.cons_append, hsplit]
    refine (bind_of_ok (Gives.constant hself rounds hrounds)).trans ?_
    rw [if_pos htruthy]
    exact hmore

theorem Steps.disjunction (hsees : s.scopes.Sees scope env) (husual : env.IsUsual) {before : List Value}
    (hbefore : ∀ v ∈ before, v = .bool false) (last : Value) :
    Steps nesting (depth + 1) (.call id "or" (before ++ [last])) scope s (.tailCall last scope) s := by
  refine .form hsees husual .disjunction rfl fun rounds hrounds => ?_
  show Forms.disjunction _ scope (before ++ [last]) s = _
  induction before with
  | nil => rfl
  | cons v before ih =>
    obtain rfl := hbefore v List.mem_cons_self
    have hmore := ih fun v' hmem => hbefore v' (List.mem_cons_of_mem _ hmem)
    obtain ⟨next, more, hsplit⟩ := List.exists_cons_of_ne_nil (List.append_ne_nil_of_right_ne_nil before
      (List.cons_ne_nil last []))
    rw [hsplit] at hmore
    rw [List.cons_append, hsplit]
    exact (bind_of_ok (Gives.constant (v := .bool false) rfl rounds hrounds)).trans hmore

/-! ### Clauses -/

section

variable {ev : Evaluator} {test v : Value} (htest : ev.eval test scope s = .ok v s')
  (hname : test.isSymbol Forms.elseName = false)
include htest hname

/-- A clause whose test is false is passed over. -/
theorem tryClauses_false (hv : v.isTruthy = false) (body more : List Value) :
    Forms.tryClauses ev scope (.list id test body none :: more) s = Forms.tryClauses ev scope more s' := by
  rw [Forms.tryClauses, hname]
  refine (bind_of_ok htest).trans ?_
  rw [hv]
  rfl

/-- The body of a clause whose test is true. -/
theorem tryClauses_body (hv : v.isTruthy = true) {body : List Value} (hbody : body ≠ [])
    (hfirst : ∀ expr ∈ body, expr.isSymbol Forms.arrowName = false) (more : List Value) :
    Forms.tryClauses ev scope (.list id test body none :: more) s = ev.sequence scope body s' := by
  obtain ⟨first, rest, rfl⟩ := List.exists_cons_of_ne_nil hbody
  have hfirst := hfirst first List.mem_cons_self
  rw [Forms.tryClauses, hname]
  refine (bind_of_ok htest).trans ?_
  rw [hv]
  dsimp only
  rw [hfirst]
  rfl

/-- The receiver of a clause whose test is true. -/
theorem tryClauses_receiver (hv : v.isTruthy = true) {receiver : Value} {c : ClosureId}
    (hreceiver : ev.eval receiver scope s' = .ok (.atom (.closure c)) s') {proc : Closure}
    (hc : s'.closures[c]? = some proc) (harity : proc.params.arity.accepts 1 = true)
    (more : List Value) :
    Forms.tryClauses ev scope (.list id test [.sym Forms.arrowName, receiver] none :: more) s =
      ev.apply (.atom (.closure c)) [v] scope s' := by
  have hlookup : s'.procedureArity (.closure c) = proc.params.arity := by
    rw [Store.procedureArity, hc]
  rw [Forms.tryClauses, hname]
  refine (bind_of_ok htest).trans ?_
  rw [hv]
  refine (bind_of_ok hreceiver).trans ?_
  show (if (s'.procedureArity (.closure c)).accepts 1 then _ else _ : Action Step) s' = _
  rw [hlookup, if_pos harity]

end

theorem tryClauses_else (ev : Evaluator) (body more : List Value) :
    Forms.tryClauses ev scope (.list id (.sym Forms.elseName) body none :: more) =
      ev.sequence scope body := rfl

/-- Clauses of the right shape are tried. -/
theorem Steps.cond (hsees : s.scopes.Sees scope env) (husual : env.IsUsual) {clauses : List Value}
    (hcheck : Forms.checkClauses nesting clauses = pure ()) {next : Step}
    (htry : ∀ rounds > 0, Forms.tryClauses (nested rounds nesting (depth + 1)) scope clauses s =
      .ok next s') :
    Steps nesting (depth + 1) (.call id "cond" clauses) scope s next s' := by
  refine .form hsees husual .cond rfl fun rounds hrounds => ?_
  show Forms.cond _ scope clauses s = _
  exact (bind_of_ok (congrFun hcheck s)).trans (htry rounds hrounds)

/-! ### Bindings -/

/-- A form with a body has the operands that it asks for. -/
theorem accepts_body (v : Value) {body : List Value} (h : body ≠ []) :
    (Arity.atLeast 2).accepts (v :: body).length = true := by
  have hlength : 0 < body.length := List.length_pos_iff.mpr h
  rw [Arity.accepts_atLeast, List.length_cons]
  omega

theorem Steps.bind (hsees : s.scopes.Sees scope env) (husual : env.IsUsual) {name : Text} {init v : Value}
    (hinit : Gives nesting (depth + 1) init scope s v s') (ids : ObjectId × ObjectId)
    {before : List Value} (hbefore : ∀ v ∈ before, v.isSelfEvaluating = true) (last : Value) :
    Steps nesting (depth + 1) (.call id "let" (.oneBinding ids name init :: (before ++ [last]))) scope s
      (.tailCall last s'.scopes.size) (s'.withScope scope [(name, v)]) := by
  have hbody : before ++ [last] ≠ [] := List.append_ne_nil_of_right_ne_nil before (List.cons_ne_nil last [])
  refine .form hsees husual .bind (accepts_body _ hbody) fun rounds hrounds => ?_
  have hargs := operands_cons (hinit rounds hrounds) operands_nil
  exact (bind_of_ok hargs).trans (sequence_append last (eval_constants hbefore rounds hrounds))

theorem Steps.bindSequentially (hsees : s.scopes.Sees scope env) (husual : env.IsUsual) {name : Text}
    {init v : Value}
    (hinit : Gives nesting (depth + 1) init s.scopes.size (s.withScope scope []) v s')
    (ids : ObjectId × ObjectId) {before : List Value} (hbefore : ∀ v ∈ before, v.isSelfEvaluating = true)
    (last : Value) :
    Steps nesting (depth + 1) (.call id "let*" (.oneBinding ids name init :: (before ++ [last]))) scope s
      (.tailCall last s'.scopes.size) (s'.withScope s.scopes.size [(name, v)]) := by
  have hbody : before ++ [last] ≠ [] := List.append_ne_nil_of_right_ne_nil before (List.cons_ne_nil last [])
  refine .form hsees husual .bindSequentially (accepts_body _ hbody) fun rounds hrounds => ?_
  have hnest : Forms.nestBindings (nested rounds nesting (depth + 1)) [(name, init)] s.scopes.size
      (s.withScope scope []) = .ok s'.scopes.size (s'.withScope s.scopes.size [(name, v)]) :=
    (bind_of_ok (hinit rounds hrounds)).trans rfl
  exact (bind_of_ok hnest).trans (sequence_append last (eval_constants hbefore rounds hrounds))

theorem Steps.bindRecursively (hsees : s.scopes.Sees scope env) (husual : env.IsUsual) {name : Text}
    {init v : Value}
    (hinit : Gives nesting (depth + 1) init s.scopes.size (s.withScope scope [(name, .void)]) v
      (s.withScope scope [(name, .void)]))
    (ids : ObjectId × ObjectId) {before : List Value} (hbefore : ∀ v ∈ before, v.isSelfEvaluating = true)
    (last : Value) :
    Steps nesting (depth + 1) (.call id "letrec" (.oneBinding ids name init :: (before ++ [last]))) scope s
      (.tailCall last s.scopes.size) (s.withScope scope [(name, v)]) := by
  have hbody : before ++ [last] ≠ [] := List.append_ne_nil_of_right_ne_nil before (List.cons_ne_nil last [])
  refine .form hsees husual .bindRecursively (accepts_body _ hbody) fun rounds hrounds => ?_
  have hdefine : (s.withScope scope [(name, .void)]).scopes.define s.scopes.size name v =
      s.scopes.push ⟨[(name, v)], [], some scope⟩ := by
    refine (Scopes.define_push s.scopes _ [] (some scope) name v).trans ?_
    rw [Table.put, if_pos (Text.same_self name)]
  have hfill : Forms.fillBindings (nested rounds nesting (depth + 1)) s.scopes.size [(name, init)]
      (s.withScope scope [(name, .void)]) = .ok () (s.withScope scope [(name, v)]) := by
    refine (bind_of_ok (hinit rounds hrounds)).trans ?_
    show EStateM.Result.ok () { s.withScope scope [(name, .void)] with
      scopes := (s.withScope scope [(name, .void)]).scopes.define s.scopes.size name v } = _
    rw [hdefine]
    rfl
  exact (bind_of_ok hfill).trans (sequence_append last (eval_constants hbefore rounds hrounds))

/-- A named binding form enters a closure that sees itself under the name. -/
theorem Steps.bindNamed (hsees : s.scopes.Sees scope env) (husual : env.IsUsual) (name x : Text)
    {init v : Value} (body : Value)
    (hinit : Gives nesting (depth + 1) init scope (s.withLoop scope name ⟨[x], none⟩ body) v
      (s.withLoop scope name ⟨[x], none⟩ body)) (ids : ObjectId × ObjectId) :
    Steps nesting (depth + 1) (.call id "let" [.sym name, .oneBinding ids x init, body]) scope s
      (.tailCall body (s.withLoop scope name ⟨[x], none⟩ body).scopes.size)
      ((s.withLoop scope name ⟨[x], none⟩ body).withObject.withScope s.scopes.size [(x, v)]) := by
  refine .form hsees husual .bind rfl fun rounds hrounds => ?_
  have hdefine : Scopes.define (s.scopes.push ⟨[], [], some scope⟩) s.scopes.size name
      (.atom (.closure s.closures.size)) =
        s.scopes.push ⟨[(name, .atom (.closure s.closures.size))], [], some scope⟩ :=
    Scopes.define_push s.scopes [] [] (some scope) name _
  have hget : (s.withLoop scope name ⟨[x], none⟩ body).closures[s.closures.size]? =
      some ⟨some name, ⟨[x], none⟩, [body], s.scopes.size⟩ := Array.getElem?_push_size
  have hargs := operands_cons (hinit rounds hrounds) operands_nil
  show (do
      let args ← (nested rounds nesting (depth + 1)).operands scope [init]
      (nested rounds nesting (depth + 1)).applyClosure s.closures.size args : Action Step)
    { s with
      closures := s.closures.push ⟨some name, ⟨[x], none⟩, [body], s.scopes.size⟩
      scopes := Scopes.define (s.scopes.push ⟨[], [], some scope⟩) s.scopes.size name
        (.atom (.closure s.closures.size)) } = _
  rw [hdefine]
  exact (bind_of_ok hargs).trans (applyClosure_single hget rfl rfl)

/-! ### Definitions -/

theorem makeClosure_eq {form : Text} {formals : Value} {params : Params}
    (h : Params.parse form formals = .ok params) (name : Option Text) (body : List Value) (scope : ScopeId) :
    makeClosure name form formals body scope s =
      .ok s.closures.size { s with closures := s.closures.push ⟨name, params, body, scope⟩ } := by
  rw [makeClosure, h]
  rfl

/-- The definition of a procedure by its signature. -/
theorem Steps.defineProcedure (hsees : s.scopes.Sees scope env) (husual : env.IsUsual)
    {id' : ObjectId} {name : Text} {formals : List Value} {last : Option Atom} {params : Params}
    (hparams : Params.parse "define" (.assemble id' formals last) = .ok params)
    {body : List Value} (hbody : body ≠ []) :
    Steps nesting (depth + 1) (.call id "define" (.list id' (.sym name) formals last :: body)) scope s
      (.value .void) (s.withProcedure scope ⟨some name, params, body, scope⟩ name) := by
  refine .form hsees husual .define (accepts_body _ hbody) fun rounds hrounds => ?_
  exact (bind_of_ok (makeClosure_eq hparams (some name) body scope)).trans rfl

/-- The definition of a transformer. -/
theorem Steps.defineTransformer (hsees : s.scopes.Sees scope env) (husual : env.IsUsual)
    {id' : ObjectId} {name : Text} {formals : List Value} {last : Option Atom} {params : Params}
    (hparams : Params.parse "define-macro" (.assemble id' formals last) = .ok params)
    {body : List Value} (hbody : body ≠ []) :
    Steps nesting (depth + 1) (.call id "define-macro" (.list id' (.sym name) formals last :: body)) scope s
      (.value .void) (s.withTransformer scope ⟨some name, params, body, scope⟩ name) := by
  refine .form hsees husual .defineTransformer (accepts_body _ hbody) fun rounds hrounds => ?_
  exact (bind_of_ok (makeClosure_eq hparams (some name) body scope)).trans rfl

/-- A transformer of one expression: the value of that expression is left over. -/
theorem Steps.expand (hsees : s.scopes.Sees scope env) {name : Text} {c : ClosureId}
    (htransformer : env.transformer name = some c) {proc : Closure} {template : Value}
    (hc : s.closures[c]? = some proc) {operands : List Value}
    (harity : proc.params.arity.accepts operands.length = true) (hbody : proc.body = [template])
    {expansion : Value}
    (heval : Gives nesting depth template s.scopes.size
      (s.withObject.withScope proc.scope (proc.params.bindings s.nextObject operands)) expansion s') :
    Steps nesting depth (.call id name operands) scope s (.tailCall expansion scope) s' := by
  intro rounds hrounds
  have hfound : transformerOf (.sym name) scope s = .ok (some c) s := by
    rw [transformerOf, Action.transformer?, get_bind, hsees.transformer, htransformer]
    rfl
  have hlimited : Action.limited (do
      let body ← (nested rounds nesting depth).applyClosure c operands
      (nested rounds nesting depth).finish body) s = .ok expansion s' := by
    rw [Action.limited, bind_of_ok (applyClosure_single hc harity hbody), finish, heval rounds hrounds]
  rw [step, bind_of_ok hfound]
  dsimp only
  rw [bind_of_ok hlimited]
  rfl

end

end Evaluator

end Lisplet
