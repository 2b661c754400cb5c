import Lisplet.Proofs.PreludeStart
import Lisplet.Proofs.TailCalls

/-!
# Counting down in tail position

The bodies of procedures that count down and call themselves in tail position are described by their shape.
Whatever the shape, one call leads to the call with the next smaller number, and needs no more room for
nesting than the last one; so the procedure comes to its end from every number.
-/

namespace Lisplet.Countdown

open Evaluator

/-! ### Shapes -/

/-- What a countdown goes by: its parameter `n`, which is zero at the end, or a variable `m` that is bound
to one less and is below zero at the end. -/
inductive Counter where
  | whole
  | below

/-- The test for the end. -/
def Counter.test (id : ObjectId) : Counter → Value
  | .whole => .call id "=" [.sym "n", .int 0]
  | .below => .call id "<" [.sym "m", .int 0]

/-- The test for calls that are left. -/
def Counter.more (id : ObjectId) : Counter → Value
  | .whole => .call id ">" [.sym "n", .int 0]
  | .below => .call id ">=" [.sym "m", .int 0]

/-- The next smaller number. -/
def Counter.next (id : ObjectId) : Counter → Value
  | .whole => .call id "-" [.sym "n", .int 1]
  | .below => .sym "m"

/-- Forms that leave an expression over as their last one. Those that bind `m` let the expression go by it. -/
inductive IsTail : Counter → Value → Counter → Value → Prop
  | sequence {ctr : Counter} {e : Value} (id : ObjectId) {before : List Value}
      (h : ∀ v ∈ before, v.isSelfEvaluating = true) :
      IsTail ctr e ctr (.call id "begin" (before ++ [e]))
  | conjunction {ctr : Counter} {e : Value} (id : ObjectId) {before : List Value}
      (h : ∀ v ∈ before, v.isSelfEvaluating = true ∧ v.isTruthy = true) :
      IsTail ctr e ctr (.call id "and" (before ++ [e]))
  | disjunction {ctr : Counter} {e : Value} (id : ObjectId) {before : List Value}
      (h : ∀ v ∈ before, v = .bool false) :
      IsTail ctr e ctr (.call id "or" (before ++ [e]))
  | bind {e : Value} (id id₁ : ObjectId) (ids : ObjectId × ObjectId) {before : List Value}
      (h : ∀ v ∈ before, v.isSelfEvaluating = true) : IsTail .below e .whole
        (.call id "let" (.oneBinding ids "m" (Counter.whole.next id₁) :: (before ++ [e])))
  | bindSequentially {e : Value} (id id₁ : ObjectId) (ids : ObjectId × ObjectId) {before : List Value}
      (h : ∀ v ∈ before, v.isSelfEvaluating = true) : IsTail .below e .whole
        (.call id "let*" (.oneBinding ids "m" (Counter.whole.next id₁) :: (before ++ [e])))
  | bindRecursively {e : Value} (id id₁ : ObjectId) (ids : ObjectId × ObjectId) {before : List Value}
      (h : ∀ v ∈ before, v.isSelfEvaluating = true) : IsTail .below e .whole
        (.call id "letrec" (.oneBinding ids "m" (Counter.whole.next id₁) :: (before ++ [e])))

/-- A call of `count` with the next smaller number, direct, by `apply` or by `eval`, perhaps inside forms that
leave it over. -/
inductive IsSelfCall : Counter → Value → Prop
  | call {ctr : Counter} (id id₁ : ObjectId) : IsSelfCall ctr (.call id "count" [ctr.next id₁])
  | apply {ctr : Counter} (id id₁ id₂ : ObjectId) :
      IsSelfCall ctr (.call id "apply" [.sym "count", .call id₁ "list" [ctr.next id₂]])
  | eval {ctr : Counter} (id id₁ id₂ id₃ : ObjectId) : IsSelfCall ctr
      (.call id "eval" [.call id₁ "list" [.call id₂ "quote" [.sym "count"], ctr.next id₃]])
  | tail {ctr ctr' : Counter} {e e' : Value} (h : IsSelfCall ctr e) (htail : IsTail ctr e ctr' e') :
      IsSelfCall ctr' e'

/-- The value at the end, quoted. -/
abbrev done (id : ObjectId) : Value := .call id "quote" [.sym "done"]

/-- The body of a procedure `count` with the parameter `n` that is done at the end and calls itself in tail
position before: in either branch of a conditional, in the body of a clause or as its receiver. -/
inductive IsCountdown : Counter → Value → Prop
  | otherwise {ctr : Counter} {e : Value} (h : IsSelfCall ctr e) (id id₁ id₂ : ObjectId) :
      IsCountdown ctr (.call id "if" [ctr.test id₁, done id₂, e])
  | whenever {ctr : Counter} {e : Value} (h : IsSelfCall ctr e) (id id₁ id₂ : ObjectId) :
      IsCountdown ctr (.call id "if" [ctr.more id₁, e, done id₂])
  | lastClause {ctr : Counter} {e : Value} (h : IsSelfCall ctr e) {before : List Value}
      (hbefore : ∀ v ∈ before, v.isSelfEvaluating = true) (id id₁ id₂ id₃ id₄ : ObjectId) :
      IsCountdown ctr (.call id "cond" [.list id₁ (ctr.test id₂) [done id₃] none,
        .list id₄ (.sym "else") (before ++ [e]) none])
  | firstClause {ctr : Counter} {e : Value} (h : IsSelfCall ctr e) {before : List Value}
      (hbefore : ∀ v ∈ before, v.isSelfEvaluating = true) (id id₁ id₂ id₃ id₄ : ObjectId) :
      IsCountdown ctr (.call id "cond" [.list id₁ (ctr.more id₂) (before ++ [e]) none,
        .list id₃ (.sym "else") [done id₄] none])
  | receiver (ctr : Counter) (id id₁ id₂ id₃ id₄ id₅ : ObjectId) :
      IsCountdown ctr (.call id "cond" [.list id₁ (ctr.test id₂) [done id₃] none,
        .list id₄ (ctr.next id₅) [.sym "=>", .sym "count"] none])
  | tail {ctr ctr' : Counter} {e e' : Value} (h : IsCountdown ctr e) (htail : IsTail ctr e ctr' e') :
      IsCountdown ctr' e'

/-! ### Counters -/

/-- The counter says in an environment that so many calls are left. -/
def Counter.Counts (env : Env) (k : Nat) : Counter → Prop
  | .whole => env.value "n" = some (.int k)
  | .below => env.value "m" = some (.int (k - 1))

/-- A call is under way: the procedure stands where it stood, and the counter says that so many calls are
left. -/
structure IsUnderWay (p : UnaryProcedure) (ctr : Counter) (k : Nat) (s : Store) (scope : ScopeId)
    (env : Env) : Prop where
  isIn : p.IsIn s
  sees : s.scopes.Sees scope env
  usual : env.IsUsual
  knows : env.Knows "count" p.id
  counts : ctr.Counts env k

theorem find?_m : initialBindings.find? "m" = none := by decide +kernel

theorem find?_n : initialBindings.find? "n" = none := by decide +kernel

section

variable {nesting depth : Nat} {p : UnaryProcedure} {ctr : Counter} {k : Nat} {scope : ScopeId} {s : Store}
  {env : Env}

theorem IsUnderWay.test_gives (h : IsUnderWay p ctr k s scope env) (nesting depth : Nat) (id : ObjectId) :
    Gives nesting (depth + 2) (ctr.test id) scope s (.bool (decide (k = 0))) s := by
  cases ctr with
  | whole =>
    have hzero : decide (k = 0) = decide ((k : Int) = 0) := decide_eq_decide.mpr (by omega)
    rw [hzero]
    exact .number h.sees h.usual .equal rfl (.name h.sees h.counts) (.constant rfl)
      (NumberOp.run_equal k 0)
  | below =>
    have hzero : decide (k = 0) = decide ((k : Int) - 1 < 0) := decide_eq_decide.mpr (by omega)
    rw [hzero]
    exact .number h.sees h.usual .less rfl (.name h.sees h.counts) (.constant rfl)
      (NumberOp.run_less (k - 1) 0)

theorem IsUnderWay.more_gives (h : IsUnderWay p ctr k s scope env) (nesting depth : Nat) (id : ObjectId) :
    Gives nesting (depth + 2) (ctr.more id) scope s (.bool (decide (k ≠ 0))) s := by
  cases ctr with
  | whole =>
    have hmore : decide (k ≠ 0) = decide ((0 : Int) < k) := decide_eq_decide.mpr (by omega)
    rw [hmore]
    exact .number h.sees h.usual .greater rfl (.name h.sees h.counts) (.constant rfl)
      (NumberOp.run_greater k 0)
  | below =>
    have hmore : decide (k ≠ 0) = decide ((0 : Int) ≤ (k : Int) - 1) := decide_eq_decide.mpr (by omega)
    rw [hmore]
    exact .number h.sees h.usual .greaterEqual rfl (.name h.sees h.counts) (.constant rfl)
      (NumberOp.run_greaterEqual (k - 1) 0)

theorem IsUnderWay.next_gives (h : IsUnderWay p ctr k s scope env) (nesting depth : Nat) (id : ObjectId) :
    Gives nesting (depth + 2) (ctr.next id) scope s (.int (k - 1)) s := by
  cases ctr with
  | whole =>
    exact .number h.sees h.usual .sub rfl (.name h.sees h.counts) (.constant rfl) (NumberOp.run_sub k 1)
  | below => exact .name h.sees h.counts

theorem IsUnderWay.next_gives_succ (h : IsUnderWay p ctr (k + 1) s scope env) (nesting depth : Nat)
    (id : ObjectId) :
    Gives nesting (depth + 2) (ctr.next id) scope s (.int k) s := by
  have hk : (k : Int) = ((k + 1 : Nat) : Int) - 1 := by omega
  rw [hk]
  exact h.next_gives nesting depth id

/-- In a new scope, `m` is bound to one less than `n`. -/
theorem IsUnderWay.enter (h : IsUnderWay p .whole k s scope env) {s' : Store} {scope' : ScopeId}
    (hs : p.IsIn s') (hsees : s'.scopes.Sees scope' (env.bind [("m", .int (k - 1))])) :
    IsUnderWay p .below k s' scope' (env.bind [("m", .int (k - 1))]) where
  isIn := hs
  sees := hsees
  usual := h.usual.bind_one find?_m _
  knows := h.knows.bind_one (by decide) _
  counts := env.value_bind_self _ _

/-! ### One call leads to the next -/

/-- A form that leaves an expression over finishes with it. -/
theorem IsTail.finishes {ctr' : Counter} {e e' v : Value} (h : IsTail ctr' e ctr e')
    (hway : IsUnderWay p ctr k s scope env)
    (hnext : ∀ s scope env, IsUnderWay p ctr' k s scope env → Finishes nesting (depth + 3) e scope s v) :
    Finishes nesting (depth + 3) e' scope s v := by
  have hsees := hway.sees
  let env' := env.bind [("m", .int (k - 1))]
  cases h with
  | sequence id h => exact (Steps.sequence hsees hway.usual h e).finishes_with (hnext s scope env hway)
  | conjunction id h => exact (Steps.conjunction hsees hway.usual h e).finishes_with (hnext s scope env hway)
  | disjunction id h => exact (Steps.disjunction hsees hway.usual h e).finishes_with (hnext s scope env hway)
  | bind id id₁ ids h =>
    have hinit := hway.next_gives nesting (depth + 1) id₁
    refine (Steps.bind hsees hway.usual hinit ids h e).finishes_with (hnext _ _ env' ?_)
    exact hway.enter (hway.isIn.withScope hsees _) (hsees.push _)
  | bindSequentially id id₁ ids h =>
    -- The scope around the first binding is empty, and sees what is around it.
    have hinside : (s.withScope scope []).scopes.Sees s.scopes.size env := hsees.push []
    have hway' : IsUnderWay p .whole k (s.withScope scope []) s.scopes.size env :=
      { hway with isIn := hway.isIn.withScope hsees [], sees := hinside }
    have hinit := hway'.next_gives nesting (depth + 1) id₁
    refine (Steps.bindSequentially hsees hway.usual hinit ids h e).finishes_with (hnext _ _ env' ?_)
    exact hway.enter (hway'.isIn.withScope hinside _) (hinside.push _)
  | bindRecursively id id₁ ids h =>
    -- While the value of `m` is evaluated, `m` is unspecified and `n` is what it was.
    have hway' : IsUnderWay p .whole k (s.withScope scope [("m", .void)]) s.scopes.size
        (env.bind [("m", .void)]) :=
      { isIn := hway.isIn.withScope hsees _
        sees := hsees.push _
        usual := hway.usual.bind_one find?_m _
        knows := hway.knows.bind_one (by decide) _
        counts := (Env.value_bind_of_ne (by decide) .void env).trans hway.counts }
    have hinit := hway'.next_gives nesting (depth + 1) id₁
    refine (Steps.bindRecursively hsees hway.usual hinit ids h e).finishes_with (hnext _ _ env' ?_)
    exact hway.enter (hway.isIn.withScope hsees _) (hsees.push _)

/-- A call with the next smaller number finishes when the procedure does. -/
theorem IsSelfCall.finishes {e v : Value} (h : IsSelfCall ctr e)
    (hnext : p.Proceeds nesting (depth + 3) (.int k) v) (s : Store) (scope : ScopeId) (env : Env)
    (hway : IsUnderWay p ctr (k + 1) s scope env) : Finishes nesting (depth + 3) e scope s v := by
  induction h generalizing s scope env with
  | call id id₁ => exact hnext.call hway.isIn hway.sees hway.knows (hway.next_gives_succ _ _ id₁) id
  | apply id id₁ id₂ =>
    exact hnext.apply hway.isIn hway.sees hway.usual hway.knows (hway.next_gives_succ _ _ id₂) id id₁
  | eval id id₁ id₂ id₃ =>
    exact hnext.eval hway.isIn hway.sees hway.usual hway.knows (hway.next_gives_succ _ _ id₃) rfl id id₁ id₂
  | tail h htail ih => exact htail.finishes hway ih

/-! ### Clauses -/

theorem Counter.isSymbol_test (ctr : Counter) (id : ObjectId) :
    (ctr.test id).isSymbol Forms.elseName = false := by
  cases ctr <;> rfl

theorem Counter.isSymbol_more (ctr : Counter) (id : ObjectId) :
    (ctr.more id).isSymbol Forms.elseName = false := by
  cases ctr <;> rfl

theorem Counter.isSymbol_next (ctr : Counter) (id : ObjectId) :
    (ctr.next id).isSymbol Forms.elseName = false := by
  have hm : (Value.sym "m").isSymbol Forms.elseName = false := by decide
  cases ctr with
  | whole => rfl
  | below => exact hm

theorem isSymbol_constant {v : Value} (h : v.isSelfEvaluating = true) (name : Text) :
    v.isSymbol name = false := by
  cases v with
  | atom a =>
    cases a with
    | sym _ => exact nomatch h
    | _ => rfl
  | nil => rfl
  | list _ _ _ _ => rfl

theorem IsSelfCall.isSymbol {e : Value} (h : IsSelfCall ctr e) (name : Text) : e.isSymbol name = false := by
  cases h with
  | tail h htail => cases htail <;> rfl
  | _ => rfl

/-- At the end, the first clause gives the value. -/
theorem IsUnderWay.finishes_first (hway : IsUnderWay p ctr 0 s scope env) {id₁ id₂ id₃ : ObjectId}
    {more : List Value}
    (hcheck : Forms.checkClauses nesting (.list id₁ (ctr.test id₂) [done id₃] none :: more) = pure ())
    (id : ObjectId) : Finishes nesting (depth + 3)
      (.call id "cond" (.list id₁ (ctr.test id₂) [done id₃] none :: more)) scope s (.sym "done") := by
  have htest := hway.test_gives nesting (depth + 1) id₂
  have hdone : Finishes nesting (depth + 3) (done id₃) scope s (.sym "done") :=
    (Steps.quote hway.sees hway.usual _).finishes
  refine (Steps.cond hway.sees hway.usual hcheck fun rounds hrounds => ?_).finishes_with hdone
  refine tryClauses_body (htest rounds hrounds) (ctr.isSymbol_test id₂) rfl (List.cons_ne_nil _ [])
    (fun expr hexpr => ?_) more
  obtain rfl := List.mem_singleton.mp hexpr
  rfl

/-- Bodies of this shape finish when the call with the next smaller number does. -/
theorem IsCountdown.finishes {e : Value} (h : IsCountdown ctr e)
    (hnext : ∀ j, k = j + 1 → p.Proceeds nesting (depth + 3) (.int j) (.sym "done")) (s : Store)
    (scope : ScopeId) (env : Env) (hway : IsUnderWay p ctr k s scope env) :
    Finishes nesting (depth + 3) e scope s (.sym "done") := by
  have hdone : ∀ {s scope env} (id : ObjectId), s.scopes.Sees scope env → env.IsUsual →
      Finishes nesting (depth + 3) (done id) scope s (.sym "done") :=
    fun _ hsees husual => (Steps.quote hsees husual _).finishes
  induction h generalizing s scope env with
  | otherwise h id id₁ id₂ =>
    have htest := hway.test_gives nesting (depth + 1) id₁
    refine (Steps.conditional hway.sees hway.usual htest _ _).finishes_with ?_
    cases k with
    | zero => exact hdone id₂ hway.sees hway.usual
    | succ k => exact h.finishes (hnext k rfl) s scope env hway
  | whenever h id id₁ id₂ =>
    have hmore := hway.more_gives nesting (depth + 1) id₁
    refine (Steps.conditional hway.sees hway.usual hmore _ _).finishes_with ?_
    cases k with
    | zero => exact hdone id₂ hway.sees hway.usual
    | succ k => exact h.finishes (hnext k rfl) s scope env hway
  | @lastClause ctr e h before hbefore id id₁ id₂ id₃ id₄ =>
    have htest := hway.test_gives nesting (depth + 1) id₂
    have hcheck : Forms.checkClauses nesting [.list id₁ (ctr.test id₂) [done id₃] none,
        .list id₄ (.sym Forms.elseName) (before ++ [e]) none] = pure () := by
      rw [Forms.checkClauses, ctr.isSymbol_test]
      rfl
    cases k with
    | zero => exact hway.finishes_first hcheck id
    | succ k =>
      refine (Steps.cond hway.sees hway.usual hcheck fun rounds hrounds => ?_).finishes_with
        (h.finishes (hnext k rfl) s scope env hway)
      rw [tryClauses_false (htest rounds hrounds) (ctr.isSymbol_test id₂) rfl, tryClauses_else]
      exact sequence_append e (eval_constants hbefore rounds hrounds)
  | @firstClause ctr e h before hbefore id id₁ id₂ id₃ id₄ =>
    have hmore := hway.more_gives nesting (depth + 1) id₂
    have hcheck : Forms.checkClauses nesting [.list id₁ (ctr.more id₂) (before ++ [e]) none,
        .list id₃ (.sym Forms.elseName) [done id₄] none] = pure () := by
      rw [Forms.checkClauses, ctr.isSymbol_more]
      rfl
    cases k with
    | zero =>
      refine (Steps.cond hway.sees hway.usual hcheck fun rounds hrounds => ?_).finishes_with
        (hdone id₄ hway.sees hway.usual)
      rw [tryClauses_false (hmore rounds hrounds) (ctr.isSymbol_more id₂) rfl, tryClauses_else]
      rfl
    | succ k =>
      refine (Steps.cond hway.sees hway.usual hcheck fun rounds hrounds => ?_).finishes_with
        (h.finishes (hnext k rfl) s scope env hway)
      rw [tryClauses_body (hmore rounds hrounds) (ctr.isSymbol_more id₂) rfl
        (List.append_ne_nil_of_right_ne_nil before (List.cons_ne_nil e []))]
      · exact sequence_append e (eval_constants hbefore rounds hrounds)
      · intro expr hexpr
        rcases List.mem_append.mp hexpr with hexpr | hexpr
        · exact isSymbol_constant (hbefore expr hexpr) _
        · exact List.mem_singleton.mp hexpr ▸ h.isSymbol _
  | receiver ctr id id₁ id₂ id₃ id₄ id₅ =>
    cases k with
    | zero =>
      have hcheck : Forms.checkClauses nesting [.list id₁ (ctr.test id₂) [done id₃] none,
          .list id₄ (ctr.next id₅) [.sym "=>", .sym "count"] none] = pure () := by
        rw [Forms.checkClauses, ctr.isSymbol_test, Forms.checkClauses, ctr.isSymbol_next]
        rfl
      exact hway.finishes_first hcheck id
    | succ k =>
      exact (hnext k rfl).receiver hway.isIn hway.sees hway.usual hway.knows [done id₃]
        (hway.test_gives _ _ id₂) (ctr.isSymbol_test id₂) (hway.next_gives_succ _ _ id₅)
        (ctr.isSymbol_next id₅) rfl id id₁ id₄
  | tail h htail ih => exact htail.finishes hway ih

end

/-! ### Whole runs -/

/-- A procedure under the name `count` with the parameter `n` and a body of one of the shapes. -/
structure IsCount (p : UnaryProcedure) : Prop where
  param : p.param = "n"
  usual : p.home.IsUsual
  knows : p.home.Knows "count" p.id

/-- Entered with a number, the procedure has so many calls left. -/
theorem IsCount.isUnderWay {p : UnaryProcedure} (hp : IsCount p) {k : Nat} {s : Store} {scope : ScopeId}
    (hs : p.IsIn s) (hsees : s.scopes.Sees scope (p.inside (.int k))) :
    IsUnderWay p .whole k s scope (p.home.bind [("n", .int k)]) where
  isIn := hs
  sees := by
    rw [UnaryProcedure.inside, hp.param] at hsees
    exact hsees
  usual := hp.usual.bind_one find?_n _
  knows := hp.knows.bind_one (by decide) _
  counts := p.home.value_bind_self _ _

/-- Counting down comes to its end from every number, by induction on the number. -/
theorem IsCountdown.proceeds {p : UnaryProcedure} (hp : IsCount p) (h : IsCountdown .whole p.body)
    (nesting depth k : Nat) : p.Proceeds nesting (depth + 3) (.int k) (.sym "done") := by
  have hround : ∀ k : Nat, (∀ j, k = j + 1 → p.Proceeds nesting (depth + 3) (.int j) (.sym "done")) →
      p.Proceeds nesting (depth + 3) (.int k) (.sym "done") := by
    intro k hnext s scope hs hsees
    exact h.finishes hnext s scope _ (hp.isUnderWay hs hsees)
  induction k with
  | zero => exact hround 0 fun _ hj => nomatch hj
  | succ k ih => exact hround (k + 1) fun j hj => Nat.succ.inj hj ▸ ih

/-- The body of a loop that counts up to a limit. -/
abbrev countingUp (n : Nat) (id id₁ id₂ id₃ : ObjectId) : Value :=
  .call id "if" [.call id₁ "=" [.sym "i", .int n], .sym "i",
    .call id₂ "loop" [.call id₃ "+" [.sym "i", .int 1]]]

section

variable {p : UnaryProcedure} {n : Nat} {id id₁ id₂ id₃ : ObjectId} (hparam : p.param = "i")
  (husual : p.home.IsUsual) (hknows : p.home.Knows "loop" p.id)
  (hbody : p.body = countingUp n id id₁ id₂ id₃) {nesting depth : Nat}
include hparam husual hknows hbody

/-- One round of a counting loop ends at the limit, or goes on with the next number. -/
theorem countingUp_round (i : Int)
    (hnext : i ≠ n → p.Proceeds nesting (depth + 3) (.int (i + 1)) (.int n)) :
    p.Proceeds nesting (depth + 3) (.int i) (.int n) := by
  intro s scope hs hsees
  rw [UnaryProcedure.inside, hparam] at hsees
  have husual' : (p.home.bind [("i", .int i)]).IsUsual := husual.bind_one (by decide +kernel) _
  have hvalue := p.home.value_bind_self "i" (.int i)
  have htest : Gives nesting (depth + 3) (.call id₁ "=" [.sym "i", .int n]) scope s
      (.bool (decide (i = n))) s :=
    .number hsees husual' .equal rfl (.name hsees hvalue) (.constant rfl) (NumberOp.run_equal i n)
  rw [hbody]
  refine (Steps.conditional hsees husual' htest _ _).finishes_with ?_
  by_cases hi : i = n
  · subst hi
    rw [decide_eq_true rfl]
    exact Steps.finishes (.name hsees hvalue)
  · rw [decide_eq_false hi]
    have harg : Gives nesting (depth + 3) (.call id₃ "+" [.sym "i", .int 1]) scope s (.int (i + 1)) s :=
      .number hsees husual' .add rfl (.name hsees hvalue) (.constant rfl) (NumberOp.run_add i 1)
    exact (hnext hi).call hs hsees (hknows.bind_one (by decide) _) harg id₂

/-- A counting loop comes to its limit from every number below it, by induction on the distance. -/
theorem countingUp_proceeds (distance : Nat) :
    p.Proceeds nesting (depth + 3) (.int (n - distance)) (.int n) := by
  induction distance with
  | zero =>
    refine countingUp_round hparam husual hknows hbody _ fun hne => absurd ?_ hne
    exact Int.sub_zero n
  | succ k ih =>
    refine countingUp_round hparam husual hknows hbody _ fun _ => ?_
    have hnext : (n : Int) - ((k + 1 : Nat) : Int) + 1 = n - k := by omega
    exact hnext ▸ ih

end

/-- The body of a procedure that counts down through a transformer. -/
abbrev countingWhen (id id₁ id₂ id₃ : ObjectId) : Value :=
  .call id "when" [Counter.whole.more id₁, .call id₂ "count" [Counter.whole.next id₃]]

/-- A procedure in the root, where `when` is, that counts down through it. -/
structure IsCountWhen (p : UnaryProcedure) (id id₁ id₂ id₃ : ObjectId) : Prop extends IsCount p where
  scope : p.scope = rootScope
  body : p.body = countingWhen id id₁ id₂ id₃
  hasWhen : ∃ c proc, p.home.transformer "when" = some c ∧ p.closures[c]? = some proc ∧ proc.IsWhen

section

variable {p : UnaryProcedure} {id id₁ id₂ id₃ : ObjectId} (hp : IsCountWhen p id id₁ id₂ id₃) {depth : Nat}
include hp

/-- One call ends at zero, or leads through the expansion to the call with the next smaller number. -/
theorem IsCountWhen.round {k : Nat}
    (hnext : ∀ j, k = j + 1 → p.Proceeds nestingLimit (depth + 3) (.int j) .void) :
    p.Proceeds nestingLimit (depth + 3) (.int k) .void := by
  intro s scope hs hsees
  have hway := hp.isUnderWay hs hsees
  have hroot : s.InRoot p.home := ⟨hp.scope ▸ hs.sees, hp.usual⟩
  obtain ⟨c, proc, htransformer, hc, hproc⟩ := hp.hasWhen
  obtain ⟨i, j, hstep⟩ := Steps.when hway.sees hroot hproc htransformer (hs.closures ▸ hc) id
    (Counter.whole.more id₁) [.call id₂ "count" [Counter.whole.next id₃]] (depth + 1)
  rw [hp.body]
  refine hstep.finishes_with ?_
  -- The expansion is evaluated in the same scope, which sees what it saw.
  generalize whenBindings s.nextObject _ _ = t
  have hway' : IsUnderWay p .whole k (s.withObject.withScope rootScope t).withObject.withObject scope
      (p.home.bind [("n", .int k)]) :=
    { hway with
      isIn := (hs.withObject.withScope hroot.sees t).withObject.withObject
      sees := hway.sees.push_extends hroot.sees t }
  have hmore := hway'.more_gives nestingLimit (depth + 1) id₁
  cases k with
  | zero => exact (Steps.conditional_one hway'.sees hway'.usual hmore _).finishes
  | succ k =>
    refine (Steps.conditional_one hway'.sees hway'.usual hmore _).finishes_with ?_
    have hbefore : ∀ v ∈ ([] : List Value), v.isSelfEvaluating = true := fun _ h => nomatch h
    refine (Steps.sequence hway'.sees hway'.usual hbefore _).finishes_with ?_
    exact (hnext k rfl).call hway'.isIn hway'.sees hway'.knows (hway'.next_gives_succ _ _ id₃) id₂

/-- Counting down through `when` comes to its end from every number, by induction on the number. -/
theorem IsCountWhen.proceeds (depth k : Nat) : p.Proceeds nestingLimit (depth + 3) (.int k) .void := by
  induction k with
  | zero => exact hp.round fun _ h => nomatch h
  | succ k ih => exact hp.round fun j hj => Nat.succ.inj hj ▸ ih

end

/-! ### In a session -/

/-- The definition of `count` with this body. -/
abbrev defineCount (id id' : ObjectId) (body : Value) : Value :=
  .call id "define" [.list id' (.sym "count") [.sym "n"] none, body]

/-- The procedure `count` after its definition in the root. -/
def countIn (s : Store) (env : Env) (body : Value) : UnaryProcedure where
  id := s.closures.size
  name := "count"
  param := "n"
  body := body
  scope := rootScope
  home := env.define "count" (.atom (.closure s.closures.size))
  closures := s.closures.push ⟨some "count", ⟨["n"], none⟩, [body], rootScope⟩

section

variable {s : Store} {env : Env} (h : s.InRoot env) (hcount : env.transformer "count" = none)
include h hcount

theorem countIn_isCount (body : Value) : IsCount (countIn s env body) where
  param := rfl
  usual := h.usual.define (by decide +kernel) _
  knows := ⟨env.value_define_self _ _, hcount⟩

/-- `count` is defined and called: where its body proceeds, the call finishes. -/
theorem exists_least_rounds {body v : Value} {nesting depth n : Nat}
    (hbody : (countIn s env body).Proceeds nesting (depth + 3) (.int n) v) (id id' id'' : ObjectId) :
    ∃ least, ∀ rounds ≥ least, ∃ s₁ s₂,
      (nested rounds nesting (depth + 4)).eval (defineCount id id' body) rootScope s = .ok .void s₁ ∧
      (nested rounds nesting (depth + 4)).eval (.call id'' "count" [.int n]) rootScope s₁ = .ok v s₂ := by
  let s₁ := s.withProcedure rootScope ⟨some "count", ⟨["n"], none⟩, [body], rootScope⟩ "count"
  have hparams : Params.parse "define" (.assemble id' [.sym "n"] none) = .ok ⟨["n"], none⟩ := rfl
  have hdefine : Gives nesting (depth + 4) (defineCount id id' body) rootScope s .void s₁ :=
    (Steps.defineProcedure h.sees h.usual hparams (List.cons_ne_nil body [])).gives
  have hroot : s₁.InRoot (countIn s env body).home := h.withProcedure (by decide +kernel) _
  have hs : (countIn s env body).IsIn s₁ := ⟨rfl, Array.getElem?_push_size, hroot.sees⟩
  obtain ⟨least, hleast⟩ := (hbody.call hs hroot.sees (countIn_isCount h hcount body).knows
    (.constant rfl) id'').eval
  refine ⟨least + 1, fun rounds hrounds => ?_⟩
  obtain ⟨s₂, hcall⟩ := hleast rounds (Nat.le_of_succ_le hrounds)
  exact ⟨s₁, s₂, hdefine rounds (Nat.lt_of_lt_of_le (Nat.succ_pos least) hrounds), hcall⟩

end

/-- A named binding form that counts up to a limit. -/
abbrev countingLoop (n : Nat) (id id₁ id₂ id₃ id₄ : ObjectId) (ids : ObjectId × ObjectId) : Value :=
  .call id "let" [.sym "loop", .oneBinding ids "i" (.int 0), countingUp n id₁ id₂ id₃ id₄]

theorem countingLoop_finishes {s : Store} {env : Env} (h : s.InRoot env)
    (hloop : env.transformer "loop" = none) (nesting depth n : Nat) (id id₁ id₂ id₃ id₄ : ObjectId)
    (ids : ObjectId × ObjectId) :
    Finishes nesting (depth + 3) (countingLoop n id id₁ id₂ id₃ id₄ ids) rootScope s (.int n) := by
  let body := countingUp n id₁ id₂ id₃ id₄
  let s₁ := s.withLoop rootScope "loop" ⟨["i"], none⟩ body
  let p : UnaryProcedure :=
    { id := s.closures.size, name := "loop", param := "i", body := body, scope := s.scopes.size
      home := env.bind [("loop", .atom (.closure s.closures.size))]
      closures := s₁.closures }
  have hs : p.IsIn s₁ := ⟨rfl, Array.getElem?_push_size, h.sees.push _⟩
  have hproceeds : p.Proceeds nesting (depth + 3) (.int 0) (.int n) := by
    have hall : p.Proceeds nesting (depth + 3) (.int (n - (n : Nat))) (.int n) :=
      countingUp_proceeds rfl (h.usual.bind_one (by decide +kernel) _) ⟨env.value_bind_self _ _, hloop⟩ rfl n
    rwa [Int.sub_self] at hall
  exact (Steps.bindNamed h.sees h.usual "loop" "i" body (.constant rfl) ids).finishes_with
    (hproceeds.enter hs)

end Lisplet.Countdown

namespace Lisplet.Session

open Countdown

/-- Four nested evaluations are enough for every number of calls in tail position: of a procedure that counts
down by any of the shapes, of a loop that counts up, and of a procedure that counts down through `when`. -/
theorem tail_calls_fit_four_levels {depth : Nat} (hdepth : 4 ≤ depth) (n : Nat) (input : Text)
    (files : FileTree) (directory : Path) (loadRoots : List Path) :
    let fresh := initialStore input files directory loadRoots
    let ev : Nat → Evaluator := fun rounds => Bounds.evaluator ⟨depth, rounds, nestingLimit⟩
    (∀ body, IsCountdown .whole body → ∀ id id' id'' : ObjectId,
      ∃ least, ∀ rounds ≥ least, ∃ s₁ s₂,
        (ev rounds).eval (defineCount id id' body) rootScope fresh = .ok .void s₁ ∧
        (ev rounds).eval (.call id'' "count" [.int n]) rootScope s₁ = .ok (.sym "done") s₂) ∧
    (∀ (id id₁ id₂ id₃ id₄ : ObjectId) (ids : ObjectId × ObjectId),
      ∃ least, ∀ rounds ≥ least, ∃ s₁,
        (ev rounds).eval (countingLoop n id id₁ id₂ id₃ id₄ ids) rootScope fresh = .ok (.int n) s₁) ∧
    (∀ id id' id'' id₁ id₂ id₃ id₄ : ObjectId, ∃ least, ∀ rounds ≥ least, ∃ s₁ s₂ s₃,
      start (ev rounds) (.standard none) fresh = .ok () s₁ ∧
      (ev rounds).eval (defineCount id id' (countingWhen id₁ id₂ id₃ id₄)) rootScope s₁ = .ok .void s₂ ∧
      (ev rounds).eval (.call id'' "count" [.int n]) rootScope s₂ = .ok .void s₃) := by
  intro fresh ev
  obtain ⟨depth, rfl⟩ := Nat.exists_eq_add_of_le' hdepth
  have hfresh : fresh.InRoot Env.initial :=
    ⟨initialStore_sees input files directory loadRoots, Env.initial_isUsual⟩
  refine ⟨fun body hbody id id' id'' => ?_, fun id id₁ id₂ id₃ id₄ ids => ?_,
    fun id id' id'' id₁ id₂ id₃ id₄ => ?_⟩
  · have hp := countIn_isCount hfresh rfl body
    exact exists_least_rounds hfresh rfl (hbody.proceeds hp nestingLimit depth n) id id' id''
  · exact (countingLoop_finishes hfresh rfl nestingLimit depth n id id₁ id₂ id₃ id₄ ids).eval
  -- `when` is a transformer of the prelude, so this run begins with the start of a session.
  · obtain ⟨s₁, env, hstart, hroot, hagrees, c, proc, htransformer, hc, hproc⟩ :=
      start_prelude hfresh (show 50 ≤ nestingLimit by decide) (depth + 2)
    have hcount : env.transformer "count" = none := (hagrees "count" (by decide)).2
    have hp : IsCountWhen (countIn s₁ env (countingWhen id₁ id₂ id₃ id₄)) id₁ id₂ id₃ id₄ :=
      { countIn_isCount hroot hcount _ with
        scope := rfl
        body := rfl
        hasWhen := ⟨c, proc, htransformer, getElem?_push_of_some hc _, hproc⟩ }
    obtain ⟨least, hleast⟩ := exists_least_rounds hroot hcount (hp.proceeds depth n) id id' id''
    refine ⟨least + 1, fun rounds hrounds => ?_⟩
    obtain ⟨s₂, s₃, hdefine, hcall⟩ := hleast rounds (Nat.le_of_succ_le hrounds)
    exact ⟨s₁, s₂, s₃, hstart rounds (Nat.lt_of_lt_of_le (Nat.succ_pos least) hrounds), hdefine, hcall⟩

/-- A countdown from 50000 by `(let ((m (- n 1))) (cond ((< m 0) 'done) (m => count)))`. -/
theorem tail_calls_fit_four_levels_let :
    let receiver : Value := .call 2 "cond" [.list 3 (Counter.below.test 4) [done 5] none,
      .list 6 (Counter.below.next 0) [.sym "=>", .sym "count"] none]
    let body : Value := .call 7 "let" (.oneBinding (8, 9) "m" (Counter.whole.next 10) :: ([] ++ [receiver]))
    4 ≤ 4 ∧ IsCountdown .whole body ∧ ∃ rounds s₁ s₂,
      (Bounds.evaluator ⟨4, rounds, nestingLimit⟩).eval (defineCount 11 12 body) rootScope emptyStore =
        .ok .void s₁ ∧
      (Bounds.evaluator ⟨4, rounds, nestingLimit⟩).eval (.call 13 "count" [.int (50000 : Nat)]) rootScope
        s₁ = .ok (.sym "done") s₂ := by
  intro receiver body
  have hreceiver : IsCountdown .below receiver := .receiver .below 2 3 4 5 6 0
  have hbody : IsCountdown .whole body := .tail hreceiver (.bind 7 10 (8, 9) fun _ h => nomatch h)
  obtain ⟨least, hleast⟩ := (tail_calls_fit_four_levels (Nat.le_refl 4) 50000 [] ⟨[], [], ⟨[], []⟩, []⟩
    ⟨[], []⟩ []).1 body hbody 11 12 13
  obtain ⟨s₁, s₂, hdefine, hcall⟩ := hleast least (Nat.le_refl least)
  exact ⟨Nat.le_refl 4, hbody, least, s₁, s₂, hdefine, hcall⟩

end Lisplet.Session
