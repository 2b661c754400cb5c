import Lisplet.Proofs.FormShapes
import Lisplet.Proofs.Reading
import Lisplet.Session

/-!
# The order of depth

An action is below another one if both have the same outcome wherever the first does not end with a signal of
some kind, such as that calls or data are nested too deeply. Nothing recovers from a signal, so every action that
is made of nested evaluations grows in this order with the evaluator that it is given; and an evaluator is above
one that allows fewer nested evaluations, or less nesting of the data that are read, filled in and printed.
-/

namespace Lisplet

/-- A signal that reports calls or data nested too deeply, inside or outside of a guarded call. -/
def Signal.IsTooDeep (e : Signal) : Prop :=
  e = .failure (.fault .nestedTooDeeply) ∨ e = .failure .tooDeep

/-- A kind of signals that the guard of a call does not hide. -/
def Signal.IsLasting (lost : Signal → Prop) : Prop :=
  lost (.failure (.fault .nestedTooDeeply)) → lost (.failure .tooDeep)

theorem Signal.isTooDeep_isLasting : IsLasting IsTooDeep := fun _ => .inr rfl

namespace Action

variable {α β : Type} {lost : Signal → Prop}

/-- Whether an outcome is a signal of some kind. -/
def EndsIn (lost : Signal → Prop) : EStateM.Result Signal Store α → Prop
  | .ok _ _ => False
  | .error e _ => lost e

/-- The first action ends in a signal of some kind or does what the second one does. -/
def Below (act : Action α) (lost : Signal → Prop) (act' : Action α) : Prop :=
  ∀ s, EndsIn lost (act s) ∨ act' s = act s

namespace Below

theorem refl (act : Action α) : act.Below lost act := fun _ => Or.inr rfl

/-- An action that always ends in a signal is below every action, if the signal is lost. -/
theorem throw {e : Signal} (h : lost e) (act : Action α) : (MonadExcept.throw e : Action α).Below lost act :=
  fun _ => Or.inl h

/-- An action that always ends too deep is below every action, if that is lost. -/
theorem fault (h : lost (.failure (.fault .nestedTooDeeply))) (act : Action α) :
    (Action.fault .nestedTooDeeply).Below lost act := fun _ => Or.inl h

theorem trans {act act' act'' : Action α} (h : act.Below lost act') (h' : act'.Below lost act'') :
    act.Below lost act'' := by
  intro s
  rcases h s with hlost | heq
  · exact .inl hlost
  · rcases h' s with hlost | heq'
    · exact .inl (heq ▸ hlost)
    · exact .inr (heq'.trans heq)

/-- A value of the lower action is one of the upper action. -/
theorem ok {act act' : Action α} (h : act.Below lost act') {s s' : Store} {a : α} (hact : act s = .ok a s') :
    act' s = .ok a s' := by
  rcases h s with hdeep | heq
  · rw [hact] at hdeep
    exact hdeep.elim
  · rw [heq, hact]

theorem bind {act act' : Action α} {next next' : α → Action β} (h : act.Below lost act')
    (hnext : ∀ a, (next a).Below lost (next' a)) : (act >>= next).Below lost (act' >>= next') := by
  intro s
  cases hact : act s with
  | ok a s' =>
    rw [bind_of_ok hact, bind_of_ok (h.ok hact)]
    exact hnext a s'
  | error e s' =>
    rw [bind_of_error hact]
    rcases h s with hdeep | heq
    · rw [hact] at hdeep
      exact Or.inl hdeep
    · exact Or.inr (bind_of_error (heq.trans hact))

/-- What follows the same action. -/
theorem bind_right {act : Action α} {next next' : α → Action β}
    (hnext : ∀ a, (next a).Below lost (next' a)) : (act >>= next).Below lost (act >>= next') :=
  bind (refl act) hnext

/-- What is followed by the same action. -/
theorem bind_left {act act' : Action α} {next : α → Action β} (h : act.Below lost act') :
    (act >>= next).Below lost (act' >>= next) :=
  bind h fun a => refl (next a)

theorem mapM {γ : Type} {f f' : γ → Action α} (h : ∀ c, (f c).Below lost (f' c)) (cs : List γ) :
    (cs.mapM f).Below lost (cs.mapM f') := by
  induction cs with
  | nil => exact refl _
  | cons c cs ih =>
    rw [List.mapM_cons, List.mapM_cons]
    exact bind (h c) fun _ => bind_left ih

/-- The guard of a call turns one end that is too deep into another one. -/
theorem limited (hlost : Signal.IsLasting lost) {act act' : Action α} (h : act.Below lost act') :
    (Action.limited act).Below lost (Action.limited act') := by
  intro s
  rcases h s with hdeep | heq
  · left
    rw [Action.limited]
    split
    next hact =>
      rw [hact] at hdeep
      exact hlost hdeep
    next => exact hdeep
  · right
    rw [Action.limited, Action.limited, heq]

theorem ensuring {act act' : Action α} (h : act.Below lost act') (restore : Store → Store) :
    (Action.ensuring act restore).Below lost (Action.ensuring act' restore) := by
  intro s
  cases hact : act s with
  | ok a s' =>
    right
    rw [Action.ensuring, Action.ensuring, h.ok hact, hact]
  | error e s' =>
    rcases h s with hdeep | heq
    · left
      rw [hact] at hdeep
      rw [Action.ensuring, hact]
      exact hdeep
    · right
      rw [Action.ensuring, Action.ensuring, heq]

end Below

/-- The guard of a call lets through every signal but one, which it turns into another. -/
theorem limited_eq_error_iff {act : Action α} {s s' : Store} {e : Signal} (he : ¬e.IsTooDeep) :
    limited act s = .error e s' ↔ act s = .error e s' := by
  rw [limited]
  split
  next s1 hact =>
    rw [hact]
    constructor
    · rintro ⟨⟩
      exact absurd (Or.inr rfl) he
    · rintro ⟨⟩
      exact absurd (Or.inl rfl) he
  next => exact Iff.rfl

/-- A guarded call never ends with the fault itself. -/
theorem limited_ne_fault (act : Action α) (s s' : Store) :
    limited act s ≠ .error (.failure (.fault .nestedTooDeeply)) s' := by
  intro h
  rw [limited] at h
  split at h
  next => exact nomatch h
  next hne => exact hne _ h

end Action

/-! ### Reading with a larger bound -/

namespace Reader

/-- With a larger bound a token is taken in as before, or it was nested too deeply. -/
theorem step_mono {limit limit' : Nat} (h : limit ≤ limit') (r : Reader) (token : Token) :
    r.step limit token = .error .nestedTooDeeply ∨ r.step limit' token = r.step limit token := by
  have hopen : ∀ frame, r.open? limit frame = .error .nestedTooDeeply ∨
      r.open? limit' frame = r.open? limit frame := by
    intro frame
    by_cases hlt : r.depth + frame.weight < limit
    · right
      rw [open?, open?, if_pos hlt, if_pos (hlt.trans_le h)]
    · left
      rw [open?, if_neg hlt]
  have hquote : r.quote? limit token.lexeme = .error .nestedTooDeeply ∨
      r.quote? limit' token.lexeme = r.quote? limit token.lexeme := by
    unfold quote?
    split
    · exact hopen _
    · exact Or.inr rfl
  unfold step
  split
  · exact Or.inr rfl
  split
  · exact Or.inr rfl
  split
  · exact hopen _
  · exact hquote
  · exact hquote
  · exact Or.inr rfl

/-- With a larger bound tokens are read as before, or they were nested too deeply and the forms before
that stay the first ones. -/
theorem run_mono {limit limit' : Nat} (h : limit ≤ limit') (scanFailure : Option ScanError)
    (ts : List Token) (r : Reader) :
    run limit' scanFailure ts r = run limit scanFailure ts r ∨
      ((run limit scanFailure ts r).failure = some .nestedTooDeeply ∧
        (run limit scanFailure ts r).forms <+: (run limit' scanFailure ts r).forms) := by
  induction ts generalizing r with
  | nil => exact Or.inl rfl
  | cons token ts ih =>
    rcases step_mono h r token with hdeep | heq
    · right
      rw [run_cons_error hdeep]
      exact ⟨rfl, forms_prefix_run limit' scanFailure (token :: ts) r⟩
    · cases hstep : r.step limit token with
      | ok next =>
        rw [run_cons_ok hstep, run_cons_ok (heq.trans hstep)]
        exact ih next
      | error e =>
        left
        rw [run_cons_error hstep, run_cons_error (heq.trans hstep)]

end Reader

/-- With a larger bound a source is read as before, or it was nested too deeply and the forms before that
stay the first ones. -/
theorem readAll_mono {limit limit' : Nat} (h : limit ≤ limit') (source : Text) :
    readAll limit' source = readAll limit source ∨
      ((readAll limit source).failure = some .nestedTooDeeply ∧
        (readAll limit source).forms <+: (readAll limit' source).forms) :=
  Reader.run_mono h _ _ _

/-! ### Printing with more room -/

namespace Value

mutual

/-- With more room a value is kept from being printed by the same thing, or it was nested too deeply. -/
theorem obstacle?_mono {room room' : Nat} (h : room ≤ room') : ∀ v : Value,
    v.obstacle? room = some .nestedTooDeeply ∨ v.obstacle? room' = v.obstacle? room
  | .atom _ | .nil => .inr rfl
  | .list _ head rest last => by
    rw [obstacle?, obstacle?]
    generalize (if hasShorthand head rest last then shorthandDepth else listDepth) = depth
    by_cases hroom : room < depth
    · exact .inl (if_pos hroom)
    · rw [if_neg hroom, if_neg fun hlt => hroom (h.trans_lt hlt)]
      rcases obstacle?_mono (Nat.sub_le_sub_right h depth) head with hdeep | heq
      · rw [hdeep]
        exact .inl rfl
      · rw [heq]
        split
        · exact .inr rfl
        · exact obstacleIn?_mono (Nat.sub_le_sub_right h depth) last rest

theorem obstacleIn?_mono {room room' : Nat} (h : room ≤ room') (last : Option Atom) : ∀ vs : List Value,
    obstacleIn? room last vs = some .nestedTooDeeply ∨ obstacleIn? room' last vs = obstacleIn? room last vs
  | [] => .inr rfl
  | v :: vs => by
    rw [obstacleIn?, obstacleIn?]
    rcases obstacle?_mono h v with hdeep | heq
    · rw [hdeep]
      exact .inl rfl
    · rw [heq]
      split
      · exact .inr rfl
      · exact obstacleIn?_mono h last vs

end

end Value

section

variable {lost : Signal → Prop} {nesting nesting' : Nat}
  (h : nesting = nesting' ∨ (lost (.failure (.fault .nestedTooDeeply)) ∧ nesting ≤ nesting'))

include h

theorem Action.print_below (mode : PrintMode) (v : Value) :
    (print mode v nesting).Below lost (print mode v nesting') := by
  rcases h with rfl | ⟨hlost, hle⟩
  · exact .refl _
  intro s
  rw [print, print, get_bind, get_bind, Store.print, Store.print]
  rcases Value.obstacle?_mono hle v with hdeep | heq
  · rw [hdeep]
    exact .inl hlost
  · rw [heq]
    exact .inr rfl

namespace Forms

theorem readRow_below {α : Type} (read? : Value → Option α) (wording : Text → ShapeError) (vs : List Value) :
    (readRow nesting read? wording vs).Below lost (readRow nesting' read? wording vs) := by
  induction vs with
  | nil => exact .refl _
  | cons v more ih =>
    rw [readRow, readRow]
    split
    · exact .bind_left ih
    · exact .bind_left (Action.print_below h .write v)

theorem bindings_below (form : Text) (spec : Value) :
    (bindings nesting form spec).Below lost (bindings nesting' form spec) := by
  unfold bindings
  split
  · rw [readBindings_eq, readBindings_eq]
    exact readRow_below h _ _ _
  · exact .refl _

theorem readLoop_below (spec finish : Value) (body : List Value) :
    (readLoop nesting spec finish body).Below lost (readLoop nesting' spec finish body) := by
  unfold readLoop
  split
  · rw [readVariables_eq, readVariables_eq]
    refine .bind (readRow_below h _ _ _) fun vars => ?_
    split
    · exact .refl _
    · exact .bind_left (Action.print_below h .write _)
  · exact .refl _

theorem checkClauses_below (clauses : List Value) :
    (checkClauses nesting clauses).Below lost (checkClauses nesting' clauses) := by
  induction clauses with
  | nil => exact .refl _
  | cons clause more ih =>
    rw [checkClauses.eq_def, checkClauses.eq_def]
    dsimp only
    split
    · split
      · exact .refl _
      · exact ih
    · exact .bind_left (Action.print_below h .write _)

end Forms

end

/-! ### Evaluators -/

/-- An evaluator does what another one does, wherever it does not end in a signal of some kind. It bounds rounds and
the nesting of data in the same way, or ends in such a signal when it bounds them more. -/
structure Evaluator.Below (ev : Evaluator) (lost : Signal → Prop) (ev' : Evaluator) : Prop where
  lasting : Signal.IsLasting lost
  eval : ∀ expr scope, (ev.eval expr scope).Below lost (ev'.eval expr scope)
  apply : ∀ proc args scope, (ev.apply proc args scope).Below lost (ev'.apply proc args scope)
  rounds : ev.rounds = ev'.rounds ∨ (lost .exhausted ∧ ev.rounds ≤ ev'.rounds)
  nesting : ev.nesting = ev'.nesting ∨ (lost (.failure (.fault .nestedTooDeeply)) ∧ ev.nesting ≤ ev'.nesting)

section

variable {lost : Signal → Prop} {ev ev' : Evaluator} (h : ev.Below lost ev')

include h

namespace Evaluator.Below

theorem finish (step : Step) : (ev.finish step).Below lost (ev'.finish step) := by
  cases step with
  | value v => exact .refl _
  | tailCall expr scope => exact h.eval expr scope

theorem sequence (scope : ScopeId) : ∀ exprs : List Value,
    (ev.sequence scope exprs).Below lost (ev'.sequence scope exprs)
  | [] => .refl _
  | [_] => .refl _
  | expr :: next :: more => .bind (h.eval expr scope) fun _ => sequence scope (next :: more)

theorem evalForms (scope : ScopeId) : ∀ exprs : List Value,
    (ev.evalForms scope exprs).Below lost (ev'.evalForms scope exprs)
  | [] => .refl _
  | [last] => h.eval last scope
  | expr :: next :: more => .bind (h.eval expr scope) fun _ => evalForms scope (next :: more)

theorem operands (scope : ScopeId) (exprs : List Value) :
    (ev.operands scope exprs).Below lost (ev'.operands scope exprs) :=
  .mapM (fun expr => h.eval expr scope) exprs

theorem applyClosure (id : ClosureId) (args : List Value) :
    (ev.applyClosure id args).Below lost (ev'.applyClosure id args) := by
  refine .bind_right fun s => ?_
  split
  · exact .refl _
  · exact .bind_right fun scope => h.sequence scope _

theorem call (proc : Value) (args : List Value) (scope : ScopeId) :
    (ev.call proc args scope).Below lost (ev'.call proc args scope) :=
  .limited h.lasting (.bind (h.apply proc args scope) h.finish)

end Evaluator.Below

/-! ### Templates -/

namespace Template

theorem spliced_below (scope : ScopeId) (element : Value) :
    (spliced ev scope element).Below lost (spliced ev' scope element) :=
  .bind_right fun e => .bind_left (h.eval e scope)

mutual

theorem fillElement_below (scope : ScopeId) : ∀ element : Value,
    (fillElement ev scope element).Below lost (fillElement ev' scope element)
  | .atom a => .refl _
  | .nil => .refl _
  | .list id head rest last => by
    rw [fillElement, fillElement]
    split
    · exact spliced_below h scope _
    split
    · exact .bind_right fun e => .bind_left (h.eval e scope)
    · exact .bind (fillElement_below scope head) fun first =>
        .bind_left (fillRest_below scope last.isNone rest)

theorem fillRest_below (scope : ScopeId) (isProper : Bool) : ∀ rest : List Value,
    (fillRest ev scope isProper rest).Below lost (fillRest ev' scope isProper rest)
  | [] => .refl _
  | element :: more => by
    rw [fillRest, fillRest]
    split
    · exact .bind_left (h.eval _ scope)
    · exact .bind (fillElement_below scope element) fun first =>
        .bind_left (fillRest_below scope isProper more)

end

theorem fill_below (scope : ScopeId) (template : Value) :
    (fill ev scope template).Below lost (fill ev' scope template) := by
  unfold fill
  split
  · exact .refl _
  · exact .bind_left (fillElement_below h scope template)

omit h in
mutual

/-- What is nested less deep than a bound is nested less deep than a larger one. -/
theorem nestsBelow_mono : ∀ {bound bound' : Nat} {element : Value}, bound ≤ bound' →
    nestsBelow bound element = true → nestsBelow bound' element = true
  | _, _, .atom _, _, _ => rfl
  | _, _, .nil, _, _ => rfl
  | 0, _, .list .., _, hbound => nomatch hbound
  | bound + 1, bound' + 1, .list id head rest last, hle, hbound => by
    have hle := Nat.le_of_succ_le_succ hle
    simp only [nestsBelow, Bool.or_eq_true, Bool.and_eq_true] at hbound ⊢
    exact hbound.imp_right (And.imp (nestsBelow_mono hle) (restNestsBelow_mono hle))

theorem restNestsBelow_mono : ∀ {bound bound' : Nat} {isProper : Bool} {rest : List Value},
    bound ≤ bound' → restNestsBelow bound isProper rest = true →
    restNestsBelow bound' isProper rest = true
  | _, _, _, [], _, _ => rfl
  | bound, bound', isProper, element :: more, hle, hbound => by
    simp only [restNestsBelow, Bool.or_eq_true, Bool.and_eq_true] at hbound ⊢
    exact hbound.imp_right (And.imp (nestsBelow_mono hle) (restNestsBelow_mono hle))

end

end Template

/-! ### Special forms -/

namespace Forms

theorem define_below (scope : ScopeId) (operands : List Value) :
    (define ev scope operands).Below lost (define ev' scope operands) := by
  unfold define
  split
  · split
    · exact .bind_left (h.eval _ scope)
    · exact .refl _
  all_goals exact .refl _

theorem assign_below (scope : ScopeId) (operands : List Value) :
    (assign ev scope operands).Below lost (assign ev' scope operands) := by
  unfold assign
  split
  · exact .bind_left (h.eval _ scope)
  all_goals exact .refl _

theorem conditional_below (scope : ScopeId) (operands : List Value) :
    (conditional ev scope operands).Below lost (conditional ev' scope operands) := by
  unfold conditional
  split
  · exact .bind_left (h.eval _ scope)
  · exact .refl _

theorem conjunction_below (scope : ScopeId) : ∀ operands : List Value,
    (conjunction ev scope operands).Below lost (conjunction ev' scope operands)
  | [] => .refl _
  | [_] => .refl _
  | expr :: next :: more => .bind (h.eval expr scope) fun v => by
    split
    · exact conjunction_below scope (next :: more)
    · exact .refl _

theorem disjunction_below (scope : ScopeId) : ∀ operands : List Value,
    (disjunction ev scope operands).Below lost (disjunction ev' scope operands)
  | [] => .refl _
  | [_] => .refl _
  | expr :: next :: more => .bind (h.eval expr scope) fun v => by
    split
    · exact .refl _
    · exact disjunction_below scope (next :: more)

theorem receive_below (scope : ScopeId) (receiver : List Value) (v : Value) :
    (receive ev scope receiver v).Below lost (receive ev' scope receiver v) := by
  unfold receive
  split
  · refine .bind (h.eval _ scope) fun proc => .bind_right fun proc => .bind_right fun s => ?_
    split
    · exact .refl _
    · split
      · exact h.apply _ _ scope
      · exact .refl _
    · exact .refl _
  · exact .refl _

theorem tryClauses_below (scope : ScopeId) : ∀ clauses : List Value,
    (tryClauses ev scope clauses).Below lost (tryClauses ev' scope clauses)
  | [] => .refl _
  | .atom _ :: _ => .refl _
  | .nil :: _ => .refl _
  | .list _ test body _ :: more => by
    rw [tryClauses, tryClauses]
    split
    · exact h.sequence scope body
    refine .bind (h.eval test scope) fun v => ?_
    split
    · split
      · exact .refl _
      · split
        · exact receive_below h scope _ v
        · exact h.sequence scope _
    · exact tryClauses_below scope more

theorem cond_below (scope : ScopeId) (clauses : List Value) :
    (cond ev scope clauses).Below lost (cond ev' scope clauses) :=
  .bind (checkClauses_below h.nesting clauses) fun _ => tryClauses_below h scope clauses

theorem bindNamed_below (scope : ScopeId) (name : Text) (spec : Value) (body : List Value) :
    (bindNamed ev scope name spec body).Below lost (bindNamed ev' scope name spec body) := by
  unfold bindNamed
  split
  · exact .refl _
  · exact .bind (bindings_below h.nesting _ _) fun pairs => .bind_right fun loopScope => .bind_right fun c =>
      .bind_right fun _ => .bind (h.operands scope _) fun args => h.applyClosure c args

theorem bind_below (scope : ScopeId) (operands : List Value) :
    (bind ev scope operands).Below lost (bind ev' scope operands) := by
  unfold bind
  split
  · exact bindNamed_below h scope _ _ _
  · exact .bind (bindings_below h.nesting _ _) fun pairs => .bind (h.operands scope _) fun values =>
      .bind_right fun inner => h.sequence inner _
  · exact .refl _

theorem nestBindings_below : ∀ (pairs : List Binding) (scope : ScopeId),
    (nestBindings ev pairs scope).Below lost (nestBindings ev' pairs scope)
  | [], _ => .refl _
  | (_, init) :: more, scope => .bind (h.eval init scope) fun _ => .bind_right fun inner =>
      nestBindings_below more inner

theorem bindSequentially_below (scope : ScopeId) (operands : List Value) :
    (bindSequentially ev scope operands).Below lost (bindSequentially ev' scope operands) := by
  unfold bindSequentially
  split
  · exact .bind (bindings_below h.nesting _ _) fun pairs => .bind_right fun outer =>
      .bind (nestBindings_below h pairs outer) fun inner => h.sequence inner _
  · exact .refl _

theorem fillBindings_below (scope : ScopeId) : ∀ pairs : List Binding,
    (fillBindings ev scope pairs).Below lost (fillBindings ev' scope pairs)
  | [] => .refl _
  | (_, init) :: more => .bind (h.eval init scope) fun _ => .bind_right fun _ =>
      fillBindings_below scope more

theorem bindRecursively_below (scope : ScopeId) (operands : List Value) :
    (bindRecursively ev scope operands).Below lost (bindRecursively ev' scope operands) := by
  unfold bindRecursively
  split
  · exact .bind (bindings_below h.nesting _ _) fun pairs => .bind_right fun inner =>
      .bind (fillBindings_below h inner pairs) fun _ => h.sequence inner _
  · exact .refl _

theorem nextValues_below (scope : ScopeId) : ∀ vars : List LoopVariable,
    (nextValues ev scope vars).Below lost (nextValues ev' scope vars)
  | [] => .refl _
  | x :: more => by
    rw [nextValues, nextValues]
    split
    · exact .bind_right fun v => .bind_left (nextValues_below scope more)
    · exact .bind (h.eval _ scope) fun v => .bind_left (nextValues_below scope more)

theorem rounds_below (loop : Loop) (outer : ScopeId) : ∀ (fuel fuel' : Nat),
    fuel = fuel' ∨ (lost .exhausted ∧ fuel ≤ fuel') → ∀ scope : ScopeId,
      (rounds ev loop outer fuel scope).Below lost (rounds ev' loop outer fuel' scope)
  | 0, _, .inl rfl, _ => .refl _
  | 0, _, .inr hmore, _ => .throw hmore.1 _
  | fuel + 1, 0, hfuel, _ => by omega
  | fuel + 1, fuel' + 1, hfuel, scope => .bind (h.eval loop.test scope) fun t => by
    have hfuel := hfuel.imp Nat.succ.inj (And.imp_right Nat.le_of_succ_le_succ)
    split
    · exact h.sequence scope loop.results
    · exact .bind (h.evalForms scope loop.body) fun _ => .bind (nextValues_below h scope loop.vars)
        fun values => .bind_right fun next => rounds_below loop outer fuel fuel' hfuel next

theorem loop_below (scope : ScopeId) (operands : List Value) :
    (loop ev scope operands).Below lost (loop ev' scope operands) := by
  unfold loop
  split
  · refine .bind (readLoop_below h.nesting _ _ _) fun loop => ?_
    exact .bind (h.operands scope _) fun values => .bind_right fun first =>
      rounds_below h loop scope ev.rounds ev'.rounds h.rounds first
  · exact .refl _

end Forms

theorem SpecialForm.run_below (form : SpecialForm) (operands : List Value) (scope : ScopeId) :
    (form.run ev operands scope).Below lost (form.run ev' operands scope) := by
  cases form with
  | define => exact Forms.define_below h scope operands
  | assign => exact Forms.assign_below h scope operands
  | conditional => exact Forms.conditional_below h scope operands
  | cond => exact Forms.cond_below h scope operands
  | conjunction => exact Forms.conjunction_below h scope operands
  | disjunction => exact Forms.disjunction_below h scope operands
  | bind => exact Forms.bind_below h scope operands
  | bindSequentially => exact Forms.bindSequentially_below h scope operands
  | bindRecursively => exact Forms.bindRecursively_below h scope operands
  | sequence => exact h.sequence scope operands
  | loop => exact Forms.loop_below h scope operands
  | quasiquote =>
    cases operands with
    | nil => exact .refl _
    | cons template more =>
      simp only [SpecialForm.run]
      have hfill := Template.fill_below h scope template
      -- The bound on nesting only matters where the template is checked against it.
      rcases h.nesting with heq | ⟨hlost, hle⟩
      · rw [← heq]
        split
        · exact .bind_left hfill
        · exact .refl _
      · by_cases hnests : Template.nestsBelow ev.nesting template = true
        · rw [if_pos hnests, if_pos (Template.nestsBelow_mono hle hnests)]
          exact .bind_left hfill
        · rw [if_neg hnests]
          exact .fault hlost _
  | lambda | quote | unquote | unquoteSplicing | defineTransformer => exact .refl _

/-! ### Primitive procedures -/

theorem ControlOp.run_below (op : ControlOp) (args : List Value) (scope : ScopeId) :
    (op.run ev args scope).Below lost (op.run ev' args scope) := by
  unfold ControlOp.run
  split
  · exact .refl _
  · refine .bind_right fun proc => ?_
    split
    · exact .refl _
    · exact .bind_right fun spread => h.apply proc _ scope
  all_goals exact .refl _

omit h in
theorem InputOp.nextDatum_below {nesting nesting' : Nat} (hlost : lost (.failure (.fault .nestedTooDeeply)))
    (hle : nesting ≤ nesting') (p : Port) :
    (InputOp.nextDatum nesting p).Below lost (InputOp.nextDatum nesting' p) := by
  refine .bind_right fun line => ?_
  split
  · exact .refl _
  next line =>
    rcases readAll_mono hle line with heq | ⟨hfailure, _⟩
    · rw [heq]
      exact .refl _
    · simp only [hfailure]
      exact .fault hlost _

theorem InputOp.run_below (op : InputOp) (args : List Value) :
    (op.run ev args).Below lost (op.run ev' args) := by
  cases op with
  | readDatum =>
    refine .bind_right fun p => ?_
    rcases h.nesting with heq | ⟨hlost, hle⟩
    · rw [heq]
      exact .refl _
    · exact InputOp.nextDatum_below hlost hle p
  | _ => exact .refl _

namespace PortOp

theorem callWithFile_below (scope : ScopeId) (direction : Direction) (who : Text) (name proc : Value) :
    (callWithFile ev scope direction who name proc).Below lost
      (callWithFile ev' scope direction who name proc) :=
  .bind_right fun proc => .bind_right fun port => .ensuring (h.call proc [port] scope) _

theorem withFile_below (scope : ScopeId) (direction : Direction) (who : Text) (name thunk : Value) :
    (withFile ev scope direction who name thunk).Below lost
      (withFile ev' scope direction who name thunk) := by
  refine .bind_right fun thunk => .bind_right fun port => .bind_right fun p => .bind_right fun s => ?_
  cases direction with
  | input => exact .bind_right fun _ => .ensuring (h.call thunk [] scope) _
  | output => exact .bind_right fun _ => .ensuring (h.call thunk [] scope) _

theorem run_below (op : PortOp) (args : List Value) (scope : ScopeId) :
    (op.run ev args scope).Below lost (op.run ev' args scope) := by
  unfold run
  split
  case h_10 | h_11 => exact callWithFile_below h scope _ _ _ _
  case h_12 | h_13 => exact withFile_below h scope _ _ _ _
  all_goals exact .refl _

end PortOp

/-- Both evaluators read a source in the same way, or the lower one reads less of it as it is nested too deeply. -/
theorem Evaluator.Below.readAll_cases (source : Text) :
    readAll ev'.nesting source = readAll ev.nesting source ∨
      lost (.failure (.fault .nestedTooDeeply)) ∧ (readAll ev.nesting source).failure = some .nestedTooDeeply ∧
        (readAll ev.nesting source).forms <+: (readAll ev'.nesting source).forms := by
  rcases h.nesting with heq | ⟨hlost, hle⟩
  · exact .inl (heq ▸ rfl)
  · exact (readAll_mono hle source).imp_right fun hdeep => ⟨hlost, hdeep⟩

theorem Evaluator.Below.evalData (scope : ScopeId) : ∀ ds : List Datum,
    (ev.evalData scope ds).Below lost (ev'.evalData scope ds)
  | [] => .refl _
  | [_] => .bind_right fun expr => h.eval expr scope
  | _ :: next :: more => .bind_right fun expr => .bind (h.eval expr scope) fun _ =>
      Evaluator.Below.evalData scope (next :: more)

theorem loadSource_below (name : Text) : (loadSource ev name).Below lost (loadSource ev' name) := by
  refine .bind_right fun s => ?_
  split
  · exact .refl _
  · exact .refl _
  split
  · exact .refl _
  next source _ =>
    rcases h.readAll_cases source with heq | ⟨hlost, hfailure, _⟩
    · rw [heq]
      dsimp only
      split
      all_goals first | exact .refl _ | exact .limited h.lasting (h.evalData rootScope _)
    · simp only [hfailure]
      exact .fault hlost _

theorem SystemOp.run_below (op : SystemOp) (args : List Value) :
    (op.run ev args).Below lost (op.run ev' args) := by
  unfold SystemOp.run
  split
  · exact .bind_right fun t => loadSource_below h t
  all_goals exact .refl _

theorem OutputOp.emit_below (who : Text) (mode : PrintMode) (v : Value) (port : List Value) :
    (OutputOp.emit ev.nesting who mode v port).Below lost (OutputOp.emit ev'.nesting who mode v port) :=
  .bind_right fun _ => .bind_left (Action.print_below h.nesting mode v)

theorem OutputOp.run_below (op : OutputOp) (args : List Value) :
    (op.run ev args).Below lost (op.run ev' args) := by
  unfold OutputOp.run
  split
  · exact OutputOp.emit_below h _ _ _ _
  · exact OutputOp.emit_below h _ _ _ _
  all_goals exact .refl _

theorem Primitive.run_below (p : Primitive) (args : List Value) (scope : ScopeId) :
    (p.run ev args scope).Below lost (p.run ev' args scope) := by
  cases p with
  | control op => exact ControlOp.run_below h op args scope
  | input op => exact .bind_left (InputOp.run_below h op args)
  | output op => exact .bind_left (OutputOp.run_below h op args)
  | ports op => exact .bind_left (PortOp.run_below h op args scope)
  | system op => exact .bind_left (SystemOp.run_below h op args)
  | _ => exact .refl _

/-! ### Steps and nested evaluations -/

namespace Evaluator.Below

theorem applyStep (proc : Value) (args : List Value) (scope : ScopeId) :
    (ev.applyStep proc args scope).Below lost (ev'.applyStep proc args scope) := by
  unfold Evaluator.applyStep
  split
  · split
    · exact Primitive.run_below h _ args scope
    · exact .refl _
  · split
    · exact SpecialForm.run_below h _ args scope
    · exact .refl _
  · exact h.applyClosure _ args
  · exact .refl _

theorem callStep (head : Value) (operands : List Value) (scope : ScopeId) :
    (ev.callStep head operands scope).Below lost (ev'.callStep head operands scope) := by
  refine .bind (h.eval head scope) fun proc => ?_
  split
  · exact h.applyStep _ operands scope
  · split
    · exact .bind (h.operands scope operands) fun args => h.applyStep _ args scope
    · exact .refl _

theorem step (expr : Value) (scope : ScopeId) : (ev.step expr scope).Below lost (ev'.step expr scope) := by
  unfold Evaluator.step
  split
  case h_5 head operands =>
    refine .bind_right fun found => ?_
    split
    · exact .bind_left (.limited h.lasting (.bind (h.applyClosure _ operands) h.finish))
    · exact h.callStep head operands scope
  all_goals exact .refl _

theorem trampoline : ∀ (fuel fuel' : Nat), fuel = fuel' ∨ (lost .exhausted ∧ fuel ≤ fuel') →
    ∀ (expr : Value) (scope : ScopeId),
      (ev.trampoline fuel expr scope).Below lost (ev'.trampoline fuel' expr scope)
  | 0, _, .inl rfl, _, _ => .refl _
  | 0, _, .inr hmore, _, _ => .throw hmore.1 _
  | fuel + 1, 0, hfuel, _, _ => by omega
  | fuel + 1, fuel' + 1, hfuel, expr, scope => .bind (h.step expr scope) fun next => by
    have hfuel := hfuel.imp Nat.succ.inj (And.imp_right Nat.le_of_succ_le_succ)
    cases next with
    | value v => exact .refl _
    | tailCall expr scope => exact trampoline fuel fuel' hfuel expr scope

end Evaluator.Below

end

/-- The bound on the rounds of an evaluator. -/
theorem Evaluator.rounds_nested (rounds nesting depth : Nat) : (nested rounds nesting depth).rounds = rounds := by
  cases depth <;> rfl

/-- The bound on the nesting of data. -/
theorem Evaluator.nesting_nested (rounds nesting depth : Nat) : (nested rounds nesting depth).nesting = nesting := by
  cases depth <;> rfl

/-- More nested evaluations and larger bounds give more room. -/
theorem Evaluator.nested_below_of_le {lost : Signal → Prop} (hlasting : Signal.IsLasting lost)
    (hdeep : lost (.failure (.fault .nestedTooDeeply))) {rounds rounds' : Nat}
    (hrounds : rounds = rounds' ∨ (lost .exhausted ∧ rounds ≤ rounds')) {nesting nesting' : Nat}
    (hnesting : nesting ≤ nesting') : ∀ {depth depth' : Nat}, depth ≤ depth' →
      (nested rounds nesting depth).Below lost (nested rounds' nesting' depth')
  | 0, depth', _ => by
    refine ⟨hlasting, fun expr scope => .fault hdeep _, fun proc args scope => .fault hdeep _, ?_,
      .inr ⟨hdeep, ?_⟩⟩
    · rwa [rounds_nested, rounds_nested]
    · rwa [nesting_nested, nesting_nested]
  | depth + 1, depth' + 1, h => by
    have hbelow := nested_below_of_le hlasting hdeep hrounds hnesting (Nat.le_of_succ_le_succ h)
    exact ⟨hlasting, hbelow.trampoline rounds rounds' hrounds, hbelow.applyStep, hrounds,
      .inr ⟨hdeep, hnesting⟩⟩

/-- More nested evaluations and a larger bound on the nesting of data give more room. -/
theorem Evaluator.nested_below (rounds : Nat) {nesting nesting' : Nat} (hnesting : nesting ≤ nesting')
    {depth depth' : Nat} (hdepth : depth ≤ depth') :
    (nested rounds nesting depth).Below Signal.IsTooDeep (nested rounds nesting' depth') :=
  nested_below_of_le Signal.isTooDeep_isLasting (.inl rfl) (.inl rfl) hnesting hdepth

/-- A signal that an evaluator of more room may do without. -/
def Signal.IsBound (e : Signal) : Prop := e = .exhausted ∨ e.IsTooDeep

theorem Signal.isBound_isLasting : IsLasting IsBound := fun _ => .inr (.inr rfl)

/-- More rounds and more nested evaluations give more room. -/
theorem Evaluator.nested_below_more {rounds rounds' : Nat} (hrounds : rounds ≤ rounds') (nesting : Nat)
    {depth depth' : Nat} (hdepth : depth ≤ depth') :
    (nested rounds nesting depth).Below Signal.IsBound (nested rounds' nesting depth') :=
  nested_below_of_le Signal.isBound_isLasting (.inr (.inl rfl)) (.inr ⟨.inl rfl, hrounds⟩) (Nat.le_refl nesting)
    hdepth

theorem Bounds.evaluator_below {b b' : Bounds} (hdepth : b.depth ≤ b'.depth)
    (hnesting : b.nesting ≤ b'.nesting) (hrounds : b.rounds = b'.rounds) :
    b.evaluator.Below Signal.IsTooDeep b'.evaluator := by
  rw [Bounds.evaluator, Bounds.evaluator, ← hrounds]
  exact Evaluator.nested_below b.rounds hnesting hdepth

/-! ### Sessions -/

/-- When some data end with a signal, more data behind them are not reached. -/
theorem Evaluator.evalData_append_of_error (ev : Evaluator) (scope : ScopeId) (more : List Datum)
    {e : Signal} {s' : Store} : ∀ {ds : List Datum} {s : Store},
    ev.evalData scope ds s = .error e s' → ev.evalData scope (ds ++ more) s = .error e s'
  | [], _, h => nomatch h
  | [d], s, h => by
    cases more with
    | nil => exact h
    | cons next more =>
      have hassoc : ev.evalData scope ([d] ++ next :: more) =
          ev.evalData scope [d] >>= fun _ => ev.evalData scope (next :: more) :=
        (bind_assoc ..).symm
      rw [hassoc, bind_of_error h]
  | d :: next :: ds, s, h => by
    have hassoc : ∀ rest, ev.evalData scope (d :: next :: rest) =
        ev.evalData scope [d] >>= fun _ => ev.evalData scope (next :: rest) :=
      fun rest => (bind_assoc ..).symm
    rw [List.cons_append, List.cons_append, hassoc]
    rw [hassoc] at h
    cases hfirst : ev.evalData scope [d] s with
    | ok v s1 =>
      rw [bind_of_ok hfirst] at h ⊢
      exact evalData_append_of_error ev scope more h
    | error e1 s1 =>
      rw [bind_of_error hfirst] at h ⊢
      exact h

namespace Session

/-- A source that an evaluator of less room evaluates without ending too deep has the same outcome, on the
same store, under an evaluator of more room. -/
theorem evaluate_eq_of_below {ev ev' : Evaluator} (h : ev.Below Signal.IsTooDeep ev') (source : Text) (s : Store)
    (hdeep : ∀ s', evaluate ev source s ≠ .error (.failure .tooDeep) s') :
    evaluate ev' source s = evaluate ev source s := by
  have hbelow := Action.Below.limited h.lasting (h.evalData rootScope (readAll ev.nesting source).forms) s
  unfold evaluate at hdeep ⊢
  cases heval : Action.limited (ev.evalData rootScope (readAll ev.nesting source).forms) s with
  | ok v s1 =>
    rw [heval] at hbelow
    -- All forms came to values: the source was read to its end, or it is nested too deeply.
    rcases h.readAll_cases source with heq | ⟨_, hfailure, _⟩
    · rw [heq, bind_of_ok heval, bind_of_ok (hbelow.resolve_left id)]
    · rw [hfailure, bind_of_ok heval] at hdeep
      exact absurd rfl (hdeep s1)
  | error e s1 =>
    -- The forms that are read with the larger bound begin with those that are evaluated here.
    have he : ¬e.IsTooDeep := by
      rintro (rfl | rfl)
      · exact Action.limited_ne_fault _ _ _ heval
      · exact hdeep s1 (bind_of_error heval)
    have hforms : (readAll ev.nesting source).forms <+: (readAll ev'.nesting source).forms := by
      rcases h.readAll_cases source with heq | ⟨_, _, hprefix⟩
      · exact heq ▸ List.prefix_rfl
      · exact hprefix
    obtain ⟨more, hmore⟩ := hforms
    rw [heval] at hbelow
    have heval' := (Action.limited_eq_error_iff he).mp (hbelow.resolve_left he)
    have hall := (Action.limited_eq_error_iff he).mpr
      (ev'.evalData_append_of_error rootScope more heval')
    rw [bind_of_error heval, ← hmore, bind_of_error hall]

/-- Raising the bounds on nesting is conservative: a step of a session that does not end too deep ends in
the same way, and leaves the same store, under all larger bounds. -/
theorem evaluate_deepen {b b' : Bounds} (hdepth : b.depth ≤ b'.depth)
    (hnesting : b.nesting ≤ b'.nesting) (hrounds : b.rounds = b'.rounds) (source : Text) (s : Store)
    (h : ∀ s', evaluate b.evaluator source s ≠ .error (.failure .tooDeep) s') :
    evaluate b'.evaluator source s = evaluate b.evaluator source s :=
  evaluate_eq_of_below (Bounds.evaluator_below hdepth hnesting hrounds) source s h

/-- The store of a session without input and without files. -/
def emptyStore : Store := initialStore [] ⟨[], [], ⟨[], []⟩, []⟩ ⟨[], []⟩ []

/-- Whether an outcome is the failure that a session reports for calls or data nested too deeply. -/
def reportsTooDeep : EStateM.Result Signal Store Value → Bool
  | .error (.failure .tooDeep) _ => true
  | _ => false

/-- A call in a call ends in the same way with room for three nested evaluations and for thousands. -/
theorem evaluate_deepen_car :
    let few : Bounds := ⟨3, 100, 10⟩
    let many : Bounds := ⟨8330, 100, nestingLimit⟩
    let source := text "(car (list 1 2))"
    (∀ s', evaluate few.evaluator source emptyStore ≠ .error (.failure .tooDeep) s') ∧
      evaluate many.evaluator source emptyStore = evaluate few.evaluator source emptyStore := by
  intro few many source
  have hends : reportsTooDeep (evaluate few.evaluator source emptyStore) = false := by decide +kernel
  have hdeep : ∀ s', evaluate few.evaluator source emptyStore ≠ .error (.failure .tooDeep) s' :=
    fun _ h => Bool.false_ne_true (hends.symm.trans (congrArg reportsTooDeep h))
  exact ⟨hdeep, evaluate_deepen (by decide) (by decide) (by rfl) source emptyStore hdeep⟩

end Session

end Lisplet
