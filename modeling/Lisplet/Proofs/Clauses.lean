import Lisplet.Proofs.FormShapes

/-!
# Clauses

All clauses of a `cond` are looked at before any test is evaluated: each has to be a proper list with a test,
and an else clause has to be the last. Then the tests are evaluated in order up to the first that is not
false, and the body of that clause alone says how the `cond` ends. The receiver behind an arrow is looked at
only there: a clause with none, or with several, is refused when it has been chosen, after its test.
-/

namespace Lisplet

namespace Forms

/-- A clause is a proper list with a test in front of its body. -/
def IsClause (v : Value) : Prop := ∃ id test body, v = .list id test body none

/-- The clauses of a `cond`: an else clause has none behind it. -/
structure AreClauses (clauses : List Value) : Prop where
  shape : ∀ clause ∈ clauses, IsClause clause
  elseLast : ∀ before id body after, clauses = before ++ .list id (.sym elseName) body none :: after → after = []

variable {ev : Evaluator} {scope : ScopeId} {s s' s'' : Store}

/-- How a clause ends whose test is not false. -/
def conclude (ev : Evaluator) (scope : ScopeId) (v : Value) : List Value → Action Step
  | [] => pure (.value v)
  | first :: rest =>
    if first.isSymbol arrowName then receive ev scope rest v else ev.sequence scope (first :: rest)

/-- The tests of some clauses come to false, one after another. -/
inductive Passes (ev : Evaluator) (scope : ScopeId) : List Value → Store → Store → Prop
  | nil (s : Store) : Passes ev scope [] s s
  | cons {id : ObjectId} {test : Value} {body more : List Value} {s s' s'' : Store}
      (helse : test ≠ .sym elseName) (htest : ev.eval test scope s = .ok (.bool false) s')
      (hmore : Passes ev scope more s' s'') : Passes ev scope (.list id test body none :: more) s s''

/-- How clauses end: none is chosen, a test fails, or a clause is chosen by its test or as the else clause. The
tests before it have come to false, and what is behind it has no part in the outcome. -/
inductive Ends (ev : Evaluator) (scope : ScopeId) (s : Store) :
    List Value → EStateM.Result Signal Store Step → Prop
  | unchosen {clauses : List Value} {s' : Store} (h : Passes ev scope clauses s s') :
      Ends ev scope s clauses (.ok (.value .void) s')
  | failed {before after body : List Value} {id : ObjectId} {test : Value} {e : Signal} {s' s'' : Store}
      (h : Passes ev scope before s s') (helse : test ≠ .sym elseName)
      (htest : ev.eval test scope s' = .error e s'') :
      Ends ev scope s (before ++ .list id test body none :: after) (.error e s'')
  | chosen {before after body : List Value} {id : ObjectId} {test v : Value} {s' s'' : Store}
      (h : Passes ev scope before s s') (helse : test ≠ .sym elseName)
      (htest : ev.eval test scope s' = .ok v s'') (hv : v ≠ .bool false) :
      Ends ev scope s (before ++ .list id test body none :: after) (conclude ev scope v body s'')
  | otherwise {before body : List Value} {id : ObjectId} {s' : Store} (h : Passes ev scope before s s') :
      Ends ev scope s (before ++ [.list id (.sym elseName) body none]) (ev.sequence scope body s')

/-! ### The check -/

theorem isSymbol_iff {v : Value} {name : Text} : v.isSymbol name = true ↔ v = .sym name := by
  constructor
  · intro h
    unfold Value.isSymbol at h
    split at h
    · rw [of_decide_eq_true h]
    · cases h
  · rintro rfl
    exact decide_eq_true rfl

theorem areClauses_cons_iff {id : ObjectId} {test : Value} {body more : List Value} :
    AreClauses (.list id test body none :: more) ↔ (test = .sym elseName → more = []) ∧ AreClauses more := by
  constructor
  · intro h
    refine ⟨fun helse => h.elseLast [] id body more (by rw [helse, List.nil_append]), ?_, ?_⟩
    · exact fun clause hmem => h.shape clause (List.mem_cons_of_mem _ hmem)
    · rintro before id' body' after rfl
      exact h.elseLast (.list id test body none :: before) id' body' after rfl
  · rintro ⟨helse, hmore⟩
    refine ⟨fun clause hmem => ?_, fun before id' body' after heq => ?_⟩
    · rcases List.mem_cons.mp hmem with rfl | hmem
      · exact ⟨id, test, body, rfl⟩
      · exact hmore.shape clause hmem
    · cases before with
      | nil =>
        cases heq
        exact helse rfl
      | cons clause before =>
        obtain ⟨-, heq⟩ := List.cons.inj heq
        exact hmore.elseLast before id' body' after heq

theorem checkClauses_list (nesting : Nat) (id : ObjectId) (test : Value) (body more : List Value) :
    checkClauses nesting (.list id test body none :: more) =
      if test.isSymbol elseName && !more.isEmpty then Action.shapeError .elseNotLast
      else checkClauses nesting more := rfl

/-- What is checked to be no clause is shown in the message. -/
theorem checkClauses_of_not_isClause {clause : Value} (h : ¬ IsClause clause) (nesting : Nat)
    (more : List Value) : checkClauses nesting (clause :: more) =
      Action.print .write clause nesting >>= fun shown => Action.shapeError (.clause shown) := by
  rw [checkClauses.eq_def]
  dsimp only
  split
  · next id test body => exact absurd ⟨id, test, body, rfl⟩ h
  · rfl

/-- Clauses of the right shape pass the check. -/
theorem AreClauses.check {clauses : List Value} (h : AreClauses clauses) (nesting : Nat) :
    checkClauses nesting clauses = pure () := by
  induction clauses with
  | nil => rfl
  | cons clause more ih =>
    obtain ⟨id, test, body, rfl⟩ := h.shape clause List.mem_cons_self
    obtain ⟨helse, hmore⟩ := areClauses_cons_iff.mp h
    have hlast : ¬ (test.isSymbol elseName && !more.isEmpty) = true := by
      rw [Bool.and_eq_true, isSymbol_iff]
      rintro ⟨rfl, hempty⟩
      rw [helse rfl] at hempty
      cases hempty
    rw [checkClauses_list, if_neg hlast, ih hmore]

/-- Other clauses are refused by the check, which leaves the store as it is. -/
theorem exists_check_eq_error {clauses : List Value} (h : ¬ AreClauses clauses) (nesting : Nat) (s : Store) :
    ∃ e, s.Rejects nesting (fun clause => clause ∈ clauses ∧ ¬ IsClause clause) e ∧
      checkClauses nesting clauses s = .error (.failure e) s := by
  induction clauses with
  | nil =>
    refine absurd ⟨fun _ hmem => absurd hmem List.not_mem_nil, fun before _ _ _ heq => ?_⟩ h
    exact absurd heq.symm (List.append_ne_nil_of_right_ne_nil before (List.cons_ne_nil _ _))
  | cons clause more ih =>
    by_cases hclause : IsClause clause
    · obtain ⟨id, test, body, rfl⟩ := hclause
      rw [checkClauses_list]
      split
      · exact ⟨_, .shape .elseNotLast, rfl⟩
      · next hlast =>
        -- The first clause is in order, so the fault is behind it.
        have hmore : ¬ AreClauses more := by
          intro hmore
          refine h (areClauses_cons_iff.mpr ⟨fun helse => ?_, hmore⟩)
          rw [isSymbol_iff.mpr helse, Bool.true_and, Bool.not_eq_true', Bool.not_eq_false] at hlast
          exact List.isEmpty_iff.mp hlast
        obtain ⟨e, he, hcheck⟩ := ih hmore
        exact ⟨e, he.imp fun v hv => ⟨List.mem_cons_of_mem _ hv.1, hv.2⟩, hcheck⟩
    · rw [checkClauses_of_not_isClause hclause]
      obtain ⟨e, he, hrun⟩ := Action.print_then_shapeError s nesting
        (fun v => v ∈ clause :: more ∧ ¬ IsClause v) ⟨List.mem_cons_self, hclause⟩ .clause
      exact ⟨e, he, hrun Unit⟩

/-! ### The tests -/

/-- One clause in front, whose test has come to false. -/
theorem Ends.cons {id : ObjectId} {test : Value} {body more : List Value}
    {outcome : EStateM.Result Signal Store Step} (helse : test ≠ .sym elseName)
    (htest : ev.eval test scope s = .ok (.bool false) s') (h : Ends ev scope s' more outcome) :
    Ends ev scope s (.list id test body none :: more) outcome := by
  cases h with
  | unchosen h => exact .unchosen (.cons helse htest h)
  | failed h helse' htest' => exact .failed (.cons helse htest h) helse' htest'
  | chosen h helse' htest' hv => exact .chosen (.cons helse htest h) helse' htest' hv
  | otherwise h => exact .otherwise (.cons helse htest h)

theorem tryClauses_list (ev : Evaluator) (scope : ScopeId) (id : ObjectId) (test : Value)
    (body more : List Value) : tryClauses ev scope (.list id test body none :: more) =
      if test.isSymbol elseName then ev.sequence scope body
      else ev.eval test scope >>= fun v =>
        if v.isTruthy then conclude ev scope v body else tryClauses ev scope more := by
  rw [tryClauses]
  refine if_congr Iff.rfl rfl (bind_congr fun v => if_congr Iff.rfl ?_ rfl)
  cases body <;> rfl

/-- Clauses of the right shape are tried in order. -/
theorem AreClauses.ends {clauses : List Value} (h : AreClauses clauses) (s : Store) :
    Ends ev scope s clauses (tryClauses ev scope clauses s) := by
  induction clauses generalizing s with
  | nil => exact .unchosen (.nil s)
  | cons clause more ih =>
    obtain ⟨id, test, body, rfl⟩ := h.shape clause List.mem_cons_self
    obtain ⟨helse, hmore⟩ := areClauses_cons_iff.mp h
    rw [tryClauses_list]
    split
    · next hsymbol =>
      obtain rfl := isSymbol_iff.mp hsymbol
      obtain rfl := helse rfl
      exact .otherwise (.nil s)
    · next hsymbol =>
      have hne : test ≠ .sym elseName := fun heq => hsymbol (isSymbol_iff.mpr heq)
      cases htest : ev.eval test scope s with
      | error e s' =>
        rw [bind_of_error htest]
        exact .failed (.nil s) hne htest
      | ok v s' =>
        rw [bind_of_ok htest]
        split
        · next hv =>
          refine .chosen (.nil s) hne htest fun heq => ?_
          rw [heq] at hv
          cases hv
        · next hv =>
          obtain rfl := (Value.isTruthy_eq_false_iff v).mp (Bool.eq_false_iff.mpr hv)
          exact Ends.cons hne htest (ih hmore s')

/-- A clause with an arrow and not one receiver behind it is refused once it has been chosen. -/
theorem conclude_arrow {receivers : List Value} (h : receivers.length ≠ 1) (v : Value) (s : Store) :
    conclude ev scope v (.sym arrowName :: receivers) s = .error (.failure (.shape .receiverCount)) s := by
  rw [conclude, if_pos (isSymbol_iff.mpr rfl), receive.eq_def]
  split
  · exact absurd rfl h
  · rfl

/-- Clauses of another shape are refused before any test, with the store as it is; clauses of the right shape
end with the first test that is not false. The count of receivers is no part of that shape. -/
theorem cond_looks_at_all_clauses_first (clauses : List Value) (s : Store) :
    (¬ AreClauses clauses → ∀ nesting, ∃ e,
      s.Rejects nesting (fun clause => clause ∈ clauses ∧ ¬ IsClause clause) e ∧
      ∀ ev scope, ev.nesting = nesting →
        Evaluator.applyStep ev (.atom (.form .cond)) clauses scope s = .error (.failure e) s) ∧
    (AreClauses clauses → ∀ ev scope,
      Ends ev scope s clauses (Evaluator.applyStep ev (.atom (.form .cond)) clauses scope s)) ∧
    ∀ ev scope v (receivers : List Value), receivers.length ≠ 1 →
      conclude ev scope v (.sym arrowName :: receivers) s = .error (.failure (.shape .receiverCount)) s := by
  have hrun (ev : Evaluator) (scope : ScopeId) : ev.applyStep (.atom (.form .cond)) clauses scope =
      checkClauses ev.nesting clauses >>= fun _ => tryClauses ev scope clauses :=
    Evaluator.applyStep_form ((Arity.accepts_atLeast 0 clauses.length).mpr (Int.natCast_nonneg _))
  refine ⟨fun h nesting => ?_, fun h ev scope => ?_, fun ev scope v receivers h => conclude_arrow h v s⟩
  · obtain ⟨e, he, hcheck⟩ := exists_check_eq_error h nesting s
    refine ⟨e, he, ?_⟩
    rintro ev scope rfl
    rw [hrun, bind_of_error hcheck]
  · rw [hrun, h.check]
    exact h.ends s

/-- A missing receiver is not found before the tests: a clause that is not chosen may lack one. -/
theorem not_receivers_are_counted_first : ¬ ∀ (ev : Evaluator) (scope : ScopeId) (clauses : List Value) (s : Store),
    (∃ id test receivers, .list id test (.sym arrowName :: receivers) none ∈ clauses ∧ receivers.length ≠ 1) →
    ∃ e, ev.applyStep (.atom (.form .cond)) clauses scope s = .error (.failure (.shape e)) s := by
  intro h
  let unchosen : Value := .list 0 (.bool false) [.sym arrowName] none
  let last : Value := .list 1 (.sym elseName) [.int 1] none
  let start : Store := .initial [] ⟨[], [], ⟨[], []⟩, []⟩ ⟨[], []⟩ []
  have hrun : (Evaluator.nested 1 0 1).applyStep (.atom (.form .cond)) [unchosen, last] rootScope start =
      .ok (.tailCall (.int 1) rootScope) start := rfl
  obtain ⟨e, he⟩ := h (.nested 1 0 1) rootScope [unchosen, last] start
    ⟨0, .bool false, [], List.mem_cons_self, Nat.zero_ne_one⟩
  rw [hrun] at he
  cases he

end Forms

end Lisplet
