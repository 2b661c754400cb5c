import Lisplet.Proofs.Concatenation
import Lisplet.Proofs.Outcomes
import Lisplet.Session

/-!
# Reading and evaluating in turns

A session reads a source and evaluates the forms before its first fault. The same comes of doing both in
turns: tokens are taken off the source one by one, and as soon as they complete a form it is evaluated, while
the rest is still to be looked at. So a fault is met when the forms before it have been evaluated, and never
if one of them ends with a signal.
-/

namespace Lisplet

open Token

/-! ### One token at a time -/

namespace Token

/-- What stands first in a text. -/
inductive First where
  /-- A token, with what follows it. -/
  | token (token : Token) (more : Text)
  /-- No token, but the end of the source. -/
  | finished
  /-- Something that cannot be taken apart. -/
  | failed (e : ScanError)

/-- Takes the first token off the rest of a source of `size` code points. -/
def first (size : Nat) (t : Text) : First :=
  match dropGap? t.length t with
  | none => .failed .unterminatedComment
  | some [] => .finished
  | some (c :: rest) =>
    match splitFirst? c rest with
    | none => .failed (refusal (size - (rest.length + 1)) c)
    | some (token, more) => .token token more

/-- A token behind a gap is taken off. -/
theorem first_of_stands {g more : Text} {token : Token} (hg : Gap g) (h : Stands token more) (size : Nat) :
    first size (g ++ (token.lexeme ++ more)) = .token token more := by
  obtain ⟨c, rest, he, hns, hfirst⟩ := h.splitFirst?_eq
  rw [he, first, dropGap?_append_of_not_startsGap hg hns (Nat.le_refl _)]
  simp only [hfirst]

/-- Behind the last token no token is found. -/
theorem first_of_ends {rest : Text} {failure : Option ScanError} (h : Ends rest failure) (size : Nat) :
    first size rest = failure.elim .finished .failed := by
  cases h with
  | finished hg =>
    rw [first, dropGap?_of_finalGap hg (Nat.le_refl _)]
    rfl
  | comment hg ho =>
    rw [first, dropGap?_of_opensBlock hg ho (Nat.le_refl _)]
    rfl
  | string hg ho =>
    have hns := ho.not_startsGap
    obtain ⟨body, rfl, _⟩ := id ho
    rw [first, dropGap?_append_of_not_startsGap hg hns (Nat.le_refl _)]
    simp only [(splitFirst?_of_opensString ho).2]
    rfl

end Token

/-! ### Both in turns -/

/-- The failure that a session reports when the reading of a source stops. -/
def ReadFailure.reported : ReadFailure → Failure
  | .malformed e => .parse e
  | .fault f => .fault (.reading f)
  | .numeralTooLong => .fault .numeralTooLong
  | .nestedTooDeeply => .tooDeep

namespace Session

/-- The value of a form of a source, in the root scope. -/
def evaluateForm (ev : Evaluator) (d : Datum) : Action Value :=
  Action.limited do
    let expr ← Action.instantiate d
    ev.eval expr rootScope

/-- Ends a source whose last form has a value as the reading ended. -/
def endSource (failure : Option ReadFailure) (v : Value) : Action Value :=
  match failure with
  | none => pure v
  | some e => Action.fail e.reported

/-- Evaluates the rest of a source of `size` code points behind some open frames, one token at a time, where
the last form had the value `v`. A form is evaluated as soon as it is complete. The fuel bounds the number of
tokens. -/
def evaluateRest (ev : Evaluator) (size : Nat) : Nat → Text → List Frame → Value → Action Value
  | 0, _, _, v => pure v
  | fuel + 1, t, frames, v =>
    match Token.first size t with
    | .failed e => Action.fail (.parse (.scan e))
    | .finished => endSource ((Reader.missing? ⟨[], frames⟩).map .malformed) v
    | .token token more =>
      match Reader.step ev.nesting ⟨[], frames⟩ token with
      | .error e => Action.fail e.reported
      | .ok ⟨[], frames⟩ => evaluateRest ev size fuel more frames v
      | .ok ⟨d :: _, _⟩ => do
        let w ← evaluateForm ev d
        evaluateRest ev size fuel more [] w

/-- Evaluates a source in which a form is read when those before it have been evaluated. -/
def evaluateInTurns (ev : Evaluator) (source : Text) : Action Value :=
  evaluateRest ev source.length (source.length + 1) source [] .void

/-- Evaluates some forms in order, where the last form before them had the value `v`. -/
def evaluateForms (ev : Evaluator) : Value → List Datum → Action Value
  | v, [] => pure v
  | _, d :: ds => do
    let w ← evaluateForm ev d
    evaluateForms ev w ds

end Session

namespace Action

variable {α β : Type} {act : Action α} {s s' : Store}

theorem limited_of_ok {a : α} (h : act s = .ok a s') : limited act s = .ok a s' := by
  rw [limited, h]

theorem limited_of_error {e : Signal} (h : act s = .error e s')
    (he : e ≠ .failure (.fault .nestedTooDeeply)) : limited act s = .error e s' := by
  rw [limited, h]
  split
  next heq =>
    cases heq
    exact absurd rfl he
  next => rfl

theorem limited_of_fault (h : act s = .error (.failure (.fault .nestedTooDeeply)) s') :
    limited act s = .error (.failure .tooDeep) s' := by
  rw [limited, h]

/-- A sequence is guarded by guarding its parts. -/
theorem limited_bind (act : Action α) (next : α → Action β) :
    limited (act >>= next) = limited act >>= fun a => limited (next a) := by
  funext s
  cases hact : act s with
  | ok a s' => rw [bind_of_ok (limited_of_ok hact), limited, limited, bind_of_ok hact]
  | error e s' =>
    by_cases he : e = .failure (.fault .nestedTooDeeply)
    · subst he
      rw [bind_of_error (limited_of_fault hact), limited_of_fault (bind_of_error hact)]
    · rw [bind_of_error (limited_of_error hact he), limited_of_error (bind_of_error hact) he]

end Action

namespace Session

/-- The forms of a source are evaluated one by one. -/
theorem limited_evalData (ev : Evaluator) (v : Value) : ∀ (d : Datum) (ds : List Datum),
    Action.limited (ev.evalData rootScope (d :: ds)) = evaluateForms ev v (d :: ds)
  | d, [] => (bind_pure (evaluateForm ev d)).symm
  | d, next :: ds => by
    have hassoc : ev.evalData rootScope (d :: next :: ds) =
        (do
          let expr ← Action.instantiate d
          ev.eval expr rootScope) >>= fun _ => ev.evalData rootScope (next :: ds) := (bind_assoc ..).symm
    rw [hassoc, Action.limited_bind]
    exact congrArg (evaluateForm ev d >>= ·) (funext fun w => limited_evalData ev w next ds)

/-- A session evaluates the forms before the first fault of a source, and then reports it. -/
theorem evaluate_eq (ev : Evaluator) (source : Text) : evaluate ev source =
    evaluateForms ev .void (readAll ev.nesting source).forms >>=
      endSource (readAll ev.nesting source).failure := by
  have hforms : Action.limited (ev.evalData rootScope (readAll ev.nesting source).forms) =
      evaluateForms ev .void (readAll ev.nesting source).forms := by
    cases (readAll ev.nesting source).forms with
    | nil => rfl
    | cons d ds => exact limited_evalData ev .void d ds
  rw [evaluate, hforms]
  refine congrArg (_ >>= ·) (funext fun v => ?_)
  cases (readAll ev.nesting source).failure with
  | none => rfl
  | some e => cases e <;> rfl

/-- From any open frames on, reading and evaluating in turns does what reading first does. -/
theorem evaluateRest_eq (ev : Evaluator) (size : Nat) {tokens : List Token} {t rest : Text}
    {failure : Option ScanError} (h : Spells tokens t rest) (hend : Ends rest failure) {fuel : Nat}
    (hfuel : t.length < fuel) (frames : List Frame) (v : Value) :
    evaluateRest ev size fuel t frames v =
      evaluateForms ev v (Reader.run ev.nesting failure tokens ⟨[], frames⟩).forms >>=
        endSource (Reader.run ev.nesting failure tokens ⟨[], frames⟩).failure := by
  -- Over the layout of the source, with the fuel, the open frames and the last value as they come.
  induction h generalizing fuel frames v with
  | nil =>
    obtain ⟨fuel, rfl⟩ := Nat.exists_eq_add_one.mpr (Nat.lt_of_le_of_lt (Nat.zero_le _) hfuel)
    rw [evaluateRest, first_of_ends hend]
    cases failure with
    | none => rfl
    | some e => rfl
  | @cons g more rest token tokens hg hstands _ ih =>
    obtain ⟨fuel, rfl⟩ := Nat.exists_eq_add_one.mpr (Nat.lt_of_le_of_lt (Nat.zero_le _) hfuel)
    have hmore : more.length < fuel := by
      have hpos := List.length_pos_iff.mpr hstands.lexeme_ne_nil
      simp only [List.length_append] at hfuel
      omega
    rw [evaluateRest, first_of_stands hg hstands]
    dsimp only
    cases hstep : Reader.step ev.nesting ⟨[], frames⟩ token with
    | error e =>
      rw [Reader.run_cons_error hstep]
      rfl
    | ok next =>
      rw [Reader.run_cons_ok hstep]
      rcases Reader.step_forms_cases hstep with hforms | ⟨d, rfl⟩
      · obtain ⟨_, frames'⟩ := next
        cases hforms
        exact ih hend hmore frames' v
      · -- The form is complete, so the reader goes on as at the start, behind that form.
        have hbehind : (⟨[d], []⟩ : Reader) = Reader.start.behind [d] := rfl
        dsimp only
        rw [hbehind, Reader.run_behind, List.reverse_singleton, List.singleton_append, evaluateForms,
          bind_assoc]
        exact congrArg (evaluateForm ev d >>= ·) (funext fun w => ih hend hmore [] w)

/-- How some forms end that are evaluated in order from a store on, where the last form before them had the
value `v`: with the value of the last one, or with the first signal. -/
inductive EndsInOrder (ev : Evaluator) :
    Value → List Datum → Store → EStateM.Result Signal Store Value → Prop
  | finished {v : Value} {s : Store} : EndsInOrder ev v [] s (.ok v s)
  | value {v w : Value} {d : Datum} {ds : List Datum} {s s' : Store}
      {r : EStateM.Result Signal Store Value} :
      evaluateForm ev d s = .ok w s' → EndsInOrder ev w ds s' r → EndsInOrder ev v (d :: ds) s r
  | signal {v : Value} {d : Datum} {ds : List Datum} {e : Signal} {s s' : Store} :
      evaluateForm ev d s = .error e s' → EndsInOrder ev v (d :: ds) s (.error e s')

theorem endsInOrder_evaluateForms (ev : Evaluator) (v : Value) (ds : List Datum) (s : Store) :
    EndsInOrder ev v ds s (evaluateForms ev v ds s) := by
  induction ds generalizing v s with
  | nil => exact .finished
  | cons d ds ih =>
    rw [evaluateForms]
    cases hform : evaluateForm ev d s with
    | ok w s' =>
      rw [bind_of_ok hform]
      exact .value hform (ih w s')
    | error e s' =>
      rw [bind_of_error hform]
      exact .signal hform

/-- The outcome of a source from that of the forms before its first fault. -/
def sourceOutcome (failure : Option ReadFailure) :
    EStateM.Result Signal Store Value → EStateM.Result Signal Store Value
  | .error e s => .error e s
  | .ok v s =>
    match failure with
    | none => .ok v s
    | some e => .error (.failure e.reported) s

/-- The forms before the first fault are evaluated in order up to the first signal, and the fault is reported
only behind a value. -/
theorem evaluate_outcome (ev : Evaluator) (source : Text) (s : Store) :
    ∃ r, EndsInOrder ev .void (readAll ev.nesting source).forms s r ∧
      evaluate ev source s = sourceOutcome (readAll ev.nesting source).failure r := by
  refine ⟨_, endsInOrder_evaluateForms ev .void _ s, ?_⟩
  rw [evaluate_eq]
  cases hforms : evaluateForms ev .void (readAll ev.nesting source).forms s with
  | ok v s' =>
    rw [bind_of_ok hforms]
    cases (readAll ev.nesting source).failure <;> rfl
  | error e s' => rw [bind_of_error hforms, sourceOutcome]

/-- Reading a source as a whole and evaluating its forms does the same as reading and evaluating in turns. -/
theorem evaluate_eq_inTurns (ev : Evaluator) (source : Text) :
    evaluate ev source = evaluateInTurns ev source := by
  obtain ⟨rest, hspells, hend⟩ := exists_spells_scan source
  rw [evaluate_eq, evaluateInTurns, evaluateRest_eq ev _ hspells hend (Nat.lt_succ_self _)]
  rfl

end Session

end Lisplet
