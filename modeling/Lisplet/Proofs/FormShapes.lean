import Lisplet.Evaluation.Machine
import Lisplet.Proofs.Outcomes

/-!
# Shapes of forms

A form whose operands do not have its shape is refused with a message about that. Some messages show the part
that is wrong; a part that cannot be written ends the evaluation with what keeps it from being written. Rows of
bindings and of loop variables are read as a whole, or the first item that is none is refused.
-/

namespace Lisplet

namespace Evaluator

variable {ev : Evaluator} {f : SpecialForm} {operands : List Value} {scope : ScopeId}

/-- A form is run on operands whose number it admits. -/
theorem applyStep_form (h : f.arity.accepts operands.length = true) :
    ev.applyStep (.atom (.form f)) operands scope = f.run ev operands scope := if_pos h

/-- Other operands are refused for their number. -/
theorem applyStep_form_of_not (h : ¬ f.arity.accepts operands.length = true) :
    ev.applyStep (.atom (.form f)) operands scope = Action.fail (.arity f.arity f.name operands.length) :=
  if_neg h

end Evaluator

/-- What keeps a value from being written, as a fault. -/
def PrintFault.fault : PrintFault → Fault
  | .nestedTooDeeply => .nestedTooDeeply
  | .numeralTooLong => .numeralTooLong

/-- How an evaluation is refused for its shape: with the message for that, or with what keeps a bad part from
being written where the message has to show it. -/
inductive Store.Rejects (s : Store) (nesting : Nat) (bad : Value → Prop) : Failure → Prop
  | shape (e : ShapeError) : Rejects s nesting bad (.shape e)
  | unwritable {v : Value} {f : PrintFault} (hbad : bad v) (h : s.print .write v nesting = .error f) :
      Rejects s nesting bad (.fault f.fault)

theorem Store.Rejects.imp {s : Store} {nesting : Nat} {bad bad' : Value → Prop} (himp : ∀ v, bad v → bad' v)
    {e : Failure} (h : s.Rejects nesting bad e) : s.Rejects nesting bad' e := by
  cases h with
  | shape e => exact .shape e
  | unwritable hbad h => exact .unwritable (himp _ hbad) h

theorem Action.print_of_error {s : Store} {mode : PrintMode} {v : Value} {nesting : Nat} {f : PrintFault}
    (h : s.print mode v nesting = .error f) :
    Action.print mode v nesting s = .error (.failure (.fault f.fault)) s := by
  rw [Action.print, get_bind, h]
  cases f <;> rfl

/-- The message that shows a bad part is made in the store as it is. -/
theorem Action.print_then_shapeError (s : Store) (nesting : Nat) (bad : Value → Prop) {v : Value} (hbad : bad v)
    (wording : Text → ShapeError) :
    ∃ e, s.Rejects nesting bad e ∧ ∀ α : Type, (Action.print .write v nesting >>= fun shown =>
      Action.shapeError (wording shown) : Action α) s = .error (.failure e) s := by
  cases hprint : s.print .write v nesting with
  | ok shown =>
    have hshown : Action.print .write v nesting s = .ok shown s := by
      rw [Action.print, get_bind, hprint]
      rfl
    exact ⟨.shape (wording shown), .shape _, fun α => bind_of_ok hshown⟩
  | error f =>
    exact ⟨.fault f.fault, .unwritable hbad hprint, fun α => bind_of_error (Action.print_of_error hprint)⟩

namespace Forms

/-! ### Rows of items -/

/-- A binding is a list of a name and the expression of its value. -/
def IsBinding (v : Value) : Prop := ∃ id name init, v = .list id (.sym name) [init] none

/-- A loop variable has a first value and may have an expression of its next one. -/
def IsLoopVariable (v : Value) : Prop :=
  ∃ id name init, v = .list id (.sym name) [init] none ∨ ∃ step, v = .list id (.sym name) [init, step] none

/-- The end clause of a loop: a test and results. -/
def IsLoopEnd (v : Value) : Prop := ∃ id test results, v = .list id test results none

/-- A row of some sort of items, as a proper list. -/
def IsRowOf (item : Value → Prop) (v : Value) : Prop := v.isProper = true ∧ ∀ w ∈ v.items, item w

/-- Reads a row of items; the first that is none is shown in the message. -/
def readRow {α : Type} (nesting : Nat) (read? : Value → Option α) (wording : Text → ShapeError) :
    List Value → Action (List α)
  | [] => pure []
  | v :: more =>
    match read? v with
    | some a => do
      let rest ← readRow nesting read? wording more
      pure (a :: rest)
    | none => do
      let shown ← Action.print .write v nesting
      Action.shapeError (wording shown)

/-- The binding that an item is. -/
def binding? : Value → Option Binding
  | .list _ (.atom (.sym name)) [init] none => some (name, init)
  | _ => none

/-- The loop variable that an item is. -/
def loopVariable? : Value → Option LoopVariable
  | .list _ (.atom (.sym name)) [init] none => some ⟨name, init, none⟩
  | .list _ (.atom (.sym name)) [init, step] none => some ⟨name, init, some step⟩
  | _ => none

theorem readBindings_eq (nesting : Nat) (form : Text) (vs : List Value) :
    readBindings nesting form vs = readRow nesting binding? (.binding form) vs := by
  induction vs with
  | nil => rfl
  | cons v more ih =>
    rw [readBindings.eq_def, readRow]
    unfold binding?
    split
    · next heq => cases heq
    · next heq =>
      cases heq
      rw [ih]
      rfl
    · next hother heq =>
      cases heq
      split
      · next hread =>
        split at hread
        · next id name init => exact absurd rfl (hother id name init)
        · cases hread
      · rfl

theorem readVariables_eq (nesting : Nat) (vs : List Value) :
    readVariables nesting vs = readRow nesting loopVariable? .loopSpec vs := by
  induction vs with
  | nil => rfl
  | cons v more ih =>
    rw [readVariables.eq_def, readRow]
    unfold loopVariable?
    split
    · next heq => cases heq
    · next heq =>
      cases heq
      rw [ih]
      rfl
    · next heq =>
      cases heq
      rw [ih]
      rfl
    · next hother hother' heq =>
      cases heq
      split
      · next hread =>
        split at hread
        · next id name init => exact absurd rfl (hother id name init)
        · next id name init step => exact absurd rfl (hother' id name init step)
        · cases hread
      · rfl

section

variable {α : Type} {read? : Value → Option α} {item : Value → Prop} {vs : List Value} {s : Store}

/-- A row of items is read. -/
theorem readRow_of_forall (hread : ∀ v, item v ↔ (read? v).isSome = true) (h : ∀ v ∈ vs, item v)
    (nesting : Nat) (wording : Text → ShapeError) : ∃ rows, readRow nesting read? wording vs = pure rows ∧
      ∀ a ∈ rows, ∃ v ∈ vs, read? v = some a := by
  induction vs with
  | nil => exact ⟨[], rfl, fun a hmem => absurd hmem List.not_mem_nil⟩
  | cons v more ih =>
    obtain ⟨rest, hrest, hmem⟩ := ih fun w hw => h w (List.mem_cons_of_mem v hw)
    obtain ⟨a, ha⟩ := Option.isSome_iff_exists.mp ((hread v).mp (h v List.mem_cons_self))
    refine ⟨a :: rest, ?_, fun b hb => ?_⟩
    · rw [readRow, ha, hrest]
      rfl
    · rcases List.mem_cons.mp hb with rfl | hb
      · exact ⟨v, List.mem_cons_self, ha⟩
      · obtain ⟨w, hw, hreadw⟩ := hmem b hb
        exact ⟨w, List.mem_cons_of_mem v hw, hreadw⟩

/-- A row that has something else among its items is refused. -/
theorem readRow_of_not_forall (hread : ∀ v, item v ↔ (read? v).isSome = true) (h : ¬ ∀ v ∈ vs, item v)
    (nesting : Nat) (wording : Text → ShapeError) (s : Store) :
    ∃ e, s.Rejects nesting (fun v => v ∈ vs ∧ ¬ item v) e ∧ readRow nesting read? wording vs s = .error (.failure e) s := by
  induction vs with
  | nil => exact absurd (fun v hmem => absurd hmem List.not_mem_nil) h
  | cons v more ih =>
    cases ha : read? v with
    | none =>
      have hitem : ¬ item v := fun hv => by
        rw [hread, ha] at hv
        cases hv
      obtain ⟨e, he, hrun⟩ := Action.print_then_shapeError s nesting
        (fun w => w ∈ v :: more ∧ ¬ item w) ⟨List.mem_cons_self, hitem⟩ wording
      refine ⟨e, he, ?_⟩
      rw [readRow, ha]
      exact hrun _
    | some a =>
      have hmore : ¬ ∀ w ∈ more, item w := by
        refine fun hmore => h fun w hw => ?_
        rcases List.mem_cons.mp hw with rfl | hw
        · rw [hread, ha]
          rfl
        · exact hmore w hw
      obtain ⟨e, he, hrun⟩ := ih hmore
      refine ⟨e, he.imp fun w hw => ⟨List.mem_cons_of_mem v hw.1, hw.2⟩, ?_⟩
      rw [readRow, ha]
      exact bind_of_error hrun

end

theorem isBinding_iff (v : Value) : IsBinding v ↔ (binding? v).isSome = true := by
  constructor
  · rintro ⟨id, name, init, rfl⟩
    rfl
  · intro h
    unfold binding? at h
    split at h
    · next id name init => exact ⟨id, name, init, rfl⟩
    · cases h

theorem isLoopVariable_iff (v : Value) : IsLoopVariable v ↔ (loopVariable? v).isSome = true := by
  constructor
  · rintro ⟨id, name, init, rfl | ⟨step, rfl⟩⟩
    · rfl
    · rfl
  · intro h
    unfold loopVariable? at h
    split at h
    · next id name init => exact ⟨id, name, init, .inl rfl⟩
    · next id name init step => exact ⟨id, name, init, .inr ⟨step, rfl⟩⟩
    · cases h

/-- Bindings are read, with inits that are items of theirs. -/
theorem bindings_of_isRowOf {spec : Value} (h : IsRowOf IsBinding spec) (nesting : Nat) (form : Text) :
    ∃ pairs : List Binding, bindings nesting form spec = pure pairs ∧
      ∀ pair ∈ pairs, ∃ v ∈ spec.items, pair.2 ∈ v.items := by
  obtain ⟨hproper, hitems⟩ := h
  obtain ⟨pairs, hread, hmem⟩ := readRow_of_forall isBinding_iff hitems nesting (.binding form)
  refine ⟨pairs, ?_, fun pair hpair => ?_⟩
  · rw [bindings, if_pos hproper, readBindings_eq, hread]
  · obtain ⟨v, hv, hb⟩ := hmem pair hpair
    refine ⟨v, hv, ?_⟩
    unfold binding? at hb
    split at hb
    · cases hb
      exact List.mem_cons_of_mem _ List.mem_cons_self
    · cases hb

/-- Anything else than a row of bindings is refused. -/
theorem bindings_of_not_isRowOf {spec : Value} (h : ¬ IsRowOf IsBinding spec) (nesting : Nat) (form : Text)
    (s : Store) : ∃ e, s.Rejects nesting (fun v => v ∈ spec.items ∧ ¬ IsBinding v) e ∧
      bindings nesting form spec s = .error (.failure e) s := by
  rw [bindings]
  split
  · next hproper =>
    rw [readBindings_eq]
    exact readRow_of_not_forall isBinding_iff (fun hitems => h ⟨hproper, hitems⟩) nesting _ s
  · exact ⟨_, .shape _, rfl⟩

/-- A loop is read; its expressions are operands, items of them or items of its variables. -/
theorem readLoop_of_shape {spec finish : Value} (hspec : IsRowOf IsLoopVariable spec) (hfinish : IsLoopEnd finish)
    (nesting : Nat) (body : List Value) : ∃ vars test results,
      readLoop nesting spec finish body = pure ⟨vars, test, results, body⟩ ∧ finish.items = test :: results ∧
      ∀ x ∈ vars, ∃ v ∈ spec.items, x.init ∈ v.items ∧ ∀ step ∈ x.step, step ∈ v.items := by
  obtain ⟨hproper, hitems⟩ := hspec
  obtain ⟨id, test, results, rfl⟩ := hfinish
  obtain ⟨vars, hread, hmem⟩ := readRow_of_forall isLoopVariable_iff hitems nesting .loopSpec
  refine ⟨vars, test, results, ?_, rfl, fun x hx => ?_⟩
  · rw [readLoop, if_pos hproper, readVariables_eq, hread]
    rfl
  · obtain ⟨v, hv, hvar⟩ := hmem x hx
    refine ⟨v, hv, ?_⟩
    unfold loopVariable? at hvar
    split at hvar
    · cases hvar
      exact ⟨List.mem_cons_of_mem _ List.mem_cons_self, fun step hstep => by cases hstep⟩
    · cases hvar
      refine ⟨List.mem_cons_of_mem _ List.mem_cons_self, fun step hstep => ?_⟩
      cases hstep
      exact List.mem_cons_of_mem _ (List.mem_cons_of_mem _ List.mem_cons_self)
    · cases hvar

theorem readLoop_of_not_shape {spec finish : Value} (h : ¬ (IsRowOf IsLoopVariable spec ∧ IsLoopEnd finish))
    (nesting : Nat) (body : List Value) (s : Store) :
    ∃ e, s.Rejects nesting (fun v => (v ∈ spec.items ∧ ¬ IsLoopVariable v) ∨ (v = finish ∧ ¬ IsLoopEnd v)) e ∧
      readLoop nesting spec finish body s = .error (.failure e) s := by
  rw [readLoop]
  split
  · next hproper =>
    rw [readVariables_eq]
    by_cases hitems : ∀ v ∈ spec.items, IsLoopVariable v
    · obtain ⟨vars, hread, -⟩ := readRow_of_forall isLoopVariable_iff hitems nesting .loopSpec
      have hfinish : ¬ IsLoopEnd finish := fun hfinish => h ⟨⟨hproper, hitems⟩, hfinish⟩
      obtain ⟨e, he, hrun⟩ := Action.print_then_shapeError s nesting
        (fun v => (v ∈ spec.items ∧ ¬ IsLoopVariable v) ∨ (v = finish ∧ ¬ IsLoopEnd v))
        (.inr ⟨rfl, hfinish⟩) .loopEnd
      refine ⟨e, he, ?_⟩
      rw [hread, pure_bind]
      split
      · next id test results => exact absurd ⟨id, test, results, rfl⟩ hfinish
      · exact hrun _
    · obtain ⟨e, he, hrun⟩ := readRow_of_not_forall isLoopVariable_iff hitems nesting .loopSpec s
      exact ⟨e, he.imp fun v hv => .inl hv, bind_of_error hrun⟩
  · exact ⟨_, .shape _, rfl⟩

end Forms

end Lisplet
