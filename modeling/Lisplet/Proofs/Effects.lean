import Lisplet.Proofs.Outcomes
import Lisplet.Proofs.StoreChanges
import Lisplet.Session

/-!
# Effects of actions

An action evolves a store if it only makes changes that a store may undergo, however it ends. A change may need
something to exist, as a new scope needs its parent, so an action is described from one store on. Checks of
arguments leave the store alone.
-/

namespace Lisplet

namespace Action

variable {α β : Type}

/-- The store that an action leaves, however it ends. -/
def after (act : Action α) (s : Store) : Store :=
  match act s with
  | .ok _ s' => s'
  | .error _ s' => s'

theorem after_of_ok {act : Action α} {s s' : Store} {a : α} (h : act s = .ok a s') :
    act.after s = s' := by
  rw [after, h]

theorem after_of_error {act : Action α} {s s' : Store} {e : Signal} (h : act s = .error e s') :
    act.after s = s' := by
  rw [after, h]

/-- Mapping the value of an action leaves its effect as it is. -/
theorem after_map (f : α → β) (act : Action α) (s : Store) : (f <$> act : Action β).after s = act.after s := by
  cases hact : act s with
  | ok a s' => rw [after_of_ok hact, after_of_ok (map_of_ok f hact)]
  | error e s' => rw [after_of_error hact, after_of_error (map_of_error f hact)]

/-- What is restored after an action happens to the store that the action leaves. -/
theorem after_ensuring (act : Action α) (restore : Store → Store) (s : Store) :
    (ensuring act restore).after s = restore (act.after s) := by
  unfold after ensuring
  cases act s <;> rfl

theorem ensuring_of_ok {act : Action α} (restore : Store → Store) {s s' : Store} {a : α} (h : act s = .ok a s') :
    ensuring act restore s = .ok a (restore s') := by
  rw [ensuring, h]

theorem ensuring_of_error {act : Action α} (restore : Store → Store) {s s' : Store} {e : Signal}
    (h : act s = .error e s') : ensuring act restore s = .error e (restore s') := by
  rw [ensuring, h]

/-- A guarded call ends as the call does, or reports in its own way that it was nested too deeply. -/
theorem limited_cases (act : Action α) (s : Store) : limited act s = act s ∨
    ∃ s', act s = .error (.failure (.fault .nestedTooDeeply)) s' ∧
      limited act s = .error (.failure .tooDeep) s' := by
  rw [limited]
  split
  next s' hact => exact Or.inr ⟨s', hact, rfl⟩
  next => exact Or.inl rfl

/-- An action that goes on leaves the store that what follows leaves. -/
theorem after_bind_of_ok {act : Action α} {s s' : Store} {a : α} (h : act s = .ok a s') (next : α → Action β) :
    (act >>= next).after s = (next a).after s' := by
  rw [after, bind_of_ok h]
  rfl

/-- A guarded action leaves the store that the action leaves. -/
theorem after_limited (act : Action α) (s : Store) : (limited act).after s = act.after s := by
  rcases limited_cases act s with heq | ⟨s', hact, heq⟩
  · rw [after, heq]
    rfl
  · rw [after_of_error hact, after_of_error heq]

/-- From a well-formed store an action only makes changes, and its value fits the store that it leaves. -/
def Evolving (act : Action α) (s : Store) (post : α → Store → Prop) : Prop :=
  s.WellFormed → s.Evolves (act.after s) ∧ ∀ a s', act s = .ok a s' → post a s'

/-- An action leaves the store alone. -/
def Looks (act : Action α) : Prop := ∀ s, act.after s = s

/-! ### Looks -/

namespace Looks

theorem pure (a : α) : (Pure.pure a : Action α).Looks := fun _ => rfl

theorem throw (e : Signal) : (MonadExcept.throw e : Action α).Looks := fun _ => rfl

theorem get : (MonadState.get : Action Store).Looks := fun _ => rfl

theorem eq_of_ok {act : Action α} (h : act.Looks) {s s' : Store} {a : α} (hact : act s = .ok a s') :
    s' = s := (after_of_ok hact).symm.trans (h s)

theorem bind {act : Action α} {next : α → Action β} (h : act.Looks) (hnext : ∀ a, (next a).Looks) :
    (act >>= next).Looks := by
  intro s
  cases hact : act s with
  | ok a s' =>
    have hnext := hnext a s'
    rw [after] at hnext ⊢
    rw [bind_of_ok hact, hnext]
    exact h.eq_of_ok hact
  | error e s' =>
    rw [after, bind_of_error hact]
    exact (after_of_error hact).symm.trans (h s)

theorem mapM {act : β → Action α} (h : ∀ b, (act b).Looks) (bs : List β) : (bs.mapM act).Looks := by
  induction bs with
  | nil => exact pure []
  | cons b bs ih =>
    rw [List.mapM_cons]
    exact (h b).bind fun a => ih.bind fun as => pure (a :: as)

end Looks

/-! ### Changes from one store on -/

namespace Evolving

variable {act : Action α} {s : Store} {post : α → Store → Prop} {post' : β → Store → Prop}

theorem ok {a : α} {s' : Store} (h : act s = .ok a s') (hevolves : s.Evolves s') (hpost : post a s') :
    act.Evolving s post := by
  refine fun _ => ⟨?_, fun b s'' hb => ?_⟩
  · rw [after_of_ok h]
    exact hevolves
  · cases h.symm.trans hb
    exact hpost

theorem error {e : Signal} {s' : Store} (h : act s = .error e s') (hevolves : s.Evolves s') :
    act.Evolving s post := by
  refine fun _ => ⟨?_, fun b s'' hb => nomatch h.symm.trans hb⟩
  rw [after_of_error h]
  exact hevolves

theorem of_ok {a : α} (h : act s = .ok a s) (hpost : post a s) : act.Evolving s post := ok h (.refl s) hpost

theorem of_error {e : Signal} (h : act s = .error e s) : act.Evolving s post := error h (.refl s)

/-- A change that gives a value. -/
theorem modifyGet {change : Store → α × Store} (h : s.Evolves (change s).2)
    (hpost : post (change s).1 (change s).2) :
    (MonadStateOf.modifyGet change : Action α).Evolving s post := ok rfl h hpost

theorem bind {next : α → Action β} (h : act.Evolving s post)
    (hnext : ∀ a s', s.Evolves s' → post a s' → (next a).Evolving s' post') :
    (act >>= next).Evolving s post' := by
  intro hs
  obtain ⟨hevolves, hpost⟩ := h hs
  cases hact : act s with
  | ok a s' =>
    rw [after_of_ok hact] at hevolves
    obtain ⟨hevolves', hpost'⟩ := hnext a s' hevolves (hpost a s' hact) (hevolves.wellFormed hs)
    refine ⟨?_, fun b s'' hb => hpost' b s'' ((bind_of_ok hact).symm.trans hb)⟩
    rw [after, bind_of_ok hact]
    exact hevolves.trans hevolves'
  | error e s' =>
    refine ⟨?_, fun b s'' hb => nomatch (bind_of_error hact).symm.trans hb⟩
    rw [after_of_error hact] at hevolves
    rw [after_of_error (bind_of_error hact)]
    exact hevolves

theorem get_bind {next : Store → Action β} (h : (next s).Evolving s post') :
    ((get : Action Store) >>= next).Evolving s post' := h

theorem limited (h : act.Evolving s post) : (Action.limited act).Evolving s post := by
  intro hs
  obtain ⟨hevolves, hpost⟩ := h hs
  rcases limited_cases act s with heq | ⟨s', hact, heq⟩
  · rw [after, heq]
    exact ⟨hevolves, hpost⟩
  · rw [after_of_error hact] at hevolves
    rw [after_of_error heq]
    exact ⟨hevolves, fun a s'' ha => nomatch heq.symm.trans ha⟩

/-- An action between a change and what undoes it, however the action ends. -/
theorem within {enter leave : Store → Store} (hgood : s.WellFormed → (enter s).WellFormed)
    (h : act.Evolving (enter s) post) (hleave : ∀ s', (enter s).Evolves s' → s.Evolves (leave s'))
    (hpost : ∀ a s', post a s' → post a (leave s')) :
    (modify enter >>= fun _ => Action.ensuring act leave : Action α).Evolving s post := by
  intro hs
  obtain ⟨hevolves, hvalue⟩ := h (hgood hs)
  cases hact : act (enter s) with
  | ok a s' =>
    rw [after_of_ok hact] at hevolves
    have hrun : (modify enter >>= fun _ => Action.ensuring act leave : Action α) s = .ok a (leave s') :=
      ensuring_of_ok leave hact
    exact ok hrun (hleave s' hevolves) (hpost a s' (hvalue a s' hact)) hs
  | error e s' =>
    rw [after_of_error hact] at hevolves
    have hrun : (modify enter >>= fun _ => Action.ensuring act leave : Action α) s = .error e (leave s') :=
      ensuring_of_error leave hact
    exact error hrun (hleave s' hevolves) hs

end Evolving

attribute [grind ←] Looks.pure Looks.throw Looks.get Looks.bind Looks.mapM

/-! ### Operations on the store -/

section

variable (who : Option Text) (v : Value)

@[grind ←] theorem fail_looks (f : Failure) : (fail f : Action α).Looks := .throw _

@[grind ←] theorem fault_looks (f : Fault) : (fault f : Action α).Looks := .throw _

@[grind ←] theorem typeError_looks (e : TypeError) : (typeError e v : Action α).Looks := .throw _

@[grind ←] theorem evaluationError_looks (e : EvaluationError) : (evaluationError e : Action α).Looks :=
  .throw _

@[grind ←] theorem mismatch_looks (what : Expected) : (mismatch what who v : Action α).Looks := .throw _

@[grind ←] theorem orFault_looks (f : Fault) (a : Option α) : (orFault f a).Looks := by
  cases a <;> grind [orFault]

@[grind ←] theorem asSymbol_looks : (asSymbol who v).Looks := by
  unfold asSymbol
  split <;> grind

@[grind ←] theorem asList_looks : (asList who v).Looks := by
  grind [asList]

@[grind ←] theorem asItems_looks : (asItems who v).Looks := by
  grind [asItems]

@[grind ←] theorem asString_looks : (asString who v).Looks := by
  unfold asString
  split <;> grind

@[grind ←] theorem asChar_looks : (asChar who v).Looks := by
  unfold asChar
  split <;> grind

@[grind ←] theorem asInteger_looks : (asInteger who v).Looks := by
  unfold asInteger
  split <;> grind

@[grind ←] theorem asNumber_looks : (asNumber who v).Looks := by
  unfold asNumber
  split <;> grind

@[grind ←] theorem asPort_looks : (asPort who v).Looks := by
  unfold asPort
  split <;> grind

@[grind ←] theorem content_looks (buffer : BufferId) : (content buffer).Looks := by
  grind [content]

@[grind ←] theorem asText_looks : (asText who v).Looks := by
  grind [asText]

@[grind ←] theorem lookup_looks (scope : ScopeId) (name : Text) : (lookup scope name).Looks := by
  refine .bind .get fun s => ?_
  split <;> grind

@[grind ←] theorem transformer?_looks (scope : ScopeId) (name : Text) :
    (transformer? scope name).Looks := by
  grind [transformer?]

@[grind ←] theorem print_looks (mode : PrintMode) (room : Nat) : (print mode v room).Looks := by
  refine .bind .get fun s => ?_
  split <;> grind

end

/-! ### Changes of scopes and closures -/

section

variable {s : Store}

/-- A new scope needs a parent. -/
theorem newScope_evolving {parent : ScopeId} (h : parent < s.scopes.size)
    (bindings : Table Value) :
    (newScope parent bindings).Evolving s fun scope s' => scope < s'.scopes.size := by
  refine .modifyGet (.change (.scope parent bindings h)) ?_
  show s.scopes.size < (s.scopes.push _).size
  rw [Array.size_push]
  exact Nat.lt_succ_self _

/-- A new closure needs a scope. -/
theorem newClosure_evolving {c : Closure} (h : c.scope < s.scopes.size) :
    (newClosure c).Evolving s fun _ _ => True :=
  .modifyGet (.change (.closure c h)) trivial

theorem define_evolving (scope : ScopeId) (name : Text) (v : Value) :
    (define scope name v).Evolving s fun _ _ => True :=
  .modifyGet (.change (.binding scope name v)) trivial

theorem defineTransformer_evolving (scope : ScopeId) (name : Text) (c : ClosureId) :
    (defineTransformer scope name c).Evolving s fun _ _ => True :=
  .modifyGet (.change (.transformer scope name c)) trivial

theorem assign_evolving (scope : ScopeId) (name : Text) (v : Value) :
    (assign scope name v).Evolving s fun _ _ => True := by
  refine .get_bind ?_
  split
  · exact .of_error rfl
  · exact define_evolving _ name v

end

/-! ### Ports -/

@[grind ←] theorem currentInput_looks : currentInput.Looks := by
  grind [currentInput]

@[grind ←] theorem currentOutput_looks : currentOutput.Looks := by
  grind [currentOutput]

@[grind ←] theorem portOf_looks (id : PortId) : (portOf id).Looks := by
  grind [portOf]

@[grind ←] theorem chosenPort_looks (wanted : Direction) (who : Text) (args : List Value) :
    (chosenPort wanted who args).Looks := by
  cases args with
  | nil => cases wanted <;> grind [chosenPort]
  | cons v more => grind [chosenPort]

end Action

open Lisplet.Action

namespace Port

@[grind ←] theorem checkOpen_looks (p : Port) : p.checkOpen.Looks := by
  grind [checkOpen]

end Port

/-! ### Primitive procedures -/

namespace Primitive

@[grind ←] theorem number_looks (who : Text) (v : Value) : (number who v).Looks := by
  refine .bind (by grind) fun v => ?_
  split <;> grind

@[grind ←] theorem divisionArguments_looks (who : Text) (args : List Value) :
    (divisionArguments who args).Looks := by
  unfold divisionArguments
  split <;> grind

end Primitive

namespace ListOp

@[grind ←] theorem head_looks (who : Text) (v : Value) : (head who v).Looks := by
  refine .bind (by grind) fun l => ?_
  split <;> grind

@[grind ←] theorem allItems_looks (who : Text) (vs : List Value) : (allItems who vs).Looks := by
  induction vs with
  | nil => grind [allItems]
  | cons v vs ih => grind [allItems]

@[grind ←] theorem itemAt_looks (who : Text) (v : Value) (k : Int) : (itemAt who v k).Looks := by
  unfold itemAt
  split <;> grind

end ListOp

namespace StringOp

@[grind ←] theorem index_looks (who : Text) (limit : Int) (v : Value) : (index who limit v).Looks := by
  grind [index]

/-- An index argument is within its limit. -/
theorem index_le {who : Text} {limit : Int} {v : Value} {s s' : Store} {k : Nat}
    (h : index who limit v s = .ok k s') : (k : Int) ≤ limit := by
  unfold index asInteger at h
  split at h
  next n =>
    rw [pure_bind] at h
    split at h
    next hrange =>
      cases h
      omega
    next => exact nomatch h
  next => exact nomatch h

@[grind ←] theorem range_looks (who : Text) (size : Nat) (args : List Value) :
    (range who size args).Looks := by
  match args with
  | [] => grind [range]
  | [_] => grind [range]
  | _ :: _ :: _ => grind [range]

theorem length_splice {t : Text} {start : Nat} {piece : Text} (h : start + piece.length ≤ t.length) :
    (splice t start piece).length = t.length := by
  simp only [splice, List.length_append, List.length_take, List.length_drop]
  omega

end StringOp

namespace ConversionOp

@[grind ←] theorem radix_looks (who : Text) (args : List Value) : (radix who args).Looks := by
  cases args <;> grind [radix]

@[grind ←] theorem writeNumber_looks (r : Nat) (v : Value) : (writeNumber r v).Looks := by
  unfold writeNumber
  split
  · grind
  · split <;> grind

end ConversionOp

namespace InputOp

@[grind ←] theorem countAndPort_looks (who : Text) (args : List Value) :
    (countAndPort who args).Looks := by
  unfold countAndPort
  split <;> grind

end InputOp

end Lisplet
