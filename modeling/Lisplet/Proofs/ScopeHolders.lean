import Lisplet.Proofs.ScopeLaws
import Lisplet.Proofs.Survival

/-!
# Who binds names in a scope

Code holds a scope when it runs in the scope or inside it. A scope only changes by a definition or an assignment
that is run by code that holds it: by the rule that refuses these, the scope stays what it is, and an evaluation
that is not refused is the same as without the rule. To leave one scope as it is is a policy: names may be bound
in every other scope, and from a scope on that does not hold it.
-/

namespace Lisplet

open Lisplet.Action

/-! ### Scopes that stay where they are -/

/-- Every scope keeps its parent. -/
def Store.KeepsParents (s s' : Store) : Prop := ∀ (id : ScopeId) (scope : Scope), s.scopes[id]? = some scope →
  ∃ scope', s'.scopes[id]? = some scope' ∧ scope'.parent = scope.parent

namespace Store.KeepsParents

variable {s s' : Store} {id : ScopeId}

theorem of_scopes_eq (h : s'.scopes = s.scopes) : s.KeepsParents s' := fun _ scope hscope => ⟨scope, h ▸ hscope, rfl⟩

theorem of_evolves (h : s.Evolves s') : s.KeepsParents s' := by
  intro id scope hscope
  obtain ⟨scope', hscope', hsurvives⟩ := h.survives.scopes id scope hscope
  exact ⟨scope', hscope', hsurvives.parent⟩

theorem exists_of_exists (h : s.KeepsParents s') (hid : id < s.scopes.size) : id < s'.scopes.size := by
  obtain ⟨scope, hscope⟩ := Scopes.exists_scope hid
  obtain ⟨scope', hscope', -⟩ := h id scope hscope
  exact Scopes.lt_size hscope'

/-- Scopes keep their way to the root. -/
theorem chainFrom_eq (h : s.KeepsParents s') (htree : s.scopes.IsTree) (fuel : Nat) (hid : id < s.scopes.size) :
    s'.scopes.chainFrom fuel id = s.scopes.chainFrom fuel id := by
  induction fuel generalizing id with
  | zero => rfl
  | succ fuel ih =>
    obtain ⟨scope, hscope⟩ := Scopes.exists_scope hid
    obtain ⟨scope', hscope', hparent⟩ := h id scope hscope
    rw [Scopes.chainFrom_succ hscope, Scopes.chainFrom_succ hscope', hparent]
    cases hp : scope.parent with
    | none => rfl
    | some parent => exact congrArg (id :: ·) (ih (Nat.lt_trans (htree.lt_of_parent hscope hp) hid))

end Store.KeepsParents

theorem Scopes.mem_chain_self {scopes : Scopes} {id : ScopeId} (hid : id < scopes.size) : id ∈ scopes.chain id := by
  obtain ⟨scope, hscope⟩ := exists_scope hid
  rw [chain, chainFrom_succ hscope]
  exact List.mem_cons_self

/-! ### Leaving one scope as it is -/

namespace Action

variable {α β : Type}

/-- From a well-formed store on an action only makes changes, and it leaves one scope as it is. -/
def Spares (act : Action α) (own : ScopeId) (s : Store) (post : α → Store → Prop) : Prop :=
  own < s.scopes.size → act.Evolving s post ∧ (s.WellFormed → (act.after s).scopes[own]? = s.scopes[own]?)

namespace Spares

variable {act : Action α} {own : ScopeId} {s : Store} {post : α → Store → Prop} {post' : β → Store → Prop}

theorem ok {a : α} {s' : Store} (h : act s = .ok a s') (hevolves : s.Evolves s')
    (hsame : own < s.scopes.size → s'.scopes[own]? = s.scopes[own]?) (hpost : own < s.scopes.size → post a s') :
    act.Spares own s post := by
  refine fun hown => ⟨.ok h hevolves (hpost hown), fun _ => ?_⟩
  rw [after_of_ok h]
  exact hsame hown

theorem of_ok {a : α} (h : act s = .ok a s) (hpost : post a s) : act.Spares own s post :=
  ok h (.refl s) (fun _ => rfl) fun _ => hpost

theorem of_error {e : Signal} (h : act s = .error e s) : act.Spares own s post :=
  fun _ => ⟨.of_error h, fun _ => by rw [after_of_error h]⟩

theorem of_drifts {good : α → Prop} (h : act.Drifts good) : act.Spares own s fun a _ => good a :=
  fun _ => ⟨.of_drifts h, fun _ => by rw [(h s).1.scopes]⟩

theorem imp {post' : α → Store → Prop} (h : act.Spares own s post) (himp : ∀ a s', post a s' → post' a s') :
    act.Spares own s post' := fun hown => ⟨(h hown).1.imp himp, (h hown).2⟩

theorem bind {next : α → Action β} (h : act.Spares own s post)
    (hnext : ∀ a s', s.Evolves s' → post a s' → (next a).Spares own s' post') :
    (act >>= next).Spares own s post' := by
  intro hown
  obtain ⟨hevolving, hsame⟩ := h hown
  refine ⟨hevolving.bind fun a s' hevolves ha => (hnext a s' hevolves ha (hevolves.exists_of_exists hown)).1,
    fun hs => ?_⟩
  have hevolves := (hevolving hs).1
  cases hact : act s with
  | ok a s' =>
    rw [after_of_ok hact] at hevolves hsame
    have hspares := hnext a s' hevolves ((hevolving hs).2 a s' hact) (hevolves.exists_of_exists hown)
    rw [after_bind_of_ok hact, hspares.2 (hevolves.wellFormed hs), hsame hs]
  | error e s' =>
    rw [after_of_error (bind_of_error hact), ← after_of_error hact, hsame hs]

theorem limited (h : act.Spares own s post) : (Action.limited act).Spares own s post :=
  fun hown => ⟨(h hown).1.limited, fun hs => by rw [after_limited, (h hown).2 hs]⟩

/-- An action between a change and what undoes it, neither of which touches scopes. -/
theorem within {enter leave : Store → Store} (hgood : s.WellFormed → (enter s).WellFormed)
    (h : act.Spares own (enter s) post) (hleave : ∀ s', (enter s).Evolves s' → s.Evolves (leave s'))
    (hpost : ∀ a s', post a s' → post a (leave s')) (henter : (enter s).scopes = s.scopes)
    (hscopes : ∀ s', (leave s').scopes = s'.scopes) :
    (modify enter >>= fun _ => Action.ensuring act leave : Action α).Spares own s post := by
  intro hown
  obtain ⟨hevolving, hsame⟩ := h (henter ▸ hown)
  refine ⟨.within hgood hevolving hleave hpost, fun hs => ?_⟩
  show ((Action.ensuring act leave).after (enter s)).scopes[own]? = _
  rw [after_ensuring, hscopes, hsame (hgood hs), henter]

/-- A name is bound in another scope. -/
theorem define {scope : ScopeId} (hscope : scope ≠ own) (name : Text) (v : Value) :
    (Action.define scope name v).Spares own s fun _ _ => True :=
  ok rfl (.change (.binding scope name v)) (fun _ => Array.getElem?_modify.trans (if_neg hscope)) fun _ => trivial

theorem get_bind {next : Store → Action β} (h : (next s).Spares own s post') :
    ((get : Action Store) >>= next).Spares own s post' := h

/-- The nearest binding of a name is changed from a scope on that does not hold the one that is left alone. -/
theorem assign {scope : ScopeId} (hscope : own ∉ s.scopes.chain scope) (name : Text) (v : Value) :
    (Action.assign scope name v).Spares own s fun _ _ => True := by
  refine get_bind ?_
  cases hbinder : s.scopes.binder? scope name with
  | none => exact of_error rfl
  | some binder =>
    rw [Scopes.binder?_eq_nearest?] at hbinder
    have hmem : binder ∈ s.scopes.chain scope := List.mem_of_find?_eq_some hbinder
    have hne : binder ≠ own := by
      rintro rfl
      exact hscope hmem
    exact define hne name v

/-- A new scope is another one. -/
theorem newScope {parent : ScopeId} (hparent : parent < s.scopes.size) (t : Table Value) :
    (Action.newScope parent t).Spares own s fun scope s' => scope < s'.scopes.size ∧ scope ≠ own := by
  refine ok rfl (.change (.scope parent t hparent)) (fun hown => ?_) fun hown => ⟨?_, Nat.ne_of_gt hown⟩
  · obtain ⟨scope, hscope⟩ := Scopes.exists_scope hown
    exact (getElem?_push_of_some hscope _).trans hscope.symm
  · show s.scopes.size < (s.scopes.push _).size
    rw [Array.size_push]
    exact Nat.lt_succ_self _

end Spares

end Action

/-- By this policy one scope is left as it is. Code may be handed everything, and it may run in every scope that
exists. -/
def Policy.sealing (own : ScopeId) : Policy where
  Obeys act s post := act.Spares own s post
  Good := Store.WellFormed
  Later := Store.KeepsParents
  AdmitsAtom _ _ := True
  Opens scope s := scope < s.scopes.size
  Binds scope := scope ≠ own
  Yields scope s := own ∉ s.scopes.chain scope
  IsStrict := False
  of_ok := .of_ok
  of_error h _ := .of_error h
  bind h hnext := h.bind fun a s' hevolves ha => hnext a s' (.of_evolves hevolves) ha
  of_good h hown := ⟨fun hs => (h hs hown).1 hs, fun hs => (h hs hown).2 hs⟩
  limited := .limited
  drifts h _ := .of_drifts h
  strict h := h.elim
  gensym hstart ev scope := .ok (ControlOp.run_gensym hstart ev scope) (.change .freshName) (fun _ => rfl)
    fun _ => trivial
  newPort port s := .ok rfl (.change (.port port)) (fun _ => rfl) fun _ => ⟨_, rfl, trivial⟩
  closing {act s} port h := by
    have hclose : (modify id >>= fun _ => ensuring act fun s' => s'.closePort port : Action Value).Spares own s _ :=
      .within id h (fun s' hevolves => hevolves.trans (.change (.closing port))) (fun _ _ => id) rfl
        fun s' => s'.scopes_closePort port
    exact hclose
  redirecting {act s} direction stream port h := .within (·.redirect direction stream) h
    (fun s' hevolves => hevolves.redirect.trans (.change (.closing port))) (fun _ _ => id)
    (s.scopes_redirect direction stream)
    fun s' => (Store.scopes_closePort _ port).trans (s'.scopes_redirect direction _)
  later_redirect s direction stream := .of_scopes_eq (s.scopes_redirect direction stream)
  later_atom _ _ := trivial
  later_opens h hkeeps := hkeeps.exists_of_exists h
  later_yields hs hscope h hkeeps := by
    rwa [Scopes.chain, hkeeps.chainFrom_eq hs.scopes _ hscope]
  plain _ _ := trivial
  binds hscope h heq := h (heq ▸ Scopes.mem_chain_self hscope)
  root hs := hs.root_lt
  closure hs _ hc := ⟨hs.closures _ _ hc, fun v _ => v.everywhere_true⟩
  newScope hparent _ := .newScope hparent _
  newClosure hscope _ := .ok rfl (.change (.closure _ hscope)) (fun _ => rfl) fun _ => trivial
  define hscope name _ := .define hscope name _
  defineTransformer {scope c s} hscope name _ := .ok rfl (.change (.transformer scope name c))
    (fun _ => Array.getElem?_modify.trans (if_neg hscope)) fun _ => trivial
  assign hscope name _ := .assign hscope name _
  lookup _ name := (Spares.of_drifts (lookup_looks _ name).drifts).imp fun v _ _ => v.everywhere_true
  transformer? _ name := (Spares.of_drifts (transformer?_looks _ name).drifts).imp fun _ _ _ _ _ => trivial

theorem Policy.sealing_admits {own : ScopeId} {s : Store} (v : Value) : (sealing own).Admits v s :=
  v.everywhere_true

/-! ### The rule that refuses holders -/

/-- Runs a form, unless it binds names and some scope is on the way to the root. -/
def SpecialForm.runOutside (own : ScopeId) : FormRule := fun form ev operands scope => do
  let s ← get
  if form ∈ SpecialForm.writing ∧ own ∈ s.scopes.chain scope then throw .exhausted
  else form.run ev operands scope

theorem SpecialForm.runOutside_runsOrRefuses (own : ScopeId) :
    (runOutside own).RunsOrRefuses (· = .exhausted) := by
  intro form ev operands scope s
  rw [runOutside, get_bind]
  split
  · exact .inl rfl
  · exact .inr rfl

theorem SpecialForm.runOutside_permitted (own : ScopeId) : (Policy.sealing own).Permits (runOutside own) := by
  intro form ev operands scope s _ hrun
  refine .get_bind ?_
  split
  · exact .throw fun h => h.elim
  · next hrefused => exact hrun fun hform hmem => hrefused ⟨hform, hmem⟩

/-- What is done with an evaluator leaves a scope as it is, if it is done without definitions and assignments by
code that holds the scope; and then it is all that is done, unless it is refused. -/
structure OnlyHoldersBind (own : ScopeId) (rounds nesting depth : Nat) {α : Type} (act : Evaluator → Action α)
    (s : Store) : Prop where
  unchanged : ((act (.nestedBy (SpecialForm.runOutside own) rounds nesting depth)).after s).scopes[own]? =
    s.scopes[own]?
  same : EndsIn (· = .exhausted) (act (.nestedBy (SpecialForm.runOutside own) rounds nesting depth) s) ∨
    act (.nested rounds nesting depth) s = act (.nestedBy (SpecialForm.runOutside own) rounds nesting depth) s

section

variable {own : ScopeId} {s : Store} {rounds nesting depth : Nat}

theorem Evaluator.runOutside_below (own : ScopeId) (rounds nesting depth : Nat) :
    (nestedBy (SpecialForm.runOutside own) rounds nesting depth).Below (· = .exhausted)
      (nested rounds nesting depth) :=
  nestedBy_below (fun h => by cases h) (SpecialForm.runOutside_runsOrRefuses own) rounds nesting depth

theorem Evaluator.runOutside_governed (own : ScopeId) (rounds nesting depth : Nat) :
    (Policy.sealing own).Governs (nestedBy (SpecialForm.runOutside own) rounds nesting depth) :=
  nestedBy_governed (SpecialForm.runOutside_permitted own) rounds nesting depth

/-- What leaves the scope as it is, and grows with the evaluator. -/
theorem OnlyHoldersBind.of_spares {α : Type} {act : Evaluator → Action α} {post : α → Store → Prop}
    (hs : s.WellFormed) (hown : own < s.scopes.size)
    (hspares : (act (.nestedBy (SpecialForm.runOutside own) rounds nesting depth)).Spares own s post)
    (hbelow : (act (.nestedBy (SpecialForm.runOutside own) rounds nesting depth)).Below (· = .exhausted)
      (act (.nested rounds nesting depth))) : OnlyHoldersBind own rounds nesting depth act s :=
  ⟨(hspares hown).2 hs, hbelow s⟩

/-- A scope only changes in the evaluation of an expression when code that holds it binds a name. -/
theorem Evaluator.only_holders_bind (expr : Value) {scope : ScopeId} (hs : s.WellFormed)
    (hown : own < s.scopes.size) (hscope : scope < s.scopes.size) :
    OnlyHoldersBind own rounds nesting depth (fun ev => ev.eval expr scope) s :=
  .of_spares hs hown ((runOutside_governed own rounds nesting depth).eval (Policy.sealing_admits expr) hscope)
    ((runOutside_below own rounds nesting depth).eval expr scope)

/-- Nor does it change otherwise in the rounds of a loop. -/
theorem Forms.rounds_only_holders_bind (loop : Loop) {outer scope : ScopeId} (bound : Nat) (hs : s.WellFormed)
    (hown : own < s.scopes.size) (houter : outer < s.scopes.size) (hscope : scope < s.scopes.size) :
    OnlyHoldersBind own rounds nesting depth (fun ev => Forms.rounds ev loop outer bound scope) s := by
  have hloop : loop.IsAdmitted (.sealing own) s :=
    ⟨Policy.sealing_admits _, fun v _ => Policy.sealing_admits v, fun v _ => Policy.sealing_admits v,
      fun _ _ step _ => Policy.sealing_admits step⟩
  exact .of_spares hs hown
    (rounds_obeys (Evaluator.runOutside_governed own rounds nesting depth) hloop bound houter hscope)
    (rounds_below (Evaluator.runOutside_below own rounds nesting depth) loop outer bound bound (.inl rfl) scope)

end

end Lisplet
