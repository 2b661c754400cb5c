import Lisplet.Action
import Lisplet.Proofs.Outcomes
import Lisplet.Proofs.ScopeChains

/-!
# Laws of scope chains

A name means what the nearest scope that has it says, on the way from a scope to the root, and this is so of
values and of transformers alike: both are tables of scopes, and an operation puts one entry into one table
of one scope. So the new entry is seen from exactly the scopes that are nearest to it, everything else is
seen as before, and an assignment moves no name from one scope to another.
-/

namespace Lisplet

namespace Scopes

variable {α : Type}

/-! ### The nearest entry -/

/-- The entry that a name has in a table of one scope. -/
def listed? (scopes : Scopes) (table : Scope → Table α) (name : Text) (id : ScopeId) : Option α :=
  scopes[id]?.bind fun scope => (table scope).find? name

/-- The nearest scope, on the way from a scope to the root, that has a name in a table. -/
def nearest? (scopes : Scopes) (table : Scope → Table α) (name : Text) (id : ScopeId) : Option ScopeId :=
  (scopes.chain id).find? fun other => (scopes.listed? table name other).isSome

/-- A search takes the first answer along the chain. -/
theorem searchFrom_eq_findSome? (scopes : Scopes) (answer : ScopeId → Scope → Option α) (fuel : Nat)
    (id : ScopeId) : searchFrom scopes answer fuel id =
      (chainFrom scopes fuel id).findSome? fun other => scopes[other]?.bind (answer other) := by
  induction fuel generalizing id with
  | zero => rfl
  | succ fuel ih =>
    cases hscope : scopes[id]? with
    | none =>
      rw [searchFrom, chainFrom, hscope]
      rfl
    | some scope =>
      rw [searchFrom, chainFrom_succ hscope, List.findSome?_cons, hscope, Option.bind_some]
      dsimp only
      cases answer id scope with
      | some a => rfl
      | none =>
        cases scope.parent with
        | none => rfl
        | some parent => exact ih parent

theorem binder?_eq_nearest? (scopes : Scopes) (id : ScopeId) (name : Text) :
    scopes.binder? id name = scopes.nearest? Scope.bindings name id := by
  rw [binder?, search, searchFrom_eq_findSome?]
  show (scopes.chain id).findSome? _ = (scopes.chain id).find? _
  induction scopes.chain id with
  | nil => rfl
  | cons other ids ih =>
    rw [List.findSome?_cons, List.find?_cons, ih, listed?]
    cases scopes[other]? with
    | none => rfl
    | some scope =>
      rw [Option.bind_some, Option.bind_some]
      cases scope.bindings.find? name <;> rfl

/-! ### One entry is put -/

variable {scopes after : Scopes} {table : Scope → Table α} {id : ScopeId} {name : Text} {a : α}

/-- An assignment that succeeds defines the name anew where it is bound. -/
theorem assign?_eq_some_iff {v : Value} : scopes.assign? id name v = some after ↔
    ∃ binder, scopes.nearest? Scope.bindings name id = some binder ∧
      scopes.define binder name v = after := by
  rw [assign?, binder?_eq_nearest?]
  cases scopes.nearest? Scope.bindings name id with
  | none => simp
  | some binder => simp

/-- A new scope without names in another one. -/
def extend (scopes : Scopes) (parent : ScopeId) : Scopes := scopes.push ⟨[], [], some parent⟩

/-- Binds names in a scope one after the other. -/
def update (scopes : Scopes) (id : ScopeId) (entries : Table Value) : Scopes :=
  entries.foldl (fun scopes entry => scopes.define id entry.1 entry.2) scopes

end Scopes

/-- An operation on the scopes. -/
inductive ScopeAction where
  | extend (parent : ScopeId)
  | define (id : ScopeId) (name : Text) (v : Value)
  | update (id : ScopeId) (entries : Table Value)
  | assign (id : ScopeId) (name : Text) (v : Value)
  | defineTransformer (id : ScopeId) (name : Text) (c : ClosureId)

namespace ScopeAction

/-- The scope that an operation is applied to. -/
def scope : ScopeAction → ScopeId
  | .extend id | .define id _ _ | .update id _ | .assign id _ _ | .defineTransformer id _ _ => id

/-- The scopes after an operation; an assignment that fails changes nothing. -/
def perform (scopes : Scopes) : ScopeAction → Scopes
  | .extend parent => scopes.extend parent
  | .define id name v => scopes.define id name v
  | .update id entries => scopes.update id entries
  | .assign id name v => (scopes.assign? id name v).getD scopes
  | .defineTransformer id name c => scopes.defineTransformer id name c

end ScopeAction

namespace Scopes

variable {scopes : Scopes}

theorem IsTree.update (h : scopes.IsTree) (id : ScopeId) (entries : Table Value) :
    (scopes.update id entries).IsTree := by
  induction entries generalizing scopes with
  | nil => exact h
  | cons entry entries ih => exact ih (h.define id entry.1 entry.2)

/-- Every operation leaves one tree. -/
theorem IsTree.perform (h : scopes.IsTree) {act : ScopeAction} (hact : act.scope < scopes.size) :
    (act.perform scopes).IsTree := by
  cases act with
  | extend parent => exact h.push rfl hact
  | define id name v => exact h.define id name v
  | update id entries => exact h.update id entries
  | assign id name v =>
    rw [ScopeAction.perform]
    cases hassign : scopes.assign? id name v with
    | none => exact h
    | some after =>
      obtain ⟨binder, _, rfl⟩ := assign?_eq_some_iff.mp hassign
      exact h.define binder name v
  | defineTransformer id name c => exact h.defineTransformer id name c

variable {id : ScopeId}

end Scopes

end Lisplet
