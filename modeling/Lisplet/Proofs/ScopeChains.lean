import Mathlib.Tactic.Common
import Lisplet.Store

/-!
# Chains of scopes

All scopes make one tree: the root has no parent, and every other scope has one that was made before it.
New scopes inside existing ones and new bindings keep that, and in such a tree the way from a scope along its
parents is finite and ends in the root.
-/

namespace Lisplet.Scopes

/-- The root is the one scope without a parent, and parents are older. -/
structure IsTree (scopes : Scopes) : Prop where
  root : ∃ scope, scopes[rootScope]? = some scope ∧ scope.parent = none
  parent : ∀ id scope, scopes[id]? = some scope → id ≠ rootScope →
    ∃ parent, scope.parent = some parent ∧ parent < id

/-- The parent of a scope was made before it. -/
theorem IsTree.lt_of_parent {scopes : Scopes} (h : scopes.IsTree) {id parent : ScopeId} {scope : Scope}
    (hscope : scopes[id]? = some scope) (hparent : scope.parent = some parent) : parent < id := by
  have hne : id ≠ rootScope := by
    rintro rfl
    obtain ⟨root, hroot, hnone⟩ := h.root
    cases hscope.symm.trans hroot
    cases hparent.symm.trans hnone
  obtain ⟨parent', hparent', hlt⟩ := h.parent id scope hscope hne
  cases hparent.symm.trans hparent'
  exact hlt

/-- The way from a scope along the parents, to the root and no further. -/
inductive Climbs (scopes : Scopes) : ScopeId → List ScopeId → Prop
  | root {scope : Scope} (h : scopes[rootScope]? = some scope) (hparent : scope.parent = none) :
      Climbs scopes rootScope [rootScope]
  | child {id parent : ScopeId} {scope : Scope} {path : List ScopeId} (h : scopes[id]? = some scope)
      (hparent : scope.parent = some parent) (hpath : Climbs scopes parent path) :
      Climbs scopes id (id :: path)

theorem exists_scope {scopes : Scopes} {id : ScopeId} (h : id < scopes.size) :
    ∃ scope, scopes[id]? = some scope :=
  ⟨scopes[id], Array.getElem?_eq_getElem h⟩

theorem lt_size {scopes : Scopes} {id : ScopeId} {scope : Scope} (h : scopes[id]? = some scope) :
    id < scopes.size := by
  obtain ⟨hlt, _⟩ := Array.getElem?_eq_some_iff.mp h
  exact hlt

theorem chainFrom_succ {scopes : Scopes} {id : ScopeId} {scope : Scope} (h : scopes[id]? = some scope)
    (fuel : Nat) : chainFrom scopes (fuel + 1) id =
      id :: scope.parent.elim [] (chainFrom scopes fuel) := by
  rw [chainFrom]
  simp only [h]
  cases scope.parent <;> rfl

theorem IsTree.climbs_chainFrom {scopes : Scopes} (h : scopes.IsTree) {fuel : Nat} {id : ScopeId}
    (hfuel : id < fuel) (hid : id < scopes.size) : scopes.Climbs id (chainFrom scopes fuel id) := by
  induction fuel generalizing id with
  | zero => exact absurd hfuel (Nat.not_lt_zero id)
  | succ fuel ih =>
    obtain ⟨scope, hscope⟩ := exists_scope hid
    rw [chainFrom_succ hscope]
    by_cases hroot : id = rootScope
    · subst hroot
      obtain ⟨scope', hscope', hparent⟩ := h.root
      obtain rfl := Option.some.inj (hscope.symm.trans hscope')
      rw [hparent]
      exact .root hscope hparent
    · obtain ⟨parent, hparent, hlt⟩ := h.parent id scope hscope hroot
      rw [hparent]
      exact .child hscope hparent (ih (Nat.lt_of_lt_of_le hlt (Nat.le_of_lt_succ hfuel))
        (Nat.lt_trans hlt hid))

/-- The chain of a scope is its way to the root. -/
theorem IsTree.climbs_chain {scopes : Scopes} (h : scopes.IsTree) {id : ScopeId}
    (hid : id < scopes.size) : scopes.Climbs id (scopes.chain id) :=
  h.climbs_chainFrom (Nat.lt_succ_self id) hid

/-- Every way along the parents ends in the root. -/
theorem Climbs.getLastD_eq {scopes : Scopes} {id : ScopeId} {path : List ScopeId}
    (h : scopes.Climbs id path) (other : ScopeId) : path.getLastD other = rootScope := by
  induction h generalizing other with
  | root => rfl
  | child _ _ _ ih => exact List.getLastD_cons.trans (ih _)

theorem IsTree.root_eq {scopes : Scopes} (h : scopes.IsTree) {id : ScopeId} (hid : id < scopes.size) :
    scopes.root id = rootScope := (h.climbs_chain hid).getLastD_eq id

/-- A new scope inside an existing one. -/
theorem IsTree.push {scopes : Scopes} (h : scopes.IsTree) {scope : Scope} {parent : ScopeId}
    (hscope : scope.parent = some parent) (hparent : parent < scopes.size) :
    IsTree (scopes.push scope) := by
  obtain ⟨root, hroot, hnone⟩ := h.root
  have hne : rootScope ≠ scopes.size := Nat.ne_of_lt (lt_size hroot)
  refine ⟨⟨root, ?_, hnone⟩, fun id scope' hid hne' => ?_⟩
  · rw [Array.getElem?_push, if_neg hne]
    exact hroot
  · rw [Array.getElem?_push] at hid
    split at hid
    next heq =>
      obtain rfl := Option.some.inj hid
      exact ⟨parent, hscope, heq ▸ hparent⟩
    next => exact h.parent id scope' hid hne'

/-- A change of a scope that keeps its parent. -/
theorem IsTree.modify {scopes : Scopes} (h : scopes.IsTree) (id : ScopeId) {change : Scope → Scope}
    (hchange : ∀ scope, (change scope).parent = scope.parent) : IsTree (scopes.modify id change) := by
  have hget : ∀ (id' : ScopeId) (scope' : Scope), (scopes.modify id change)[id']? = some scope' →
      ∃ scope, scopes[id']? = some scope ∧ scope'.parent = scope.parent := by
    intro id' scope' hid'
    rw [Array.getElem?_modify] at hid'
    split at hid'
    next =>
      obtain ⟨scope, hscope, rfl⟩ := Option.map_eq_some_iff.mp hid'
      exact ⟨scope, hscope, hchange scope⟩
    next => exact ⟨scope', hid', rfl⟩
  refine ⟨?_, fun id' scope' hid' hne => ?_⟩
  · obtain ⟨root, hroot, hnone⟩ := h.root
    have hlt : rootScope < (scopes.modify id change).size := by
      rw [Array.size_modify]
      exact lt_size hroot
    obtain ⟨root', hroot'⟩ := exists_scope hlt
    obtain ⟨scope, hscope, hparent⟩ := hget rootScope root' hroot'
    obtain rfl := Option.some.inj (hscope.symm.trans hroot)
    exact ⟨root', hroot', hparent.trans hnone⟩
  · obtain ⟨scope, hscope, hparent⟩ := hget id' scope' hid'
    rw [hparent]
    exact h.parent id' scope hscope hne

theorem IsTree.define {scopes : Scopes} (h : scopes.IsTree) (id : ScopeId) (name : Text) (v : Value) :
    (scopes.define id name v).IsTree := h.modify id fun _ => rfl

theorem IsTree.defineTransformer {scopes : Scopes} (h : scopes.IsTree) (id : ScopeId) (name : Text)
    (c : ClosureId) : (scopes.defineTransformer id name c).IsTree := h.modify id fun _ => rfl

/-! ### Searching along the chain -/

/-- More fuel than the scope needs changes nothing. -/
theorem IsTree.searchFrom_eq {α : Type} {scopes : Scopes} (h : scopes.IsTree)
    (answer : ScopeId → Scope → Option α) {fuel : Nat} {id : ScopeId} (hfuel : id < fuel) :
    searchFrom scopes answer fuel id = scopes.search answer id := by
  induction id using Nat.strongRecOn generalizing fuel with
  | ind id ih =>
    obtain ⟨fuel, rfl⟩ := Nat.exists_eq_add_one_of_ne_zero (Nat.ne_zero_of_lt hfuel)
    rw [search, searchFrom, searchFrom]
    cases hscope : scopes[id]? with
    | none => rfl
    | some scope =>
      dsimp only
      cases answer id scope with
      | some a => rfl
      | none =>
        cases hparent : scope.parent with
        | none => rfl
        | some parent =>
          -- Only the root has no parent, and a parent has the smaller number.
          have hne : id ≠ rootScope := by
            rintro rfl
            obtain ⟨root, hroot, hnone⟩ := h.root
            obtain rfl := Option.some.inj (hscope.symm.trans hroot)
            exact nomatch hparent.symm.trans hnone
          obtain ⟨parent', hparent', hlt⟩ := h.parent id scope hscope hne
          obtain rfl := Option.some.inj (hparent.symm.trans hparent')
          dsimp only
          rw [ih parent hlt hlt, ih parent hlt (Nat.lt_of_lt_of_le hlt (Nat.le_of_lt_succ hfuel))]

/-- The first answer is that of the scope itself, or else the first one from its parent on. -/
theorem IsTree.search_eq {α : Type} {scopes : Scopes} (h : scopes.IsTree)
    (answer : ScopeId → Scope → Option α) {id : ScopeId} {scope : Scope}
    (hscope : scopes[id]? = some scope) : scopes.search answer id =
      (answer id scope).or (scope.parent.bind (scopes.search answer)) := by
  rw [search, searchFrom, hscope]
  dsimp only
  cases answer id scope with
  | some a => rfl
  | none =>
    cases hparent : scope.parent with
    | none => rfl
    | some parent =>
      have hne : id ≠ rootScope := by
        rintro rfl
        obtain ⟨root, hroot, hnone⟩ := h.root
        obtain rfl := Option.some.inj (hscope.symm.trans hroot)
        exact nomatch hparent.symm.trans hnone
      obtain ⟨parent', hparent', hlt⟩ := h.parent id scope hscope hne
      obtain rfl := Option.some.inj (hparent.symm.trans hparent')
      exact h.searchFrom_eq answer hlt

/-- All scopes of one tree stand unchanged in another one. -/
def Extends (scopes scopes' : Scopes) : Prop :=
  ∀ (id : ScopeId) (scope : Scope), scopes[id]? = some scope → scopes'[id]? = some scope

/-- New scopes do not change what is found from an old one. -/
theorem IsTree.search_extends {α : Type} {scopes scopes' : Scopes} (h : scopes.IsTree)
    (h' : scopes'.IsTree) (hext : scopes.Extends scopes') (answer : ScopeId → Scope → Option α)
    {id : ScopeId} (hid : id < scopes.size) :
    scopes'.search answer id = scopes.search answer id := by
  induction id using Nat.strongRecOn with
  | ind id ih =>
    obtain ⟨scope, hscope⟩ := exists_scope hid
    rw [h.search_eq answer hscope, h'.search_eq answer (hext id scope hscope)]
    by_cases hroot : id = rootScope
    · subst hroot
      obtain ⟨root, hroot, hnone⟩ := h.root
      obtain rfl := Option.some.inj (hscope.symm.trans hroot)
      rw [hnone]
      rfl
    · obtain ⟨parent, hparent, hlt⟩ := h.parent id scope hscope hroot
      rw [hparent, Option.bind_some, Option.bind_some, ih parent hlt (Nat.lt_trans hlt hid)]

theorem size_define (scopes : Scopes) (id : ScopeId) (name : Text) (v : Value) :
    (scopes.define id name v).size = scopes.size := Array.size_modify

theorem size_defineTransformer (scopes : Scopes) (id : ScopeId) (name : Text) (c : ClosureId) :
    (scopes.defineTransformer id name c).size = scopes.size := Array.size_modify

end Lisplet.Scopes
