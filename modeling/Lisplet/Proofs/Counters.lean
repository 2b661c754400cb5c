import Lisplet.Proofs.BuiltCode
import Lisplet.Proofs.PreludeStart
import Lisplet.Proofs.TailCalls

/-!
# Counters

A procedure that makes counters: each closure that it gives has a variable of its own, counts its calls in it
and gives their number. Counters are made and called in any order and in several ways. In the store a counter
is a closure whose scope is that of no other counter, and a call changes this scope and no other one; so every
counter says how often it was called, whatever happened to the others in between.
-/

namespace Lisplet

namespace Scopes

/-- A scope sees what is bound in it, and otherwise what the scope around it sees. -/
theorem Sees.child {scopes : Scopes} {id parent : ScopeId} {env : Env} (h : scopes.Sees parent env)
    {t : Table Value} (hscope : scopes[id]? = some ⟨t, [], some parent⟩) : scopes.Sees id (env.bind t) := by
  refine ⟨h.tree, Scopes.lt_size hscope, fun name => ?_, fun name => ?_⟩
  · rw [lookup?, h.tree.search_eq _ hscope, Option.bind_some]
    exact congrArg (Option.or (t.find? name)) (h.value name)
  · rw [transformer?, h.tree.search_eq _ hscope, Option.bind_some]
    exact h.transformer name

/-- All scopes but one stand unchanged among others. -/
def ExtendsBut (scopes : Scopes) (own : ScopeId) (scopes' : Scopes) : Prop :=
  ∀ id scope, id ≠ own → scopes[id]? = some scope → scopes'[id]? = some scope

end Scopes

namespace Counters

open Evaluator

/-! ### The procedures -/

/-- The body of a counter, `(set! n (+ n 1)) n`. -/
abbrev counterBody (ids : Nat → ObjectId) : List Value :=
  [.call (ids 0) "set!" [.sym "n", .call (ids 1) "+" [.sym "n", .int 1]], .sym "n"]

/-- `(let ((n 0)) (lambda () (set! n (+ n 1)) n))`. -/
abbrev makerBody (ids : Nat → ObjectId) : Value :=
  .call (ids 2) "let" [.oneBinding (ids 3, ids 4) "n" (.int 0),
    .call (ids 5) "lambda" (.nil :: counterBody ids)]

/-- `(define (make-counter) (let ((n 0)) (lambda () (set! n (+ n 1)) n)))`. -/
abbrev definition (ids : Nat → ObjectId) : Value :=
  .call (ids 6) "define" [.list (ids 7) (.sym "make-counter") [] none, makerBody ids]

/-- The procedure that makes counters. -/
def maker (ids : Nat → ObjectId) : Closure := ⟨some "make-counter", ⟨[], none⟩, [makerBody ids], rootScope⟩

/-! ### Requests -/

/-- A way to call a counter. -/
inductive Way where
  /-- A procedure calls it on behalf of code in a scope. -/
  | applied (scope : ScopeId)
  /-- A call is written with a name that the counter has in a scope for the caller. -/
  | written (id : ObjectId) (name : Text)

/-- Calls a counter. -/
def Way.call (ev : Evaluator) (counter : Value) : Way → Action Value
  | .applied scope => ev.call counter [] scope
  | .written id name => do
    let scope ← Action.newScope rootScope [(name, counter)]
    ev.eval (.call id name []) scope

/-- What is asked for. -/
inductive Request where
  /-- A new counter, by `(make-counter)` in the root. -/
  | create (id : ObjectId)
  /-- A call of the counter that was made as number `i`. -/
  | call (i : Nat) (way : Way)

/-- Serves requests one after another, and gives the counters that there are then. -/
def serve (ev : Evaluator) (counters : List Value) : List Request → Action (List Value)
  | [] => pure counters
  | .create id :: more => do
    let counter ← ev.eval (.call id "make-counter" []) rootScope
    serve ev (counters ++ [counter]) more
  | .call i way :: more => do
    let counter ← Action.orFault .operandMissing counters[i]?
    let _ ← way.call ev counter
    serve ev counters more

/-- Behind some counters, only counters that have been made are called. -/
def Answerable (made : Nat) : List Request → Prop
  | [] => True
  | .create _ :: more => Answerable (made + 1) more
  | .call i _ :: more => i < made ∧ Answerable made more

/-- How many counters are made. -/
def creations : List Request → Nat
  | [] => 0
  | .create _ :: more => creations more + 1
  | .call _ _ :: more => creations more

/-- How often a counter is called. -/
def calls (i : Nat) : List Request → Nat
  | [] => 0
  | .create _ :: more => calls i more
  | .call j _ :: more => (if j = i then 1 else 0) + calls i more

/-! ### Counters in a store -/

/-- All closures of one store stand in another one. -/
def HasClosures (s s' : Store) : Prop :=
  ∀ (id : ClosureId) (proc : Closure), s.closures[id]? = some proc → s'.closures[id]? = some proc

/-- A counter: its closure, and the scope that its variable is in. -/
structure Counter where
  closure : ClosureId
  own : ScopeId

/-- The counter as a value. -/
abbrev Counter.value (c : Counter) : Value := .atom (.closure c.closure)

/-- What a scope without another one around it means. -/
abbrev envOf (root : Scope) : Env :=
  ⟨fun name => root.bindings.find? name, fun name => root.transformers.find? name⟩

/-- The root as it is while counters are made and called, with the procedure that makes them. -/
structure IsHome (root : Scope) (make : ClosureId) : Prop where
  usual : (envOf root).IsUsual
  transformers : root.transformers = []
  knows : (envOf root).Knows "make-counter" make

/-- A counter stands in a store and has counted so many calls. -/
structure Counter.Shows (c : Counter) (ids : Nat → ObjectId) (s : Store) (n : Nat) : Prop where
  closure : s.closures[c.closure]? = some ⟨none, ⟨[], none⟩, counterBody ids, c.own⟩
  own : ∃ around, s.scopes[c.own]? = some ⟨[("n", .int n)], [], some around⟩ ∧
    s.scopes[around]? = some ⟨[], [], some rootScope⟩

/-- A store in which some counters have been made and called so often. -/
structure IsInUse (ids : Nat → ObjectId) (root : Scope) (make : ClosureId) (s : Store)
    (counters : List Counter) (counts : Nat → Nat) : Prop where
  tree : s.scopes.IsTree
  root : s.scopes[rootScope]? = some root
  maker : s.closures[make]? = some (maker ids)
  shows : ∀ (i : Nat) (c : Counter), counters[i]? = some c → c.Shows ids s (counts i)
  apart : ∀ (i j : Nat) (c d : Counter), counters[i]? = some c → counters[j]? = some d → c.own = d.own → i = j

section

variable {ids : Nat → ObjectId} {root : Scope} {make : ClosureId} {s s' : Store} {counters : List Counter}
  {counts : Nat → Nat} {c : Counter} {n i : Nat} {nesting depth : Nat}

theorem IsInUse.sees (h : IsInUse ids root make s counters counts) : s.scopes.Sees rootScope (envOf root) :=
  h.tree.sees_root h.root

/-- What the scope of a counter sees. -/
abbrev insideEnv (root : Scope) (n : Nat) : Env := ((envOf root).bind []).bind [("n", .int n)]

theorem insideEnv_usual (h : IsHome root make) (n : Nat) : (insideEnv root n).IsUsual := by
  refine Env.IsUsual.bind_one (h.usual.bind fun _ hname => ?_) (by decide +kernel) _
  exact nomatch hname

theorem Counter.Shows.sees (h : c.Shows ids s n) (hroot : s.scopes.Sees rootScope (envOf root)) :
    s.scopes.Sees c.own (insideEnv root n) := by
  obtain ⟨around, hown, haround⟩ := h.own
  exact (hroot.child haround).child hown

/-- A counter stands as long as its closure, its own scope and all scopes without a variable do. -/
theorem Counter.Shows.stays (h : c.Shows ids s n)
    (hclosures : HasClosures s s')
    (hscopes : ∀ (id : ScopeId) (scope : Scope), id = c.own ∨ scope.bindings = [] →
      s.scopes[id]? = some scope → s'.scopes[id]? = some scope) : c.Shows ids s' n := by
  obtain ⟨around, hown, haround⟩ := h.own
  exact ⟨hclosures _ _ h.closure, around, hscopes _ _ (.inl rfl) hown, hscopes _ _ (.inr rfl) haround⟩

/-- Counters stand in every store that new scopes and closures lead to. -/
theorem IsInUse.extends (h : IsInUse ids root make s counters counts) (htree : s'.scopes.IsTree)
    (hscopes : s.scopes.Extends s'.scopes)
    (hclosures : HasClosures s s') :
    IsInUse ids root make s' counters counts where
  tree := htree
  root := hscopes _ _ h.root
  maker := hclosures _ _ h.maker
  shows i c hc := (h.shows i c hc).stays hclosures fun id scope _ => hscopes id scope
  apart := h.apart

/-! ### A call of a counter -/

/-- The store when a counter has been entered. -/
abbrev Counter.entered (c : Counter) (s : Store) : Store := s.withObject.withScope c.own []

/-- The store when a counter has counted one more call. -/
def Counter.counted (c : Counter) (s : Store) (n : Nat) : Store :=
  { c.entered s with scopes := (c.entered s).scopes.define c.own "n" (.int (n + 1 : Nat)) }

/-- A call leaves all other scopes as they are. -/
theorem Counter.counted_extendsBut (c : Counter) (s : Store) (n : Nat) :
    s.scopes.ExtendsBut c.own (c.counted s n).scopes := by
  intro id scope hne hid
  show (Scopes.define _ c.own "n" _)[id]? = some scope
  rw [Scopes.define, Array.getElem?_modify, if_neg (Ne.symm hne)]
  exact getElem?_push_of_some hid _

/-- A counter that has been entered is still there, with a scope inside its own. -/
theorem Counter.Shows.entered (h : c.Shows ids s n) : c.Shows ids (c.entered s) n := by
  obtain ⟨around, hown, haround⟩ := h.own
  exact ⟨h.closure, around, getElem?_push_of_some hown _, getElem?_push_of_some haround _⟩

/-- The counter that is called counts one more. -/
theorem Counter.Shows.counted (h : c.Shows ids s n) : c.Shows ids (c.counted s n) (n + 1) := by
  obtain ⟨around, hown, haround⟩ := h.own
  have hne : around ≠ c.own := by
    rintro rfl
    exact nomatch haround.symm.trans hown
  refine ⟨h.closure, around, ?_, c.counted_extendsBut s n _ _ hne haround⟩
  exact Scopes.getElem?_define_self (getElem?_push_of_some hown _) "n" _

theorem IsInUse.root_ne_own (h : IsInUse ids root make s counters counts) (hc : c.Shows ids s n) :
    rootScope ≠ c.own := by
  obtain ⟨around, hown, _⟩ := hc.own
  obtain ⟨root', hroot', hnone⟩ := h.tree.root
  intro he
  obtain rfl := Option.some.inj (hown.symm.trans (he ▸ hroot'))
  exact nomatch hnone

/-- The counts after one more call. -/
def oneMore (counts : Nat → Nat) (i : Nat) (j : Nat) : Nat := (if i = j then 1 else 0) + counts j

/-- After a call of a counter, it has counted one more, and the others what they had. -/
theorem IsInUse.counted (h : IsInUse ids root make s counters counts) (hc : counters[i]? = some c) :
    IsInUse ids root make (c.counted s (counts i)) counters (oneMore counts i) where
  tree := by
    obtain ⟨_, hown, _⟩ := (h.shows i c hc).own
    exact (h.tree.push rfl (Scopes.lt_size hown)).define _ _ _
  root := c.counted_extendsBut s _ _ _ (h.root_ne_own (h.shows i c hc)) h.root
  maker := h.maker
  shows j other hother := by
    by_cases hij : i = j
    · subst hij
      obtain rfl := Option.some.inj (hc.symm.trans hother)
      rw [oneMore, if_pos rfl, Nat.add_comm]
      exact (h.shows i c hc).counted
    · rw [oneMore, if_neg hij, Nat.zero_add]
      refine (h.shows j other hother).stays (fun _ _ hid => hid) fun id scope hscope hid => ?_
      refine c.counted_extendsBut s _ id scope ?_ hid
      -- A scope that binds nothing is not that of the counter either.
      rintro rfl
      obtain ⟨_, hown, _⟩ := (h.shows i c hc).own
      obtain rfl := Option.some.inj (hown.symm.trans hid)
      cases hscope with
      | inl hsame => exact hij (h.apart i j c other hc hother hsame)
      | inr hnone => exact nomatch hnone
  apart := h.apart

/-- In a scope inside that of a counter, the variable is that of the counter. -/
theorem Counter.Shows.binder?_eq (h : c.Shows ids s n) (htree : (c.entered s).scopes.IsTree) :
    (c.entered s).scopes.binder? s.scopes.size "n" = some c.own := by
  obtain ⟨around, hown, _⟩ := h.entered.own
  have hinside : (c.entered s).scopes[s.scopes.size]? = some ⟨[], [], some c.own⟩ := Array.getElem?_push_size
  have hfound : Table.find? "n" [("n", Value.int n)] = some (.int n) := Table.find?_cons_self _ _ _
  rw [Scopes.binder?, htree.search_eq _ hinside, Option.bind_some, htree.search_eq _ hown, hfound]
  rfl

/-- What a counter leaves over comes to the number of its calls. -/
theorem IsInUse.steps_count (h : IsInUse ids root make s counters counts) (hc : counters[i]? = some c)
    (nesting depth : Nat) : Steps nesting depth (.sym "n") s.scopes.size (c.counted s (counts i))
      (.value (.int (counts i + 1 : Nat))) (c.counted s (counts i)) := by
  have hafter := h.counted hc
  have hown := (hafter.shows i c hc).sees hafter.sees
  have hget : (c.counted s (counts i)).scopes[s.scopes.size]? = some ⟨[], [], some c.own⟩ := by
    obtain ⟨_, hown, _⟩ := (h.shows i c hc).own
    have hne : s.scopes.size ≠ c.own := Nat.ne_of_gt (Scopes.lt_size hown)
    show (Scopes.define _ c.own "n" _)[s.scopes.size]? = _
    rw [Scopes.define, Array.getElem?_modify, if_neg (Ne.symm hne)]
    exact Array.getElem?_push_size
  have hvalue : ((insideEnv root (oneMore counts i i)).bind []).value "n" =
      some (.int (counts i + 1 : Nat)) := by
    rw [oneMore, if_pos rfl, Nat.add_comm]
    exact Env.value_bind_self _ "n" _
  exact .name (hown.child hget) hvalue

section

variable (hhome : IsHome root make) (h : IsInUse ids root make s counters counts) (hc : counters[i]? = some c)
include hhome h hc

/-- A counter that is applied counts, and leaves its variable over. -/
theorem IsInUse.applyClosure_eq {rounds : Nat} (hrounds : rounds > 0) :
    (nested rounds nesting (depth + 3)).applyClosure c.closure [] s =
      .ok (.tailCall (.sym "n") s.scopes.size) (c.counted s (counts i)) := by
  let m := counts i
  have hshows := h.shows i c hc
  have hown : s.scopes.Sees c.own (insideEnv root m) := hshows.sees h.sees
  have hinside : (c.entered s).scopes.Sees s.scopes.size ((insideEnv root m).bind []) := hown.push []
  have husual : ((insideEnv root m).bind []).IsUsual :=
    (insideEnv_usual hhome m).bind fun _ hname => nomatch hname
  have hsum : Gives nesting (depth + 2) (.call (ids 1) "+" [.sym "n", .int 1]) s.scopes.size (c.entered s)
      (.int (m + 1 : Nat)) (c.entered s) :=
    .number hinside husual .add rfl (.name hinside (Env.value_bind_self _ "n" (.int m))) (.constant rfl)
      (NumberOp.run_add m 1)
  have hassign : Gives nesting (depth + 3)
      (.call (ids 0) "set!" [.sym "n", .call (ids 1) "+" [.sym "n", .int 1]]) s.scopes.size (c.entered s) .void
      (c.counted s m) := by
    refine Steps.gives (.form hinside husual .assign rfl fun rounds hrounds => ?_)
    have hbinder : Action.assign s.scopes.size "n" (.int (m + 1 : Nat)) (c.entered s) =
        .ok () (c.counted s m) := by
      rw [Action.assign, get_bind, hshows.binder?_eq hinside.tree]
      rfl
    exact (bind_of_ok (hsum rounds hrounds)).trans (bind_of_ok hbinder)
  rw [Evaluator.applyClosure_eq hshows.closure rfl]
  exact bind_of_ok (hassign rounds hrounds)

/-- A call of a counter gives the number of its calls and changes no scope but that of the counter. -/
theorem IsInUse.call_eq (way : Way) (nesting depth : Nat) {rounds : Nat} (hrounds : 2 ≤ rounds) :
    ∃ s', way.call (nested rounds nesting (depth + 4)) c.value s = .ok (.int (counts i + 1 : Nat)) s' ∧
      IsInUse ids root make s' counters (oneMore counts i) ∧ s.scopes.ExtendsBut c.own s'.scopes := by
  have hpos : rounds > 0 := Nat.lt_of_lt_of_le Nat.two_pos hrounds
  cases way with
  | applied scope =>
    refine ⟨c.counted s (counts i), ?_, h.counted hc, c.counted_extendsBut s _⟩
    have happly : (nested rounds nesting (depth + 4)).apply c.value [] scope s =
        .ok (.tailCall (.sym "n") s.scopes.size) (c.counted s (counts i)) :=
      h.applyClosure_eq hhome hc hpos
    have hcount := (h.steps_count hc nesting (depth + 3)).gives rounds hpos
    rw [Way.call, Evaluator.call, Action.limited, bind_of_ok happly, finish, hcount]
  | written id name =>
    -- The counter is called under a name in a scope of its own, so that the call is an expression.
    let s₁ := s.withScope rootScope [(name, c.value)]
    have hext : s.scopes.Extends s₁.scopes := Scopes.extends_push s.scopes _
    have h₁ : IsInUse ids root make s₁ counters counts :=
      h.extends (h.sees.tree_push _) hext fun _ _ hid => hid
    refine ⟨c.counted s₁ (counts i), ?_, h₁.counted hc, fun id scope hne hid =>
      c.counted_extendsBut s₁ _ id scope hne (hext id scope hid)⟩
    have hsees : s₁.scopes.Sees s.scopes.size ((envOf root).bind [(name, c.value)]) := h.sees.push _
    have htransformer : ((envOf root).bind [(name, c.value)]).transformer name = none := by
      show root.transformers.find? name = none
      rw [hhome.transformers]
      rfl
    have hcall : Steps nesting (depth + 3) (.call id name []) s.scopes.size s₁
        (.tailCall (.sym "n") s₁.scopes.size) (c.counted s₁ (counts i)) :=
      .procedure hsees (Env.value_bind_self _ name _) htransformer rfl (by simp) .nil
        fun _ hrounds => h₁.applyClosure_eq hhome hc hrounds
    have hcount := h₁.steps_count hc nesting (depth + 3)
    obtain ⟨fuel, rfl⟩ := Nat.exists_eq_add_of_le' hrounds
    refine (trampoline_tailCall (hcall _ hpos) (fuel + 1)).trans ?_
    exact trampoline_value (hcount _ hpos) (Nat.succ_pos fuel)

end

/-! ### The making of a counter -/

/-- The counter that is made next. -/
def nextCounter (s : Store) : Counter := ⟨s.closures.size, (s.withScope rootScope []).scopes.size⟩

/-- The scopes that another counter needs. -/
abbrev prepared (s : Store) : Store :=
  (s.withObject.withScope rootScope []).withScope s.scopes.size [("n", .int 0)]

/-- The store when another counter has been made. -/
def withCounter (ids : Nat → ObjectId) (s : Store) : Store :=
  { prepared s with closures := s.closures.push ⟨none, ⟨[], none⟩, counterBody ids, (nextCounter s).own⟩ }

theorem withCounter_extends (ids : Nat → ObjectId) (s : Store) :
    s.scopes.Extends (withCounter ids s).scopes :=
  fun _ _ hid => getElem?_push_of_some (getElem?_push_of_some hid _) _

/-- Another counter stands in the store, and has not been called. -/
theorem nextCounter_shows (ids : Nat → ObjectId) (s : Store) :
    (nextCounter s).Shows ids (withCounter ids s) 0 where
  closure := Array.getElem?_push_size
  own := ⟨s.scopes.size, Array.getElem?_push_size, getElem?_push_of_some Array.getElem?_push_size _⟩

/-- With another counter that has not been called. -/
theorem IsInUse.created (h : IsInUse ids root make s counters counts) (hfresh : counts counters.length = 0) :
    IsInUse ids root make (withCounter ids s) (counters ++ [nextCounter s]) counts := by
  have htree : (withCounter ids s).scopes.IsTree := (h.sees.push []).tree_push _
  have hold := h.extends htree (withCounter_extends ids s) fun _ _ hid => getElem?_push_of_some hid _
  -- Places of the longer row: those of the old counters, whose scopes are older, and that of the new one.
  have hcases : ∀ {i : Nat} {c : Counter}, (counters ++ [nextCounter s])[i]? = some c →
      counters[i]? = some c ∧ c.own ≠ (nextCounter s).own ∨ i = counters.length ∧ c = nextCounter s := by
    intro i c hc
    rw [List.getElem?_append] at hc
    split at hc
    next =>
      obtain ⟨_, hown, _⟩ := (h.shows i c hc).own
      have hnew : (nextCounter s).own = s.scopes.size + 1 := Array.size_push _
      exact .inl ⟨hc, Nat.ne_of_lt (hnew ▸ Nat.lt_succ_of_lt (Scopes.lt_size hown))⟩
    next hge =>
      rw [List.getElem?_singleton] at hc
      split at hc
      next hi => exact .inr ⟨by omega, (Option.some.inj hc).symm⟩
      next => exact nomatch hc
  exact
    { tree := htree
      root := hold.root
      maker := hold.maker
      shows := fun i c hc => by
        obtain ⟨hc, _⟩ | ⟨rfl, rfl⟩ := hcases hc
        · exact hold.shows i c hc
        · exact hfresh ▸ nextCounter_shows ids s
      apart := fun i j c d hc hd he => by
        obtain ⟨hc, hne⟩ | ⟨rfl, rfl⟩ := hcases hc
        · obtain ⟨hd, _⟩ | ⟨rfl, rfl⟩ := hcases hd
          · exact h.apart i j c d hc hd he
          · exact absurd he hne
        · obtain ⟨hd, hne⟩ | ⟨rfl, _⟩ := hcases hd
          · exact absurd he.symm hne
          · rfl }

/-- `(make-counter)` makes another counter. -/
theorem IsInUse.create_eq (hhome : IsHome root make) (h : IsInUse ids root make s counters counts)
    (id : ObjectId) (nesting depth : Nat) {rounds : Nat} (hrounds : 3 ≤ rounds) :
    (nested rounds nesting (depth + 4)).eval (.call id "make-counter" []) rootScope s =
      .ok (nextCounter s).value (withCounter ids s) := by
  have hpos : rounds > 0 := Nat.lt_of_lt_of_le (Nat.succ_pos 2) hrounds
  let s₁ := s.withObject.withScope rootScope []
  have hroot := h.sees
  have hcall : Steps nesting (depth + 3) (.call id "make-counter" []) rootScope s
      (.tailCall (makerBody ids) s.scopes.size) s₁ :=
    .closure hroot hhome.knows.value hhome.knows.transformer .nil h.maker rfl rfl
  have hsees₁ : s₁.scopes.Sees s.scopes.size ((envOf root).bind []) := hroot.push []
  have husual₁ : ((envOf root).bind []).IsUsual := hhome.usual.bind fun _ hname => nomatch hname
  have hnone : ∀ v ∈ ([] : List Value), v.isSelfEvaluating = true := fun _ hv => nomatch hv
  have hbind : Steps nesting (depth + 3) (makerBody ids) s.scopes.size s₁
      (.tailCall (.call (ids 5) "lambda" (.nil :: counterBody ids)) (nextCounter s).own) (prepared s) :=
    .bind hsees₁ husual₁ (.constant rfl) (ids 3, ids 4) hnone _
  have hsees₂ : (prepared s).scopes.Sees (nextCounter s).own (insideEnv root 0) := hsees₁.push _
  have hformals : Params.parse "lambda" .nil = .ok ⟨[], none⟩ := rfl
  have hlambda : Steps nesting (depth + 3) (.call (ids 5) "lambda" (.nil :: counterBody ids))
      (nextCounter s).own (prepared s) (.value (nextCounter s).value) (withCounter ids s) :=
    .form hsees₂ (insideEnv_usual hhome 0) .lambda rfl fun _ _ =>
      bind_of_ok (makeClosure_eq hformals none (counterBody ids) (nextCounter s).own)
  obtain ⟨fuel, rfl⟩ := Nat.exists_eq_add_of_le' hrounds
  refine (trampoline_tailCall (hcall _ hpos) (fuel + 2)).trans ?_
  refine (trampoline_tailCall (hbind _ hpos) (fuel + 1)).trans ?_
  exact trampoline_value (hlambda _ hpos) (Nat.succ_pos fuel)

/-! ### Runs -/

/-- Requests are served, and then every counter has counted its calls; by induction on the requests. -/
theorem IsInUse.serve_eq (hhome : IsHome root make) (h : IsInUse ids root make s counters counts)
    (hfresh : ∀ i ≥ counters.length, counts i = 0) {requests : List Request}
    (hanswerable : Answerable counters.length requests) (nesting depth : Nat) {rounds : Nat}
    (hrounds : 3 ≤ rounds) : ∃ (counters' : List Counter) (s' : Store),
      serve (nested rounds nesting (depth + 4)) (counters.map Counter.value) requests s =
        .ok (counters'.map Counter.value) s' ∧
      counters'.length = counters.length + creations requests ∧
      IsInUse ids root make s' counters' fun i => calls i requests + counts i := by
  -- Over the requests, with the counters and counts that those before have left.
  induction requests generalizing s counters counts with
  | nil =>
    refine ⟨counters, s, rfl, rfl, ?_⟩
    simp only [calls, Nat.zero_add]
    exact h
  | cons request more ih =>
    cases request with
    | create id =>
      have hcreate := h.create_eq hhome id nesting depth hrounds
      have hlength : (counters ++ [nextCounter s]).length = counters.length + 1 := List.length_append
      obtain ⟨counters', s', hserve, hmade, hin⟩ := ih (h.created (hfresh _ (Nat.le_refl _)))
        (fun i hi => hfresh i (by omega)) (hlength ▸ hanswerable)
      refine ⟨counters', s', ?_, ?_, hin⟩
      · rw [List.map_append] at hserve
        exact (bind_of_ok hcreate).trans hserve
      · rw [hmade, hlength, creations]
        omega
    | call i way =>
      obtain ⟨hi, hanswerable⟩ := hanswerable
      have hc : counters[i]? = some counters[i] := List.getElem?_eq_getElem hi
      obtain ⟨s₁, hcall, hin₁, _⟩ := h.call_eq hhome hc way nesting depth (Nat.le_of_succ_le hrounds)
      have hfresh₁ : ∀ j ≥ counters.length, oneMore counts i j = 0 := by
        intro j hj
        rw [oneMore, if_neg (by omega), hfresh j hj]
      obtain ⟨counters', s', hserve, hmade, hin⟩ := ih hin₁ hfresh₁ hanswerable
      refine ⟨counters', s', ?_, hmade, ?_⟩
      · have hget : Action.orFault .operandMissing (counters.map Counter.value)[i]? s =
            .ok counters[i].value s := by
          rw [List.getElem?_map, hc]
          rfl
        exact (bind_of_ok hget).trans ((bind_of_ok hcall).trans hserve)
      · simp only [oneMore, ← Nat.add_assoc] at hin
        simp only [calls, Nat.add_comm (if i = _ then 1 else 0)]
        exact hin

/-! ### In a session -/

/-- The root after the definition of the procedure that makes counters. -/
def home (make : ClosureId) : Scope := ⟨initialBindings.put "make-counter" (.atom (.closure make)), [], none⟩

theorem envOf_home (make : ClosureId) :
    envOf (home make) = Env.initial.define "make-counter" (.atom (.closure make)) := by
  have hvalue : ∀ name, (envOf (home make)).value name =
      (Env.initial.define "make-counter" (.atom (.closure make))).value name := fun name =>
    Table.find?_put_eq _ name _ _
  exact congrArg (fun value => (⟨value, fun _ => none⟩ : Env)) (funext hvalue)

theorem home_isHome (make : ClosureId) : IsHome (home make) make where
  usual := envOf_home make ▸ Env.initial_isUsual.define (by decide +kernel) _
  transformers := rfl
  knows := envOf_home make ▸ ⟨Env.value_define_self _ _ _, rfl⟩

/-- After the definition no counter has been made. -/
theorem isInUse_defined (ids : Nat → ObjectId) {s : Store} (htree : s.scopes.IsTree)
    (hroot : s.scopes[rootScope]? = some ⟨initialBindings, [], none⟩) :
    IsInUse ids (home s.closures.size) s.closures.size
      (s.withProcedure rootScope (maker ids) "make-counter") [] fun _ => 0 where
  tree := htree.define _ _ _
  root := Scopes.getElem?_define_self hroot _ _
  maker := Array.getElem?_push_size
  shows _ _ hc := nomatch hc
  apart _ _ _ _ hc := nomatch hc

end

/-- The source of the procedure that makes counters. -/
def makerSource : Text := "(define (make-counter) (let ((n 0)) (lambda () (set! n (+ n 1)) n)))"

theorem readAll_makerSource (s : Store) (ids : Nat → ObjectId) :
    readAll nestingLimit makerSource = ⟨[s.datum (definition ids)], none⟩ := by
  rw [makerSource, Text.ofString_ofList]
  rfl

/-- The identities in the code of the source, when it is made from an identity on. -/
def makerIds (start : ObjectId) (i : Nat) : ObjectId := start + [9, 6, 16, 3, 2, 13, 19, 0].getD i 0

theorem build_definition (s : Store) (ids : Nat → ObjectId) (start : ObjectId) :
    (s.datum (definition ids)).build start = (definition (makerIds start), start + 20) := rfl

/-- The source defines the procedure in the root. -/
theorem evaluate_makerSource {s : Store} (hroot : s.InRoot Env.initial) {rounds : Nat} (hrounds : rounds > 0)
    (depth : Nat) : Session.evaluate (nested rounds nestingLimit (depth + 4)) makerSource s = .ok .void
      (Store.withProcedure { s with nextObject := s.nextObject + 20 } rootScope
        (maker (makerIds s.nextObject)) "make-counter") := by
  let s₁ := { s with nextObject := s.nextObject + 20 }
  have hroot₁ : s₁.InRoot Env.initial := ⟨hroot.sees, hroot.usual⟩
  have hbuild := build_definition s (makerIds s.nextObject) s.nextObject
  have hinstantiate : Action.instantiate (s.datum (definition (makerIds s.nextObject))) s =
      .ok (definition (makerIds s.nextObject)) s₁ := by
    rw [Action.instantiate_eq_build rfl, hbuild]
  have hformals : Params.parse "define" (.assemble (makerIds s.nextObject 7) [] none) = .ok ⟨[], none⟩ := rfl
  have hdefine : Gives nestingLimit (depth + 4) (definition (makerIds s.nextObject)) rootScope s₁ .void
      (s₁.withProcedure rootScope (maker (makerIds s.nextObject)) "make-counter") :=
    (Steps.defineProcedure hroot₁.sees hroot₁.usual hformals (List.cons_ne_nil _ [])).gives
  have hbound : (nested rounds nestingLimit (depth + 4)).nesting = nestingLimit := rfl
  rw [Session.evaluate, hbound, readAll_makerSource s (makerIds s.nextObject)]
  refine (bind_of_ok ?_).trans rfl
  rw [Action.limited, Evaluator.evalData, bind_of_ok hinstantiate, hdefine rounds hrounds]

/-- In a fresh session with the procedure that makes counters, and after any requests, every counter has a
scope that is that of no other one. However it is called, it gives the number of its own calls, this one
included, and no scope but its own changes. -/
theorem counters_count_their_own_calls {depth rounds : Nat} (hdepth : 4 ≤ depth) (hrounds : 3 ≤ rounds)
    (input : Text) (files : FileTree) (directory : Path) (loadRoots : List Path) {before : List Request}
    (hbefore : Answerable 0 before) :
    let fresh := Session.initialStore input files directory loadRoots
    let ev := Bounds.evaluator ⟨depth, rounds, nestingLimit⟩
    ∃ (s₀ s₁ : Store) (counters : List Counter),
      Session.evaluate ev makerSource fresh = .ok .void s₀ ∧
      serve ev [] before s₀ = .ok (counters.map Counter.value) s₁ ∧
      counters.length = creations before ∧
      (counters.map Counter.own).Nodup ∧
      ∀ (i : Nat) (c : Counter), counters[i]? = some c →
        s₁.closures[c.closure]?.map Closure.scope = some c.own ∧
        ∀ way : Way, ∃ s₂, way.call ev c.value s₁ = .ok (.int (calls i before + 1 : Nat)) s₂ ∧
          s₁.scopes.ExtendsBut c.own s₂.scopes := by
  intro fresh ev
  obtain ⟨depth, rfl⟩ := Nat.exists_eq_add_of_le' hdepth
  have hroot : fresh.InRoot Env.initial :=
    ⟨Session.initialStore_sees input files directory loadRoots, Env.initial_isUsual⟩
  have hdefine := evaluate_makerSource hroot (Nat.lt_of_lt_of_le (Nat.succ_pos 2) hrounds) depth
  have hhome := home_isHome fresh.closures.size
  -- After the definition no counter is there, and any counts do: the invariant begins with none.
  have hdefined := isInUse_defined (s := { fresh with nextObject := fresh.nextObject + 20 })
    (makerIds fresh.nextObject) hroot.sees.tree rfl
  obtain ⟨counters, s₁, hserve, hmade, hin⟩ :=
    hdefined.serve_eq hhome (fun _ _ => rfl) hbefore nestingLimit depth hrounds
  refine ⟨_, s₁, counters, hdefine, hserve, hmade.trans (Nat.zero_add _), ?_,
    fun i c hc => ⟨?_, fun way => ?_⟩⟩
  · rw [List.Nodup, List.pairwise_map, List.pairwise_iff_getElem]
    intro i j hi hj hlt he
    have hij := hin.apart i j _ _ (List.getElem?_eq_getElem hi) (List.getElem?_eq_getElem hj) he
    exact Nat.ne_of_lt hlt hij
  · rw [(hin.shows i c hc).closure]
    rfl
  · obtain ⟨s₂, hcall, _, hframe⟩ := hin.call_eq hhome hc way nestingLimit depth (Nat.le_of_succ_le hrounds)
    exact ⟨s₂, hcall, hframe⟩

/-- Two counters in turns, the second one called under the name of the operation that it needs. -/
theorem counters_count_their_own_calls_two :
    let before : List Request := [.create 0, .call 0 (.applied 0), .create 1, .call 1 (.written 2 "+")]
    let ev := Bounds.evaluator ⟨4, 3, nestingLimit⟩
    4 ≤ 4 ∧ 3 ≤ 3 ∧ Answerable 0 before ∧ ∃ (s₀ s₁ s₂ : Store) (counters : List Counter) (c : Counter),
      serve ev [] before s₀ = .ok (counters.map Counter.value) s₁ ∧ counters[0]? = some c ∧
      (Way.written 3 "c").call ev c.value s₁ = .ok (.int (1 + 1 : Nat)) s₂ := by
  intro before ev
  have hbefore : Answerable 0 before := ⟨Nat.one_pos, Nat.lt_succ_self 1, trivial⟩
  obtain ⟨s₀, s₁, counters, _, hserve, hmade, _, hcalls⟩ := counters_count_their_own_calls (Nat.le_refl 4)
    (Nat.le_refl 3) [] ⟨[], [], ⟨[], []⟩, []⟩ ⟨[], []⟩ [] hbefore
  have hi : 0 < counters.length := hmade ▸ Nat.two_pos
  have hc := List.getElem?_eq_getElem hi
  obtain ⟨s₂, hcall, _⟩ := (hcalls 0 _ hc).2 (.written 3 "c")
  exact ⟨Nat.le_refl 4, Nat.le_refl 3, hbefore, s₀, s₁, s₂, counters, counters[0], hserve, hc, hcall⟩

end Counters

end Lisplet
