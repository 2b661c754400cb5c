import Lisplet.Proofs.PreludeRules

/-!
# Searches of lists

`member`, `assq` and `assoc` test a key with something of each item, from the first one on, and end at the first
item that the test accepts. They only differ in the test, in what they test of an item, and in what they give when
they have found it, so they are searches of one shape.
-/

namespace Lisplet

open Evaluator
open Datum (call)

namespace Prelude

/-- A search: its name, its test, the variables for the key and the list, and the code for what is tested of the
first item and for what is given when it is accepted. -/
structure Search where
  name : Text
  test : TestOp
  key : Text
  list : Text
  item : Datum
  result : Datum

namespace Search

/-- The code of a search: an empty list ends it, and so does an item that the test accepts. -/
def body (k : Search) : Datum :=
  call "cond" [.ofList [call "null?" [.sym k.list], .bool false],
    .ofList [call k.test.name [.sym k.key, k.item], k.result],
    .ofList [.sym "else", call k.name [.sym k.key, call "cdr" [.sym k.list]]]]

def definition (k : Search) : Definition := ⟨k.name, ⟨[k.key, k.list], none⟩, [k.body]⟩

/-- What its variables are bound to. -/
abbrev bound (k : Search) (key list : Value) : Table Value := [(k.key, key), (k.list, list)]

/-- The search is one of the prelude, with a test of two values, different variables and an expression that is given
for an item that is accepted. -/
structure IsShared (k : Search) : Prop where
  mem : k.definition ∈ shared
  test : k.test.name ∈ builtinNames
  arity : k.test.arity.accepts 2 = true
  names : ∀ name ∈ [k.key, k.list], name ∈ ownNames
  different : k.key ≠ k.list
  result : ∀ start, (k.result.code start).isSymbol Forms.arrowName = false

theorem found_key (k : Search) (key list : Value) : Store.found k.key [k.bound key list] = some key := by
  rw [Store.found, Table.find?_cons_self]
  rfl

namespace IsShared

variable {k : Search} (hk : k.IsShared) (key list : Value)

include hk

theorem found_list : Store.found k.list [k.bound key list] = some list := by
  rw [Store.found, Table.find?_cons_of_ne hk.different, Table.find?_cons_self]
  rfl

theorem bindings_eq (id : ObjectId) : k.definition.params.bindings id [key, list] = k.bound key list := by
  show Table.put k.list list (Table.put k.key key []) = _
  rw [Table.put, Table.put, Text.same_eq_false hk.different]
  rfl

end IsShared

/-- What is tested of a first item makes the search accept it or not, and what is given for one is made of it and the
items behind it. -/
structure Does (k : Search) (s₀ : Store) (key : Value) (nesting depth : Nat) (good : Value → Prop)
    (accepts : Value → Bool) (made : Value → List Value → Value → Prop) : Prop where
  item {s : Store} {scope : ScopeId} {list x : Value} {xs : List Value} (start : ObjectId) (hprepares : s₀.Prepares s)
    (hs : s.KnowsNames) (hstack : s.Stack (fun _ => True) scope [k.bound key list]) (hrow : list.IsRow (x :: xs))
    (hx : good x) : Comes nesting (depth + 1) (k.item.code start) scope s (fun v s' => s.Prepares s' ∧
      k.test.run [key, v] s' = .ok (.bool (accepts x)) s') fun _ _ => False
  result {s : Store} {scope : ScopeId} {list x : Value} {xs : List Value} (start : ObjectId)
    (hprepares : s₀.Prepares s) (hs : s.KnowsNames) (hstack : s.Stack (fun _ => True) scope [k.bound key list])
    (hrow : list.IsRow (x :: xs)) (hx : good x) : Comes nesting (depth + 3) (k.result.code start) scope s
      (fun v s' => s.Prepares s' ∧ made x xs v) fun _ _ => False

/-- What a search comes to: it is made of the first item that is accepted and the items behind it, or false. -/
def Finds (accepts : Value → Bool) (made : Value → List Value → Value → Prop) (xs : List Value) (v : Value) : Prop :=
  match xs.dropWhile fun x => !accepts x with
  | [] => v = .bool false
  | x :: xs => made x xs v

section

variable {accepts : Value → Bool} {made : Value → List Value → Value → Prop} {x v : Value} {xs : List Value}

theorem finds_cons_of_true (h : accepts x = true) : Finds accepts made (x :: xs) v ↔ made x xs v := by
  rw [Finds, List.dropWhile_cons_of_neg (by simp [h])]

theorem finds_cons_of_false (h : accepts x = false) :
    Finds accepts made (x :: xs) v ↔ Finds accepts made xs v := by
  rw [Finds, List.dropWhile_cons_of_pos (by simp [h]), Finds]

variable {k : Search} {s₀ s : Store} {key list : Value} {nesting depth : Nat} {good : Value → Prop} {scope : ScopeId}

theorem body_comes (hk : k.IsShared) (hdoes : k.Does s₀ key nesting depth good accepts made)
    (hgood : ∀ x ∈ xs, good x) (hprepares : s₀.Prepares s) (hs : s.KnowsNames)
    (hstack : s.Stack (fun _ => True) scope [k.bound key list]) (hrow : list.IsRow xs) (start : ObjectId) :
    Comes nesting (depth + 3) (k.body.code start) scope s (fun v s' => s₀.Prepares s' ∧ Finds accepts made xs v)
      fun _ _ => False := by
  induction xs generalizing s scope list start with
  | nil =>
    refine hstack.comes_cond hs rfl (tryClauses_cons_leads rfl rfl ?_)
    refine hstack.comes_isNull hs (hstack.comes_name hs (hk.found_list key list) ?_)
    rw [hrow.isNil_eq]
    exact .bool ⟨hprepares, rfl⟩
  | cons x xs ih =>
    have hx := hgood x List.mem_cons_self
    refine hstack.comes_cond hs rfl (tryClauses_cons_leads rfl rfl ?_)
    refine hstack.comes_isNull hs (hstack.comes_name hs (hk.found_list key list) ?_)
    rw [hrow.isNil_eq]
    refine tryClauses_cons_leads rfl (hk.result _) (hstack.comes_test hs k.test hk.test hk.arity ?_)
    refine hstack.comes_name hs (k.found_key key list) ((hdoes.item _ hprepares hs hstack hrow hx).mono ?_)
    rintro v s₁ ⟨hprepares₁, hrun⟩
    refine ⟨accepts x, hrun, ?_⟩
    have hs₁ := hs.prepares hprepares₁
    have hstack₁ := hstack.prepares hprepares₁
    cases hx' : accepts x with
    | true =>
      refine (hdoes.result _ (hprepares.trans hprepares₁) hs₁ hstack₁ hrow hx).mono ?_
      exact fun w s₂ ⟨hprepares₂, hmade⟩ =>
        ⟨(hprepares.trans hprepares₁).trans hprepares₂, (finds_cons_of_true hx').mpr hmade⟩
    | false =>
      obtain ⟨_, hv, c, start', rfl, hc⟩ := hs₁.shared k.definition hk.mem
      refine tryClauses_else_leads ?_
      refine .procedure (hstack₁.means_global hs₁ hv ?_) rfl (by simp) ?_
      · exact List.mem_append_right _ (List.mem_map_of_mem hk.mem)
      refine operands_cons_leads (hstack₁.comes_name hs₁ (k.found_key key list) (operands_cons_leads ?_))
      refine hstack₁.comes_cdr hs₁ (hstack₁.comes_name hs₁ (hk.found_list key list) ⟨x, xs, hrow, ?_⟩)
      refine operands_nil_leads (definition_leads rfl (s := s₁.withObject) hc rfl ?_)
      rw [hk.bindings_eq]
      have hobject := (hprepares.trans hprepares₁).withObject
      obtain ⟨hprepares₂, hs₂, hstack₂⟩ := (hs₁.prepares (Store.Prepares.refl s₁).withObject).entering hobject
        (fun _ => True) (t := k.bound key (.ofList s₁.nextObject xs)) hk.names
      refine (ih (fun y hy => hgood y (List.mem_cons_of_mem x hy)) hprepares₂ hs₂
        (hstack₂.mono fun _ _ _ => trivial) (.ofList _ xs) start').mono ?_
      exact fun w s₃ ⟨hprepares₃, hfinds⟩ => ⟨hprepares₃, (finds_cons_of_false hx').mpr hfinds⟩

/-- A search comes to what it finds. -/
theorem IsShared.comesTo (hk : k.IsShared) (extra : Nat)
    (hdoes : ∀ nesting depth, k.Does s key nesting (depth + extra) good accepts made) (hgood : ∀ x ∈ xs, good x)
    (hs : s.KnowsNames) (hrow : list.IsRow xs) :
    s.ComesTo k.definition [key, list] (Finds accepts made xs) (extra + 4) := by
  obtain ⟨_, hv, c, start, rfl, hc⟩ := hs.shared k.definition hk.mem
  refine ⟨_, hv, fun nesting depth scope hdepth => ?_⟩
  obtain ⟨room, rfl⟩ := Nat.exists_eq_add_of_le' hdepth
  obtain ⟨hprepares, hs', hstack⟩ := hs.entering (.refl s) (fun _ => True) (t := k.bound key list) hk.names
  have hstack := hstack.mono fun _ _ _ => trivial
  have hbody := body_comes hk (hdoes nesting room) hgood hprepares hs' hstack hrow start
  rw [← hk.bindings_eq key list s.nextObject] at hbody
  have hcall : LeadsTo (fun rounds => (nested rounds nesting (room + (extra + 4))).call (.atom (.closure c)) [key, list]
      scope) s (fun v s' => s.Prepares s' ∧ Finds accepts made xs v) fun _ _ => False :=
    call_leads (by omega) (fun _ _ => False.elim) (definition_leads rfl hc rfl hbody)
  obtain ⟨v, s', hfinds, hrun⟩ := hcall.exists_ok
  exact ⟨v, s', hfinds.2, hrun⟩

end

/-! ### The searches of the prelude -/

/-- The search of a list for an item. -/
def member : Search := ⟨"member", .equal, "x", "l", call "car" [.sym "l"], .sym "l"⟩

/-- The search of a list of lists for one by its first item. -/
def association (name : Text) (test : TestOp) : Search :=
  ⟨name, test, "key", "alist", call "caar" [.sym "alist"], call "car" [.sym "alist"]⟩

theorem member_isShared : member.IsShared where
  mem := List.mem_of_getElem? (i := 5) rfl
  test := by decide
  arity := rfl
  names := by decide
  different := by decide
  result _ := rfl

theorem assq_isShared : (association "assq" .same).IsShared where
  mem := List.mem_of_getElem? (i := 3) rfl
  test := by decide
  arity := rfl
  names := by decide
  different := by decide
  result _ := rfl

theorem assoc_isShared : (association "assoc" .equal).IsShared where
  mem := List.mem_of_getElem? (i := 4) rfl
  test := by decide
  arity := rfl
  names := by decide
  different := by decide
  result _ := rfl

/-- `member` tests the items themselves and gives the list from the item on. -/
theorem member_does (s : Store) (key : Value) (nesting depth : Nat) :
    member.Does s key nesting depth (fun _ => True) (Value.equal s.content key) fun x xs v => v.IsRow (x :: xs) where
  item {s' scope list x xs} start hprepares hs hstack hrow _ := by
    refine hstack.comes_car hs (hstack.comes_name hs rfl ⟨x, hrow.head_eq, .refl s', ?_⟩)
    rw [← hprepares.content_eq]
    rfl
  result start hprepares hs hstack hrow _ := hstack.comes_name hs rfl ⟨.refl _, hrow⟩

/-- The first item of a list is the same as a key. -/
def hasKey (same : Value → Value → Bool) (key x : Value) : Bool := x.head?.elim false (same key)

/-- Associations are tested by their first items and given themselves. -/
theorem association_does {name : Text} {test : TestOp} {same : Value → Value → Bool} {s : Store}
    (htest : ∀ s', s.Prepares s' → ∀ v w, test.run [v, w] s' = .ok (.bool (same v w)) s') (key : Value)
    (nesting depth : Nat) : (association name test).Does s key nesting (depth + 1) (fun x => x.head?.isSome)
      (hasKey same key) fun x _ v => v = x where
  item {s' scope list x xs} start hprepares hs hstack hrow hx := by
    obtain ⟨k, hk⟩ := Option.isSome_iff_exists.mp hx
    refine hstack.comes_caar hs rfl hrow.head_eq hk fun s'' hprepares' => ⟨hprepares', ?_⟩
    refine (htest s'' (hprepares.trans hprepares') key k).trans ?_
    rw [hasKey, hk]
    rfl
  result {s' scope list x xs} start hprepares hs hstack hrow _ :=
    hstack.comes_car hs (hstack.comes_name hs rfl ⟨x, hrow.head_eq, .refl s', rfl⟩)

end Search

end Prelude

end Lisplet
