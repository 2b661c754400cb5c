import Lisplet.Proofs.CallsInTurn
import Lisplet.Proofs.ListProcedures

/-!
# Rules for the code of the prelude

The code of the prelude is calls of a few forms and list procedures by their names. Where the names mean what they
should, each of these calls has a rule that asks for its operands only.
-/

namespace Lisplet

/-! ### Rows of items -/

/-- A value is the proper list of these items. -/
structure Value.IsRow (v : Value) (xs : List Value) : Prop where
  proper : v.isProper = true
  items : v.items = xs

namespace Value.IsRow

variable {v w x : Value} {xs : List Value}

theorem of_isProper (h : v.isProper = true) : v.IsRow v.items := ⟨h, rfl⟩

theorem nil : Value.nil.IsRow [] := ⟨rfl, rfl⟩

theorem ofList (id : ObjectId) (xs : List Value) : (Value.ofList id xs).IsRow xs :=
  ⟨by cases xs <;> rfl, items_assemble id xs none⟩

theorem cons (h : w.IsRow xs) (id : ObjectId) (x : Value) : (Value.cons id x w).IsRow (x :: xs) := by
  refine ⟨?_, by rw [items_cons, h.items]⟩
  cases w with
  | atom a => exact nomatch h.proper
  | nil => rfl
  | list id head rest last =>
    cases last with
    | none => rfl
    | some a => exact nomatch h.proper

theorem isNil_eq (h : v.IsRow xs) : v.isNil = xs.isEmpty := by
  obtain ⟨hproper, rfl⟩ := h
  cases v with
  | atom a => exact nomatch hproper
  | nil => rfl
  | list id head rest last => rfl

theorem head_eq (h : v.IsRow (x :: xs)) : v.head? = some x := by
  obtain ⟨hproper, hitems⟩ := h
  cases v with
  | atom a => exact nomatch hproper
  | nil => exact nomatch hitems
  | list id head rest last => rw [← (List.cons.inj hitems).1]; rfl

theorem tail_eq (h : v.IsRow (x :: xs)) (id : ObjectId) : v.tail? id = some (.ofList id xs) := by
  obtain ⟨hproper, hitems⟩ := h
  cases v with
  | atom a => exact nomatch hproper
  | nil => exact nomatch hitems
  | list id' head rest last =>
    cases last with
    | none => rw [← (List.cons.inj hitems).2]; rfl
    | some a => exact nomatch hproper

/-- A row is a chain that ends in the empty list. -/
theorem isChain (h : v.IsRow xs) : v.IsChain xs none :=
  isChain_iff.mpr ⟨h.items, (isProper_iff.mp h.proper).2⟩

end Value.IsRow

/-! ### Calls by name -/

namespace Store.Stack

open Evaluator

variable {own : ScopeId → Prop} {scope : ScopeId} {ts : List (Table Value)} {s : Store}
  (h : s.Stack own scope ts) (hs : s.KnowsNames) {nesting depth : Nat} {id : ObjectId} {x : Text} {v : Value}
  {expr : Value} {operands : List Value} {post : Value → Store → Prop} {failing : Signal → Store → Prop}

include h hs

theorem comes_name (hx : found x ts = some v) (hpost : post v s) :
    Comes nesting depth (.sym x) scope s post failing := .name (h.means hs hx).value hpost

theorem comes_isNull (harg : Comes nesting depth expr scope s (fun v s' => post (.bool v.isNil) s') failing) :
    Comes nesting (depth + 1) (.call id "null?" [expr]) scope s post failing :=
  .lists_one .isNull (h.means_primitive hs (.lists .isNull) (by decide)) rfl
    (harg.mono fun _ s' hpost => ⟨_, s', rfl, hpost⟩)

theorem comes_car (harg : Comes nesting depth expr scope s (fun v s' => ∃ a, v.head? = some a ∧ post a s') failing) :
    Comes nesting (depth + 1) (.call id "car" [expr]) scope s post failing :=
  .lists_one .car (h.means_primitive hs (.lists .car) (by decide)) rfl
    (harg.mono fun _ s' ⟨a, ha, hpost⟩ => ⟨a, s', ListOp.run_car ha s', hpost⟩)

theorem comes_cdr (harg : Comes nesting depth expr scope s (fun v s' => ∃ a xs, v.IsRow (a :: xs) ∧
      post (.ofList s'.nextObject xs) s'.withObject) failing) :
    Comes nesting (depth + 1) (.call id "cdr" [expr]) scope s post failing :=
  .lists_one .cdr (h.means_primitive hs (.lists .cdr) (by decide)) rfl
    (harg.mono fun _ s' ⟨_, _, hrow, hpost⟩ => ⟨_, _, ListOp.run_cdr (hrow.tail_eq _), hpost⟩)

theorem comes_reverse (harg : Comes nesting depth expr scope s (fun v s' => ∃ xs, v.IsRow xs ∧
      post (.ofList s'.nextObject xs.reverse) s'.withObject) failing) :
    Comes nesting (depth + 1) (.call id "reverse" [expr]) scope s post failing :=
  .lists_one .reverse (h.means_primitive hs (.lists .reverse) (by decide)) rfl
    (harg.mono fun _ s' ⟨_, hrow, hpost⟩ => ⟨_, _, hrow.items ▸ ListOp.run_reverse hrow.proper s', hpost⟩)

theorem comes_cons {expr' : Value} (hargs : Comes nesting depth expr scope s (fun v s' =>
      Comes nesting depth expr' scope s' (fun w s'' => post (.cons s''.nextObject v w) s''.withObject) failing)
      failing) :
    Comes nesting (depth + 1) (.call id "cons" [expr, expr']) scope s post failing :=
  .cons (h.means_primitive hs (.lists .cons) (by decide)) hargs

theorem comes_quotedNil (hpost : post .nil s) :
    Comes nesting (depth + 1) (.call id "quote" [.nil]) scope s post failing :=
  .quote (h.means_form hs .quote (by decide)) hpost

theorem comes_if {test yes no : Value} (htest : Comes nesting depth test scope s (fun t s' =>
      Comes nesting (depth + 1) (if t.isTruthy then yes else no) scope s' post failing) failing) :
    Comes nesting (depth + 1) (.call id "if" [test, yes, no]) scope s post failing :=
  .conditional (h.means_form hs .conditional (by decide)) htest

theorem comes_cond {clauses : List Value} (hcheck : Forms.checkClauses nesting clauses = pure ())
    (htry : LeadsTo (fun rounds => Forms.tryClauses (nested rounds nesting (depth + 1)) scope clauses) s
      (Onward nesting (depth + 1) post failing) failing) :
    Comes nesting (depth + 1) (.call id "cond" clauses) scope s post failing :=
  .cond (h.means_form hs .cond (by decide)) hcheck htry

/-- A call of a procedure that is bound in one of the scopes. -/
theorem comes_procedure {a : Atom} (hx : found x ts = some (.atom a)) (ha : a.kind = .procedure)
    (hform : ∀ f, a ≠ .form f)
    (hargs : LeadsTo (fun rounds => (nested rounds nesting (depth + 1)).operands scope operands) s (fun args s' =>
      LeadsTo (fun rounds => (nested rounds nesting (depth + 1)).applyStep (.atom a) args scope) s'
        (Onward nesting (depth + 1) post failing) failing) failing) :
    Comes nesting (depth + 1) (.call id x operands) scope s post failing :=
  .procedure (h.means hs hx) ha hform hargs

/-- A test of two values. -/
theorem comes_test {expr' : Value} (op : TestOp) (hname : op.name ∈ Prelude.builtinNames)
    (harity : op.arity.accepts 2 = true)
    (hargs : Comes nesting depth expr scope s (fun v s' => Comes nesting depth expr' scope s' (fun w s'' =>
      ∃ b, op.run [v, w] s'' = .ok (.bool b) s'' ∧ post (.bool b) s'') failing) failing) :
    Comes nesting (depth + 1) (.call id op.name [expr, expr']) scope s post failing :=
  .tests_two op (h.means_primitive hs (.tests op) hname) harity hargs

/-- The first item of the first item of a list. -/
theorem comes_caar {e k : Value} (hx : found x ts = some v) (hv : v.head? = some e) (he : e.head? = some k)
    (hpost : ∀ s', s.Prepares s' → post k s') :
    Comes nesting (depth + 2) (.call id "caar" [.sym x]) scope s post failing := by
  obtain ⟨v₀, hv₀, c, start, rfl, hc⟩ := hs.shared Prelude.caar (List.mem_of_getElem? (i := 0) rfl)
  refine .procedure (h.means_global hs hv₀ (by decide)) rfl (by simp) ?_
  refine operands_cons_leads (h.comes_name hs hx (operands_nil_leads ?_))
  obtain ⟨hprepares, hs', hstack⟩ := hs.entering (.refl s) own (t := [("x", v)])
    (show ∀ name ∈ (["x"] : List Text), name ∈ Prelude.ownNames by decide)
  refine definition_leads rfl hc rfl ?_
  refine hstack.comes_car hs' (hstack.comes_car hs' (hstack.comes_name hs' rfl ⟨e, hv, k, he, ?_⟩))
  exact hpost _ hprepares

end Store.Stack

/-! ### Loops of two variables -/

namespace Store

open Evaluator

/-- A loop of two variables stands in a store: its procedure, and the scope in which it sees itself, inside others. -/
structure HasLoop (s : Store) (own : ScopeId → Prop) (ts : List (Table Value)) (c : ClosureId) (home : ScopeId)
    (x y : Text) (body : Value) : Prop where
  closure : s.closures[c]? = some ⟨some "loop", ⟨[x, y], none⟩, [body], home⟩
  stack : s.Stack own home ([("loop", .atom (.closure c))] :: ts)

/-- The scope of one round of a loop. -/
abbrev withRound (s : Store) (home : ScopeId) (x y : Text) (v w : Value) : Store :=
  s.entering home (Params.bindings ⟨[x, y], none⟩ s.nextObject [v, w])

variable {own : ScopeId → Prop} {ts : List (Table Value)} {c : ClosureId} {home scope : ScopeId} {x y : Text}
  {body : Value} {s s' s'' : Store}

theorem HasLoop.keeps (h : s.HasLoop own ts c home x y body) (h' : s.KeepsNames own s') (hevolves : s.Evolves s') :
    s'.HasLoop own ts c home x y body := ⟨hevolves.closure_stays h.closure, h.stack.keeps h' hevolves⟩

theorem HasLoop.later (h : s'.HasLoop (withNew own s s') ts c home x y body) (h' : s'.Prepares s'') :
    s''.HasLoop (withNew own s s'') ts c home x y body := ⟨h'.closures _ _ h.closure, h.stack.later h'⟩

theorem HasLoop.turn (h : s.HasLoop own ts c home x y body) : s.HasLoop (withNew own s s) ts c home x y body :=
  ⟨h.closure, h.stack.turn⟩

/-- A new loop among the preparations. -/
theorem Stack.withLoop (h : s'.Stack (withNew own s s') scope ts) (hprepares : s.Prepares s') (hs : s'.KnowsNames)
    (x y : Text) (body : Value) : s.Prepares (s'.withLoop scope "loop" ⟨[x, y], none⟩ body) ∧
      (s'.withLoop scope "loop" ⟨[x, y], none⟩ body).KnowsNames ∧
      (s'.withLoop scope "loop" ⟨[x, y], none⟩ body).Stack
        (withNew own s (s'.withLoop scope "loop" ⟨[x, y], none⟩ body)) scope ts ∧
      (s'.withLoop scope "loop" ⟨[x, y], none⟩ body).HasLoop
        (withNew own s (s'.withLoop scope "loop" ⟨[x, y], none⟩ body)) ts s'.closures.size s'.scopes.size x y body := by
  have hscope := h.lt_size hs.wellFormed
  have hloop := (Prepares.refl s').withLoop hscope "loop" ⟨[x, y], none⟩ body
  have hstack := h.enter hprepares hs.wellFormed [("loop", .atom (.closure s'.closures.size))]
    (show ∀ name ∈ (["loop"] : List Text), name ∈ Prelude.ownNames by decide)
  exact ⟨hprepares.trans hloop, hs.prepares hloop, h.later hloop, Array.getElem?_push_size, hstack.congr rfl⟩

/-- The next round of a loop. -/
theorem HasLoop.withRound (h : s'.HasLoop (withNew own s s') ts c home x y body) (hprepares : s.Prepares s')
    (hs : s'.KnowsNames) (v w : Value)
    (hnames : ∀ name ∈ Table.names (Params.bindings ⟨[x, y], none⟩ s'.nextObject [v, w]),
      name ∈ Prelude.ownNames) :
    s.Prepares (s'.withRound home x y v w) ∧ (s'.withRound home x y v w).KnowsNames ∧
      (s'.withRound home x y v w).HasLoop (withNew own s (s'.withRound home x y v w)) ts c home x y body ∧
      (s'.withRound home x y v w).Stack (withNew own s (s'.withRound home x y v w)) s'.scopes.size
        (Params.bindings ⟨[x, y], none⟩ s'.nextObject [v, w] :: [("loop", .atom (.closure c))] :: ts) := by
  obtain ⟨hprepares', hs', hstack⟩ := h.stack.entering hprepares hs hnames
  refine ⟨hprepares', hs', h.later ?_, hstack⟩
  exact (Prepares.refl s').withObject.withScope (h.stack.lt_size hs.wellFormed) _

/-- A loop that is called goes on with its body in the next round. -/
theorem HasLoop.leads (h : s.HasLoop own ts c home x y body) {nesting depth : Nat} {v w : Value}
    {post : Value → Store → Prop} {failing : Signal → Store → Prop}
    (hbody : Comes nesting (depth + 1) body s.scopes.size (s.withRound home x y v w) post failing) :
    LeadsTo (fun rounds => (nested rounds nesting (depth + 1)).applyStep (.atom (.closure c)) [v, w] scope) s
      (Onward nesting (depth + 1) post failing) failing :=
  applyClosure_leads h.closure rfl (sequence_last_leads hbody)

end Store

/-- The code of a loop is a named binding form. -/
theorem Prelude.exists_code_loop (x y : Text) (init init' body : Datum) (start : ObjectId) :
    ∃ id spec start₁ start₂ start₃,
      (loop x init y init' body).code start = .call id "let" [.sym "loop", spec, body.code start₃] ∧
      ∀ nesting s, Forms.bindings nesting "let" spec s = .ok [(x, init.code start₁), (y, init'.code start₂)] s :=
  ⟨_, _, _, _, _, rfl, fun _ _ => rfl⟩

/-- A loop is entered in its first round, where its variables have the values of the inits. -/
theorem Evaluator.Comes.loop {s : Store} {scope : ScopeId} {nesting depth : Nat} {id : ObjectId} {x y : Text}
    {spec init init' body : Value} {post : Value → Store → Prop} {failing : Signal → Store → Prop}
    (h : s.Means scope "let" (.atom (.form .bind)))
    (hspec : ∀ s, Forms.bindings nesting "let" spec s = .ok [(x, init), (y, init')] s)
    (hinits : Comes nesting depth init scope (s.withLoop scope "loop" ⟨[x, y], none⟩ body) (fun v s' =>
      Comes nesting depth init' scope s' (fun w s'' =>
        s''.closures[s.closures.size]? = some ⟨some "loop", ⟨[x, y], none⟩, [body], s.scopes.size⟩ ∧
        Comes nesting (depth + 1) body s''.scopes.size (s''.withRound s.scopes.size x y v w) post failing)
        failing) failing) :
    Comes nesting (depth + 1) (.call id "let" [.sym "loop", spec, body]) scope s post failing :=
  .bindNamed h hspec (operands_cons_leads (hinits.mono fun _ _ hmore => operands_cons_leads
    (hmore.mono fun _ _ hlast => operands_nil_leads ⟨rfl, hlast⟩)))

end Lisplet
