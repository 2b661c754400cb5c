import Lisplet.Proofs.DepthOrder
import Lisplet.Proofs.FreshCalls
import Lisplet.Proofs.ReadForms

/-!
# Fresh symbols in a session

The successful calls for fresh symbols of a whole session can be listed, and whatever they ask for, no two of them
give the same symbol.
-/

namespace Lisplet

open Lisplet.Action Token

/-- Two symbols are the same just if their names are. -/
theorem TestOp.same_call (name name' : Text) (ev : Evaluator) (scope : ScopeId) (s : Store) :
    (Primitive.tests .same).call ev [.sym name, .sym name'] scope s =
      .ok (.value (.bool (decide (name = name')))) s := rfl

/-! ### Calls in code -/

/-- A prefix is asked for by one argument at most. -/
theorem Store.accepts_of_freshPrefix? {s : Store} {args : List Value} {start : Text}
    (h : s.freshPrefix? args = some start) : ControlOp.gensym.arity.accepts args.length = true := by
  unfold Store.freshPrefix? at h
  split at h
  case h_4 => simp at h
  all_goals rfl

namespace Evaluator

variable {ev : Evaluator} {scope : ScopeId} {s s₁ s₂ : Store} {issues more last : List Issue}

/-- To apply the procedure to arguments that ask for a prefix is to call for a fresh symbol. -/
theorem applyStep_gensym {args : List Value} {start : Text} (h : s.freshPrefix? args = some start) :
    ev.applyStep (.atom (.primitive (.control .gensym))) args scope = ControlOp.gensym.run ev args scope :=
  if_pos (Store.accepts_of_freshPrefix? h)

/-- The calls in operands are made one after another. -/
theorem operands_issues {expr v : Value} {exprs : List Value} (h : (ev.eval expr scope).Issues s issues)
    (heval : ev.eval expr scope s = .ok v s₁) (hmore : (ev.operands scope exprs).Issues s₁ more) :
    (ev.operands scope (expr :: exprs)).Issues s (issues ++ more) := by
  rw [Evaluator.operands, List.mapM_cons]
  exact h.bind heval (hmore.bind_looks fun vs => .pure (v :: vs))

/-- The calls in the head of a call come first, then those in its operands, then those of the procedure. -/
theorem step_issues {head : Value} {operands args : List Value} {p : Primitive}
    (hlook : transformerOf head scope s = .ok none s) (hhead : (ev.eval head scope).Issues s issues)
    (hproc : ev.eval head scope s = .ok (.atom (.primitive p)) s₁)
    (hoperands : (ev.operands scope operands).Issues s₁ more)
    (hargs : ev.operands scope operands s₁ = .ok args s₂)
    (hlast : (ev.applyStep (.atom (.primitive p)) args scope).Issues s₂ last) (id : ObjectId) :
    (ev.step (.list id head operands none) scope).Issues s (issues ++ (more ++ last)) := by
  have hlooks : (transformerOf head scope).Issues s [] := .none (by rw [after_of_ok hlook])
  exact hlooks.bind hlook (hhead.bind hproc (hoperands.bind hargs hlast))

/-- A step that gives a value ends the evaluation. -/
theorem trampoline_issues {expr v : Value} (h : (ev.step expr scope).Issues s issues)
    (hstep : ev.step expr scope s = .ok (.value v) s₁) (fuel : Nat) :
    (ev.trampoline (fuel + 1) expr scope).Issues s issues := by
  have hall : (ev.trampoline (fuel + 1) expr scope).Issues s (issues ++ []) := h.bind hstep (.none rfl)
  rwa [List.append_nil] at hall

/-- A call for a fresh symbol in code, where the head and the operands of the call leave the store alone. -/
theorem trampoline_gensym {head : Value} {operands args : List Value} {start : Text}
    (hlook : transformerOf head scope s = .ok none s)
    (hproc : ev.eval head scope s = .ok (.atom (.primitive (.control .gensym))) s)
    (hargs : ev.operands scope operands s = .ok args s) (hstart : s.freshPrefix? args = some start)
    (id : ObjectId) (fuel : Nat) : (ev.trampoline (fuel + 1) (.list id head operands none) scope).Issues s
      [⟨start, .sym (freshName start s.nextFresh)⟩] := by
  have hhead : (ev.eval head scope).Issues s [] := .none (by rw [after_of_ok hproc])
  have hoperands : (ev.operands scope operands).Issues s [] := .none (by rw [after_of_ok hargs])
  have hcall : (ev.applyStep (.atom (.primitive (.control .gensym))) args scope).Issues s
      [⟨start, .sym (freshName start s.nextFresh)⟩] := by
    rw [applyStep_gensym hstart]
    exact .call hstart (ControlOp.run_gensym hstart ev scope)
  have hstep : ev.step (.list id head operands none) scope s =
      ev.applyStep (.atom (.primitive (.control .gensym))) args scope s :=
    (bind_of_ok hlook).trans ((bind_of_ok hproc).trans (bind_of_ok hargs))
  rw [applyStep_gensym hstart, ControlOp.run_gensym hstart] at hstep
  exact trampoline_issues (step_issues hlook hhead hproc hoperands hargs hcall id) hstep fuel

end Evaluator

namespace Session

/-- The calls in a source of one form. -/
theorem evaluate_issues {ev : Evaluator} {source : Text} {d : Datum} {expr : Value} {s s₁ : Store}
    {issues : List Issue} (hread : readAll ev.nesting source = ⟨[d], none⟩)
    (hmade : instantiate d s = .ok expr s₁) (h : (ev.eval expr rootScope).Issues s₁ issues) :
    (evaluate ev source).Issues s issues := by
  have hnone : (instantiate d).Issues s [] := .none (instantiate_drifts d s).1.fresh
  have hdata : (ev.evalData rootScope [d]).Issues s issues := hnone.bind hmade h
  rw [evaluate, hread]
  exact hdata.limited.bind_looks fun v => .pure v

/-! ### Runs of a session -/

/-- The store after some requests, each with the bounds that it is done in, however they end. -/
def afterAll : List (Bounds × Request) → Store → Store
  | [], s => s
  | (b, r) :: more, s => afterAll more ((r.perform b).after s)

/-- The successful calls for fresh symbols while some requests are done, in order. -/
inductive Issues : List (Bounds × Request) → Store → List Issue → Prop
  | nil {s : Store} : Issues [] s []
  | cons {b : Bounds} {r : Request} {requests : List (Bounds × Request)} {s : Store} {issues more : List Issue}
      (h : (r.perform b).Issues s issues) (hmore : Issues requests ((r.perform b).after s) more) :
      Issues ((b, r) :: requests) s (issues ++ more)

/-- The calls can be listed for every session. -/
theorem exists_issues (requests : List (Bounds × Request)) (s : Store) : ∃ issues, Issues requests s issues := by
  induction requests generalizing s with
  | nil => exact ⟨[], .nil⟩
  | cons request requests ih =>
    obtain ⟨issues, h⟩ := request.2.perform_listed request.1 s
    obtain ⟨more, hmore⟩ := ih ((request.2.perform request.1).after s)
    exact ⟨issues ++ more, .cons h hmore⟩

/-- The calls of a session are numbered one after another. By induction on the requests. -/
theorem Issues.numbered {requests : List (Bounds × Request)} {s : Store} {issues : List Issue}
    (h : Issues requests s issues) :
    (afterAll requests s).nextFresh = s.nextFresh + issues.length ∧ Numbered s.nextFresh issues := by
  induction h with
  | nil => exact ⟨rfl, .nil _⟩
  | cons h _ ih =>
    obtain ⟨hafter, hnumbered⟩ := h.numbered
    rw [hafter] at ih
    refine ⟨?_, hnumbered.append ih.2⟩
    rw [afterAll, ih.1, List.length_append]
    omega

end Session

/-- The program tells two values apart, in whatever order it is given them. -/
def Value.AreApart (v w : Value) : Prop :=
  ∀ (ev : Evaluator) (scope : ScopeId) (s : Store),
    (Primitive.tests .same).call ev [v, w] scope s = .ok (.value (.bool false)) s ∧
    (Primitive.tests .same).call ev [w, v] scope s = .ok (.value (.bool false)) s

/-- Symbols of different names are told apart. -/
theorem Value.areApart_sym {name name' : Text} (h : name ≠ name') : (Value.sym name).AreApart (.sym name') := by
  intro ev scope s
  rw [TestOp.same_call, TestOp.same_call, decide_eq_false h, decide_eq_false h.symm]
  exact ⟨rfl, rfl⟩

/-- Symbols that are numbered one after another are told apart. -/
theorem Numbered.pairwise {n : Nat} {issues : List Issue} (h : Numbered n issues) :
    issues.Pairwise fun issue issue' => issue.symbol.AreApart issue'.symbol := by
  rw [List.pairwise_iff_getElem]
  intro i j hi hj hlt
  rw [h i _ (List.getElem?_eq_getElem hi), h j _ (List.getElem?_eq_getElem hj)]
  refine Value.areApart_sym fun heq => ?_
  have hnumber := (freshName_inj.mp heq).2
  omega

namespace Session

/-- The calls for fresh symbols of a session use up one number each, and every two of them give symbols that are
told apart. -/
structure NeverRepeats (requests : List (Bounds × Request)) (s : Store) (issues : List Issue) : Prop where
  counted : (afterAll requests s).nextFresh = s.nextFresh + issues.length
  apart : issues.Pairwise fun issue issue' => issue.symbol.AreApart issue'.symbol

/-- Whatever is asked of a session, its successful calls for fresh symbols can be listed, and no two of them give
the same symbol. -/
theorem fresh_symbols_never_repeat (requests : List (Bounds × Request)) (s : Store) :
    (∃ issues, Issues requests s issues) ∧ ∀ issues, Issues requests s issues → NeverRepeats requests s issues :=
  ⟨exists_issues requests s, fun _ h => ⟨h.numbered.1, h.numbered.2.pairwise⟩⟩

/-- One call without a prefix, and one with the symbol that the first one gave. -/
theorem fresh_symbols_never_repeat_prefixed :
    let b : Bounds := ⟨3, 3, 3⟩
    let call := Value.list 2 (.sym "gensym") [] none
    let again := Value.list 3 (.sym "gensym") [.list 4 (.sym "quote") [.sym "gensym-1"] none] none
    let requests := [(b, Request.expression call rootScope), (b, Request.expression again rootScope)]
    let issues : List Issue := [⟨"gensym", .sym "gensym-1"⟩, ⟨"gensym-1", .sym "gensym-1-2"⟩]
    Issues requests emptyStore issues ∧ NeverRepeats requests emptyStore issues := by
  intro b call again requests issues
  let ev := Evaluator.nested 3 3 2
  let s : Store := { emptyStore with nextFresh := 2 }
  have hcall : ((Request.expression call rootScope).perform b).Issues emptyStore [⟨"gensym", .sym "gensym-1"⟩] := by
    have hproc : ev.eval (.sym "gensym") rootScope emptyStore =
        .ok (.atom (.primitive (.control .gensym))) emptyStore := by rfl
    have hargs : ev.operands rootScope [] emptyStore = .ok [] emptyStore := rfl
    exact Evaluator.trampoline_gensym (by rfl) hproc hargs rfl 2 2
  have hagain : ((Request.expression again rootScope).perform b).Issues s [⟨"gensym-1", .sym "gensym-1-2"⟩] := by
    have hproc : ev.eval (.sym "gensym") rootScope s = .ok (.atom (.primitive (.control .gensym))) s := by rfl
    have hargs : ev.operands rootScope [.list 4 (.sym "quote") [.sym "gensym-1"] none] s =
        .ok [.sym "gensym-1"] s := by rfl
    exact Evaluator.trampoline_gensym (by rfl) hproc hargs rfl 3 2
  have hissues : Issues requests emptyStore issues := .cons hcall (.cons hagain .nil)
  exact ⟨hissues, (fresh_symbols_never_repeat requests emptyStore).2 issues hissues⟩

end Session

end Lisplet
