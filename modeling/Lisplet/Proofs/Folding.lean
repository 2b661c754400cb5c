import Lisplet.Proofs.PreludeRules

/-!
# Folding and filtering
-/

namespace Lisplet

open Evaluator
open Datum (call quotedNil)

namespace Prelude

theorem foldLeftBody_turns {rounds nesting level depth : Nat} (hlevel : level ≤ depth + 2) {a : Atom}
    (ha : a.kind = .procedure) (hform : ∀ f, a ≠ .form f) (xs : List Value) {own : ScopeId → Prop} {s s' : Store}
    {scope : ScopeId} {last list : Value} (hprepares : s.Prepares s') (hs : s'.KnowsNames)
    (hstack : s'.Stack (withNew own s s') scope [[("f", .atom a), ("init", last), ("l", list)]])
    (hrow : list.IsRow xs) (start : ObjectId) :
    ∃ turns, InTurn (.nested rounds nesting (level + 1)) (.atom a) own last s (xs.map fun x acc => [acc, x]) turns ∧
      (turns = .strayed ∨ Comes nesting (depth + 3) (foldLeftBody.code start) scope s'
        (turns.Returned fun results v => v = results.getLastD last) turns.Failed) := by
  induction xs generalizing own s s' scope last list start with
  | nil =>
    refine ⟨_, .done hprepares, .inr ?_⟩
    refine hstack.comes_if hs (hstack.comes_isNull hs (hstack.comes_name hs rfl ?_))
    rw [hrow.isNil_eq]
    exact hstack.comes_name hs rfl ⟨[], rfl, rfl⟩
  | cons x xs ih =>
    obtain ⟨v₀, hv₀, c, start', rfl, hc⟩ := hs.shared foldLeft (List.mem_of_getElem? (i := 2) rfl)
    refine InTurn.exists_turn (fun turns v s₂ => Comes nesting (depth + 3) (foldLeftBody.code start')
        s₂.scopes.size (s₂.withObject.entering rootScope [("f", .atom a), ("init", v), ("l", .ofList s₂.nextObject xs)])
        (turns.Returned fun results w => w = results.getLastD v) turns.Failed)
      hprepares hs hstack.isOwn (hstack.lt_size hs.wellFormed) (fun v s₂ hs₂ _ _ => ?_) fun turns hcall => ?_
    -- Behind the call, `fold-left` calls itself from the root scope: nothing of this round is needed.
    · have hobject := (Store.Prepares.refl s₂).withObject
      obtain ⟨hprepares₃, hs₃, hstack₃⟩ := (hs₂.prepares hobject).entering hobject (withNew own s s')
        (t := [("f", .atom a), ("init", v), ("l", .ofList s₂.nextObject xs)])
        (show ∀ name ∈ (["f", "init", "l"] : List Text), name ∈ ownNames by decide)
      exact ih hprepares₃ hs₃ hstack₃ (.ofList _ xs) start'
    · refine hstack.comes_if hs (hstack.comes_isNull hs (hstack.comes_name hs rfl ?_))
      rw [hrow.isNil_eq]
      refine .procedure (hstack.means_global hs hv₀ (by decide)) rfl (by simp) ?_
      refine operands_cons_leads (hstack.comes_name hs rfl ?_)
      refine operands_cons_leads (hstack.comes_procedure hs rfl ha hform ?_)
      refine operands_cons_leads (hstack.comes_name hs rfl (operands_cons_leads ?_))
      refine hstack.comes_car hs (hstack.comes_name hs rfl ⟨x, hrow.head_eq, operands_nil_leads ?_⟩)
      refine (hcall _ _ hlevel hlevel).mono fun next s₂ hnext => hnext.mono ?_
      rintro v s₂ ⟨hs₂, hevolves, hkeeps, turns, rfl, hbody⟩
      have hstack₂ := hstack.keeps hkeeps hevolves
      refine operands_cons_leads (hstack₂.comes_cdr hs₂ (hstack₂.comes_name hs₂ rfl ⟨x, xs, hrow, ?_⟩))
      have hc₂ : s₂.withObject.closures[c]? = some (foldLeft.closure start' rootScope) := hevolves.closure_stays hc
      refine operands_nil_leads (definition_leads rfl hc₂ rfl ?_)
      refine hbody.imp (fun w s₃ hreturned => .after ?_) fun _ _ hfailed => hfailed.after v
      simpa only [List.getLastD_cons] using hreturned

/-- `fold-left` folds the items in order. -/
theorem foldLeft_turns {rounds nesting level depth : Nat} (hlevel : level ≤ depth + 2) {a : Atom}
    (ha : a.kind = .procedure) (hform : ∀ f, a ≠ .form f) {own : ScopeId → Prop} {init list : Value}
    {xs : List Value} (hlist : list.IsRow xs) {s : Store} (hs : s.KnowsNames) {c : ClosureId} {start : ObjectId}
    (hc : s.closures[c]? = some (foldLeft.closure start rootScope)) (scope : ScopeId) :
    ∃ turns, InTurn (.nested rounds nesting (level + 1)) (.atom a) own init s (xs.map fun x acc => [acc, x]) turns ∧
      (turns = .strayed ∨ LeadsTo (fun rounds => (nested rounds nesting (depth + 3)).applyStep (.atom (.closure c))
        [.atom a, init, list] scope) s (Onward nesting (depth + 3)
          (turns.Returned fun results v => v = results.getLastD init) turns.Failed) turns.Failed) := by
  obtain ⟨hprepares, hs', hstack⟩ := hs.entering (.refl s) own (t := [("f", .atom a), ("init", init), ("l", list)])
    (show ∀ name ∈ (["f", "init", "l"] : List Text), name ∈ ownNames by decide)
  obtain ⟨turns, hin, hrest⟩ := foldLeftBody_turns hlevel ha hform xs hprepares hs' hstack hlist start
  exact ⟨turns, hin, hrest.imp_right fun hcomes => definition_leads rfl hc rfl hcomes⟩

theorem foldRightLoop_turns {rounds nesting level depth : Nat} (hlevel : level ≤ depth + 2) {a : Atom}
    (ha : a.kind = .procedure) (hform : ∀ f, a ≠ .form f) {c : ClosureId} {home : ScopeId} {start : ObjectId}
    {init list : Value} (xs : List Value) {own : ScopeId → Prop} {s s' : Store}
    {scope : ScopeId} {last v : Value} (hprepares : s.Prepares s') (hs : s'.KnowsNames)
    (hloop : s'.HasLoop (withNew own s s') [[("f", .atom a), ("init", init), ("l", list)]] c home "l" "acc"
      (foldRightLoop.code start))
    (hstack : s'.Stack (withNew own s s') scope [[("l", v), ("acc", last)], [("loop", .atom (.closure c))],
      [("f", .atom a), ("init", init), ("l", list)]]) (hv : v.IsRow xs) :
    ∃ turns, InTurn (.nested rounds nesting (level + 1)) (.atom a) own last s (xs.map fun x acc => [x, acc]) turns ∧
      (turns = .strayed ∨ Comes nesting (depth + 3) (foldRightLoop.code start) scope s'
        (turns.Returned fun results u => u = results.getLastD last) turns.Failed) := by
  induction xs generalizing own s s' scope last v with
  | nil =>
    refine ⟨_, .done hprepares, .inr ?_⟩
    refine hstack.comes_if hs (hstack.comes_isNull hs (hstack.comes_name hs rfl ?_))
    rw [hv.isNil_eq]
    exact hstack.comes_name hs rfl ⟨[], rfl, rfl⟩
  | cons x xs ih =>
    have hobject := (Store.Prepares.refl s').withObject
    have hs₁ := hs.prepares hobject
    have hstack₁ := hstack.later hobject
    refine InTurn.exists_turn (fun turns u s₂ => Comes nesting (depth + 3) (foldRightLoop.code start)
        s₂.scopes.size (s₂.withRound home "l" "acc" (.ofList s'.nextObject xs) u)
        (turns.Returned fun results w => w = results.getLastD u) turns.Failed)
      hprepares.withObject hs₁ hstack₁.isOwn (hstack₁.lt_size hs₁.wellFormed)
      (fun u s₂ hs₂ hevolves hkeeps => ?_) fun turns hcall => ?_
    -- The rounds behind the call: the loop stands where it stood, as the call keeps its names.
    · have hloop₂ := ((hloop.later hobject).keeps hkeeps hevolves).turn
      obtain ⟨hprepares₃, hs₃, hloop₃, hstack₃⟩ := hloop₂.withRound (.refl s₂) hs₂ (.ofList s'.nextObject xs) u
        (show ∀ name ∈ (["l", "acc"] : List Text), name ∈ ownNames by decide)
      exact ih hprepares₃ hs₃ hloop₃ hstack₃ (.ofList _ xs)
    · refine hstack.comes_if hs (hstack.comes_isNull hs (hstack.comes_name hs rfl ?_))
      rw [hv.isNil_eq]
      refine hstack.comes_procedure hs rfl rfl (by simp) ?_
      refine operands_cons_leads (hstack.comes_cdr hs (hstack.comes_name hs rfl ⟨x, xs, hv, ?_⟩))
      refine operands_cons_leads (hstack₁.comes_procedure hs₁ rfl ha hform ?_)
      refine operands_cons_leads (hstack₁.comes_car hs₁ (hstack₁.comes_name hs₁ rfl ⟨x, hv.head_eq, ?_⟩))
      refine operands_cons_leads (hstack₁.comes_name hs₁ rfl (operands_nil_leads ?_))
      refine (hcall _ _ hlevel hlevel).mono fun next s₂ hnext => hnext.mono ?_
      rintro u s₂ ⟨hs₂, hevolves, hkeeps, turns, rfl, hbody⟩
      have hloop₂ := (hloop.later hobject).keeps hkeeps hevolves
      refine operands_nil_leads (hloop₂.leads ?_)
      refine hbody.imp (fun w s₃ hreturned => .after ?_) fun _ _ hfailed => hfailed.after u
      simpa only [List.getLastD_cons] using hreturned

/-- `fold-right` folds the items in the order of the reversed list. -/
theorem foldRight_turns {rounds nesting level depth : Nat} (hlevel : level ≤ depth + 2) {a : Atom}
    (ha : a.kind = .procedure) (hform : ∀ f, a ≠ .form f) {own : ScopeId → Prop} {init list : Value}
    {xs : List Value} (hlist : list.IsRow xs) {s : Store} (hs : s.KnowsNames) {c : ClosureId} {start : ObjectId}
    (hc : s.closures[c]? = some (foldRight.closure start rootScope)) (scope : ScopeId) :
    ∃ turns, InTurn (.nested rounds nesting (level + 1)) (.atom a) own init s
        (xs.reverse.map fun x acc => [x, acc]) turns ∧
      (turns = .strayed ∨ LeadsTo (fun rounds => (nested rounds nesting (depth + 3)).applyStep (.atom (.closure c))
        [.atom a, init, list] scope) s (Onward nesting (depth + 3)
          (turns.Returned fun results v => v = results.getLastD init) turns.Failed) turns.Failed) := by
  obtain ⟨hprepares, hs', hstack⟩ := hs.entering (.refl s) own (t := [("f", .atom a), ("init", init), ("l", list)])
    (show ∀ name ∈ (["f", "init", "l"] : List Text), name ∈ ownNames by decide)
  obtain ⟨id, spec, start₁, start₂, start₃, hcode, hspec⟩ :=
    exists_code_loop "l" "acc" (call "reverse" [.sym "l"]) (.sym "init") foldRightLoop start
  obtain ⟨hprepares₁, hs₁, hstack₁, hloop₁⟩ :=
    hstack.withLoop hprepares hs' "l" "acc" (foldRightLoop.code start₃)
  set s₁ := Store.withLoop _ s.scopes.size "loop" ⟨["l", "acc"], none⟩ (foldRightLoop.code start₃)
  have hobject := (Store.Prepares.refl s₁).withObject
  have hs₂ := hs₁.prepares hobject
  have hstack₂ := hstack₁.later hobject
  obtain ⟨hprepares₃, hs₃, hloop₃, hstack₃⟩ := (hloop₁.later hobject).withRound hprepares₁.withObject hs₂
    (.ofList s₁.nextObject xs.reverse) init (show ∀ name ∈ (["l", "acc"] : List Text), name ∈ ownNames by decide)
  obtain ⟨turns, hin, hrest⟩ := foldRightLoop_turns hlevel ha hform xs.reverse hprepares₃ hs₃ hloop₃ hstack₃
    (.ofList _ _)
  refine ⟨turns, hin, hrest.imp_right fun hcomes => definition_leads rfl hc rfl ?_⟩
  rw [hcode]
  refine .loop (hstack.means_form hs' .bind (by decide)) (hspec nesting) ?_
  refine hstack₁.comes_reverse hs₁ (hstack₁.comes_name hs₁ rfl ⟨xs, hlist, ?_⟩)
  exact hstack₂.comes_name hs₂ rfl ⟨(hloop₁.later hobject).closure, hcomes⟩

end Prelude

/-- Items that are consed in turn. -/
theorem InTurn.of_cons {rounds nesting level : Nat} {own : ScopeId → Prop} {xs acc : List Value} {last : Value}
    {s : Store} {turns : Turns} (h : InTurn (.nested rounds nesting (level + 1)) (.atom (.primitive (.lists .cons))) own
      last s (xs.map fun x acc => [x, acc]) turns) (hlast : last.IsRow acc) :
    ∃ results s', turns = .returned results s' ∧ (results.getLastD last).IsRow (xs.reverse ++ acc) := by
  have hcons : ∀ (x w : Value) scope s, (nested rounds nesting (level + 1)).call (.atom (.primitive (.lists .cons)))
      [x, w] scope s = .ok (.cons s.nextObject x w) s.withObject := fun _ _ _ _ => rfl
  induction xs generalizing own acc last s turns with
  | nil =>
    cases h
    exact ⟨[], _, rfl, hlast⟩
  | cons x xs ih =>
    cases h with
    | @returns _ _ v _ s₁ s₂ _ _ _ turns _ _ hcall _ hmore =>
      obtain ⟨rfl, rfl⟩ : Value.cons s₁.nextObject x last = v ∧ s₁.withObject = s₂ := by
        simpa only [EStateM.Result.ok.injEq] using (hcons x last _ s₁).symm.trans hcall
      obtain ⟨results, s', rfl, hrow⟩ := ih hmore (hlast.cons s₁.nextObject x)
      refine ⟨_, s', rfl, ?_⟩
      rw [List.getLastD_cons, List.reverse_cons, List.append_assoc]
      exact hrow
    | fails _ _ hcall => exact nomatch (hcons x last _ _).symm.trans hcall
    | @strays _ _ _ s₁ _ _ _ _ _ hcall =>
      rw [hcons x last _ s₁] at hcall
      exact absurd (Store.KeepsNames.withObject _ s₁) hcall

namespace Prelude

/-! ### Filtering -/

/-- The code that keeps an item. -/
def filterKeep : Datum :=
  .call "loop" [.call "cdr" [.sym "l"], .call "cons" [.call "car" [.sym "l"], .sym "acc"]]

/-- The code that leaves an item out. -/
def filterDrop : Datum := .call "loop" [.call "cdr" [.sym "l"], .sym "acc"]

/-- The items on which the results are not false. -/
def kept (xs results : List Value) : List Value :=
  ((xs.zip results).filter fun pair => pair.2.isTruthy).map Prod.fst

theorem kept_cons_of_true {x u : Value} (hu : u.isTruthy = true) (xs results : List Value) :
    kept (x :: xs) (u :: results) = x :: kept xs results := by simp [kept, hu]

theorem kept_cons_of_false {x u : Value} (hu : u.isTruthy = false) (xs results : List Value) :
    kept (x :: xs) (u :: results) = kept xs results := by simp [kept, hu]

section

variable {nesting depth : Nat} {c : ClosureId} {home scope : ScopeId} {own : ScopeId → Prop} {s : Store}
  {ts : List (Table Value)} {body v w x : Value} {xs : List Value} {post : Value → Store → Prop}
  {failing : Signal → Store → Prop}

/-- An item that is kept is put in front of those before. -/
theorem filterKeep_comes (hs : s.KnowsNames)
    (hstack : s.Stack own scope ([("l", v), ("acc", w)] :: [("loop", .atom (.closure c))] :: ts))
    (hloop : s.HasLoop own ts c home "l" "acc" body) (hv : v.IsRow (x :: xs)) (start : ObjectId)
    (hnext : Comes nesting (depth + 3) body s.scopes.size (s.withObject.withObject.withRound home "l" "acc"
      (.ofList s.nextObject xs) (.cons (s.nextObject + 1) x w)) post failing) :
    Comes nesting (depth + 3) (filterKeep.code start) scope s post failing := by
  have hobject := (Store.Prepares.refl s).withObject
  have hs₁ := hs.prepares hobject
  have hstack₁ := hstack.prepares hobject
  refine hstack.comes_procedure hs rfl rfl (by simp) ?_
  refine operands_cons_leads (hstack.comes_cdr hs (hstack.comes_name hs rfl ⟨x, xs, hv, ?_⟩))
  refine operands_cons_leads (hstack₁.comes_cons hs₁ (hstack₁.comes_car hs₁ ?_))
  refine hstack₁.comes_name hs₁ rfl ⟨x, hv.head_eq, hstack₁.comes_name hs₁ rfl ?_⟩
  exact operands_nil_leads ((hloop.turn.later hobject.withObject).leads hnext)

/-- An item that is left out changes nothing. -/
theorem filterDrop_comes (hs : s.KnowsNames)
    (hstack : s.Stack own scope ([("l", v), ("acc", w)] :: [("loop", .atom (.closure c))] :: ts))
    (hloop : s.HasLoop own ts c home "l" "acc" body) (hv : v.IsRow (x :: xs)) (start : ObjectId)
    (hnext : Comes nesting (depth + 3) body s.scopes.size
      (s.withObject.withRound home "l" "acc" (.ofList s.nextObject xs) w) post failing) :
    Comes nesting (depth + 3) (filterDrop.code start) scope s post failing := by
  have hobject := (Store.Prepares.refl s).withObject
  have hs₁ := hs.prepares hobject
  have hstack₁ := hstack.prepares hobject
  refine hstack.comes_procedure hs rfl rfl (by simp) ?_
  refine operands_cons_leads (hstack.comes_cdr hs (hstack.comes_name hs rfl ⟨x, xs, hv, ?_⟩))
  refine operands_cons_leads (hstack₁.comes_name hs₁ rfl ?_)
  exact operands_nil_leads ((hloop.turn.later hobject).leads hnext)

end

theorem filterLoop_turns {rounds nesting level depth : Nat} (hlevel : level ≤ depth + 2) {a : Atom}
    (ha : a.kind = .procedure) (hform : ∀ f, a ≠ .form f) {c : ClosureId} {home : ScopeId} {start : ObjectId}
    {list : Value} (xs : List Value) {own : ScopeId → Prop} {s s' : Store}
    {scope : ScopeId} {last v w : Value} {acc : List Value} (hprepares : s.Prepares s') (hs : s'.KnowsNames)
    (hloop : s'.HasLoop (withNew own s s') [[("pred", .atom a), ("l", list)]] c home "l" "acc" (filterLoop.code start))
    (hstack : s'.Stack (withNew own s s') scope
      [[("l", v), ("acc", w)], [("loop", .atom (.closure c))], [("pred", .atom a), ("l", list)]])
    (hv : v.IsRow xs) (hw : w.IsRow acc) :
    ∃ turns, InTurn (.nested rounds nesting (level + 1)) (.atom a) own last s (xs.map fun x _ => [x]) turns ∧
      (turns = .strayed ∨ Comes nesting (depth + 3) (filterLoop.code start) scope s'
        (turns.Returned fun results u => u.IsRow (acc.reverse ++ kept xs results)) turns.Failed) := by
  induction xs generalizing own s s' scope last v w acc with
  | nil =>
    refine ⟨_, .done hprepares.withObject, .inr ?_⟩
    refine hstack.comes_cond hs rfl (tryClauses_cons_leads rfl rfl ?_)
    refine hstack.comes_isNull hs (hstack.comes_name hs rfl ?_)
    rw [hv.isNil_eq]
    refine hstack.comes_reverse hs (hstack.comes_name hs rfl ⟨acc, hw, [], rfl, ?_⟩)
    show Value.IsRow _ (acc.reverse ++ [])
    rw [List.append_nil]
    exact .ofList _ _
  | cons x xs ih =>
    refine InTurn.exists_turn (fun turns u s₂ => ∀ start, Comes nesting (depth + 3)
        ((if u.isTruthy then filterKeep else filterDrop).code start) scope s₂
        (turns.Returned fun results u' => u'.IsRow (acc.reverse ++ kept (x :: xs) (u :: results))) turns.Failed)
      hprepares hs hstack.isOwn (hstack.lt_size hs.wellFormed) (fun u s₂ hs₂ hevolves hkeeps => ?_) fun turns hcall => ?_
    -- Behind the call, the result tells which code goes on with the rest of the items.
    · have hstack₂ := hstack.keeps hkeeps hevolves
      have hloop₂ := hloop.keeps hkeeps hevolves
      have hobject := (Store.Prepares.refl s₂).withObject
      have hnames : ∀ name ∈ (["l", "acc"] : List Text), name ∈ ownNames := by decide
      cases hu : u.isTruthy with
      | true =>
        obtain ⟨hprepares₃, hs₃, hloop₃, hstack₃⟩ := (hloop₂.turn.later hobject.withObject).withRound
          hobject.withObject (hs₂.prepares hobject.withObject) (.ofList s₂.nextObject xs)
          (.cons (s₂.nextObject + 1) x w) hnames
        obtain ⟨turns, hin, hrest⟩ := ih hprepares₃ hs₃ hloop₃ hstack₃ (.ofList _ xs) (hw.cons _ x)
        refine ⟨turns, hin, hrest.imp_right fun hcomes start => ?_⟩
        refine filterKeep_comes hs₂ hstack₂ hloop₂ hv start (hcomes.mono fun u' _ hreturned => ?_)
        simpa only [kept_cons_of_true hu, List.reverse_cons, List.append_assoc, List.singleton_append] using hreturned
      | false =>
        obtain ⟨hprepares₃, hs₃, hloop₃, hstack₃⟩ := (hloop₂.turn.later hobject).withRound hobject
          (hs₂.prepares hobject) (.ofList s₂.nextObject xs) w hnames
        obtain ⟨turns, hin, hrest⟩ := ih hprepares₃ hs₃ hloop₃ hstack₃ (.ofList _ xs) hw
        refine ⟨turns, hin, hrest.imp_right fun hcomes start => ?_⟩
        refine filterDrop_comes hs₂ hstack₂ hloop₂ hv start (hcomes.mono fun u' _ hreturned => ?_)
        simpa only [kept_cons_of_false hu] using hreturned
    -- The round itself, up to the call and from its result on.
    · refine hstack.comes_cond hs rfl (tryClauses_cons_leads rfl rfl ?_)
      refine hstack.comes_isNull hs (hstack.comes_name hs rfl ?_)
      rw [hv.isNil_eq]
      refine tryClauses_cons_leads rfl rfl (hstack.comes_procedure hs rfl ha hform ?_)
      refine operands_cons_leads (hstack.comes_car hs (hstack.comes_name hs rfl ⟨x, hv.head_eq, ?_⟩))
      refine operands_nil_leads ((hcall _ _ hlevel hlevel).mono fun next s₂ hnext => hnext.mono ?_)
      rintro u s₂ ⟨hs₂, hevolves, hkeeps, turns, rfl, hrest⟩
      cases hu : u.isTruthy with
      | true =>
        rw [hu] at hrest
        exact (hrest _).imp (fun _ _ hreturned => .after hreturned) fun _ _ hfailed => hfailed.after u
      | false =>
        rw [hu] at hrest
        exact tryClauses_else_leads
          ((hrest _).imp (fun _ _ hreturned => .after hreturned) fun _ _ hfailed => hfailed.after u)

/-- `filter` calls its procedure on the items in order. -/
theorem filter_turns {rounds nesting level depth : Nat} (hlevel : level ≤ depth + 2) {a : Atom}
    (ha : a.kind = .procedure) (hform : ∀ f, a ≠ .form f) {own : ScopeId → Prop} {last list : Value}
    {xs : List Value} (hlist : list.IsRow xs) {s : Store} (hs : s.KnowsNames) {c : ClosureId} {start : ObjectId}
    (hc : s.closures[c]? = some (filter.closure start rootScope)) (scope : ScopeId) :
    ∃ turns, InTurn (.nested rounds nesting (level + 1)) (.atom a) own last s (xs.map fun x _ => [x]) turns ∧
      (turns = .strayed ∨ LeadsTo (fun rounds => (nested rounds nesting (depth + 3)).applyStep (.atom (.closure c))
        [.atom a, list] scope) s (Onward nesting (depth + 3)
          (turns.Returned fun results v => v.IsRow (kept xs results)) turns.Failed) turns.Failed) := by
  obtain ⟨hprepares, hs', hstack⟩ := hs.entering (.refl s) own (t := [("pred", .atom a), ("l", list)])
    (show ∀ name ∈ (["pred", "l"] : List Text), name ∈ ownNames by decide)
  obtain ⟨id, spec, start₁, start₂, start₃, hcode, hspec⟩ :=
    exists_code_loop "l" "acc" (.sym "l") quotedNil filterLoop start
  obtain ⟨hprepares₁, hs₁, hstack₁, hloop₁⟩ := hstack.withLoop hprepares hs' "l" "acc" (filterLoop.code start₃)
  obtain ⟨hprepares₂, hs₂, hloop₂, hstack₂⟩ := hloop₁.withRound hprepares₁ hs₁ list .nil
    (show ∀ name ∈ (["l", "acc"] : List Text), name ∈ ownNames by decide)
  obtain ⟨turns, hin, hrest⟩ := filterLoop_turns hlevel ha hform xs hprepares₂ hs₂ hloop₂ hstack₂ hlist .nil
  refine ⟨turns, hin, hrest.imp_right fun hcomes => definition_leads rfl hc rfl ?_⟩
  rw [hcode]
  refine .loop (hstack.means_form hs' .bind (by decide)) (hspec nesting) ?_
  refine hstack₁.comes_name hs₁ rfl (hstack₁.comes_quotedNil hs₁ ⟨hloop₁.closure, ?_⟩)
  exact hcomes

end Prelude

end Lisplet
