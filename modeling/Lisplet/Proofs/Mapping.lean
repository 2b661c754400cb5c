import Lisplet.Proofs.PreludeRules

/-!
# Mapping

`map` takes the first items off all its lists at once, applies its procedure to them, and goes on with what is left
of the lists until one of them is empty. It has two helpers, which are followed first: the test that looks for an
empty list, and the mapping of one list by `car` or `cdr`.
-/

namespace Lisplet

open Evaluator
open Datum (quotedNil)

/-! ### Tuples -/

section

variable {α : Type}

/-- The length of the shortest of some rows. -/
def shortest : List (List α) → Nat
  | [] => 0
  | [row] => row.length
  | row :: rows => min row.length (shortest rows)

/-- The tuples of the items at each place that all rows have, in order. -/
def tuples (rows : List (List α)) : List (List α) :=
  (List.range (shortest rows)).map fun i => rows.filterMap (·[i]?)

theorem shortest_of_any_empty {rows : List (List α)} (h : rows.any List.isEmpty = true) : shortest rows = 0 := by
  induction rows with
  | nil => rfl
  | cons row rows ih =>
    rw [List.any_cons, Bool.or_eq_true, List.isEmpty_iff] at h
    cases rows with
    | nil =>
      rcases h with rfl | h
      · rfl
      · exact nomatch h
    | cons next rows =>
      rw [shortest, Nat.min_eq_zero_iff, List.length_eq_zero_iff]
      exact h.imp_right ih
      · simp

theorem shortest_eq_succ {rows : List (List α)} (hne : rows ≠ []) (h : rows.any List.isEmpty = false) :
    shortest rows = shortest (rows.map List.tail) + 1 := by
  induction rows with
  | nil => exact absurd rfl hne
  | cons row rows ih =>
    rw [List.any_cons, Bool.or_eq_false_iff] at h
    have hrow : row.length = row.tail.length + 1 := by
      cases row with
      | nil => exact nomatch h.1
      | cons => rfl
    cases rows with
    | nil => exact hrow
    | cons next rows =>
      have hrest := ih (List.cons_ne_nil _ _) h.2
      rw [shortest, hrow, hrest, Nat.succ_min_succ]
      · rfl
      · simp

theorem shortest_eq_zero_iff {rows : List (List α)} (hne : rows ≠ []) :
    shortest rows = 0 ↔ rows.any List.isEmpty = true := by
  refine ⟨fun h => ?_, shortest_of_any_empty⟩
  by_contra hall
  rw [shortest_eq_succ hne (Bool.eq_false_iff.mpr hall)] at h
  exact nomatch h

theorem tuples_of_any_empty {rows : List (List α)} (h : rows.any List.isEmpty = true) : tuples rows = [] := by
  rw [tuples, shortest_of_any_empty h]
  rfl

/-- The first tuple, and those of what is left of the rows. -/
theorem tuples_eq_cons {rows : List (List α)} (hne : rows ≠ []) (h : rows.any List.isEmpty = false) :
    tuples rows = rows.filterMap List.head? :: tuples (rows.map List.tail) := by
  rw [tuples, shortest_eq_succ hne h, List.range_succ_eq_map, List.map_cons, List.map_map, tuples]
  congr 1
  · exact congrFun (congrArg List.filterMap (funext fun _ => List.head?_eq_getElem?.symm)) rows
  · refine List.map_congr_left fun i _ => ?_
    rw [List.filterMap_map]
    simp only [Function.comp_def, List.getElem?_tail]

end

/-- Proper lists of which none is empty have a first item each. -/
theorem Value.exists_isRow_cons {vs : List Value} (hproper : ∀ v ∈ vs, v.isProper = true)
    (hany : (vs.map items).any List.isEmpty = false) : ∀ v ∈ vs, ∃ x xs, v.IsRow (x :: xs) := by
  intro v hv
  have hsome : v.items.isEmpty = false := by
    simpa using List.any_eq_false.mp hany v.items (List.mem_map_of_mem hv)
  cases hitems : v.items with
  | nil => simp [hitems] at hsome
  | cons x xs => exact ⟨x, xs, hproper v hv, hitems⟩

namespace Prelude

/-! ### The helpers -/

/-- The variables and the helpers of `map`. -/
abbrev mapNames (f lists : Value) (c₁ c₂ : ClosureId) : Table Value :=
  [("f", f), ("lists", lists), ("any-null?", .atom (.closure c₁)), ("map1", .atom (.closure c₂))]

end Prelude

/-- The helpers of `map` stand in a scope of its own. -/
structure Store.HasHelpers (s : Store) (own : ScopeId → Prop) (f lists : Value) (c₁ c₂ : ClosureId) (home : ScopeId) :
    Prop where
  stack : s.Stack own home [Prelude.mapNames f lists c₁ c₂]
  anyNull : ∃ start, s.closures[c₁]? = some (Prelude.anyNull.closure start home)
  mapOne : ∃ start, s.closures[c₂]? = some (Prelude.mapOne.closure start home)

namespace Store.HasHelpers

variable {s s' s'' : Store} {own : ScopeId → Prop} {f lists : Value} {c₁ c₂ : ClosureId} {home : ScopeId}

theorem keeps (h : s.HasHelpers own f lists c₁ c₂ home) (h' : s.KeepsNames own s') (hevolves : s.Evolves s') :
    s'.HasHelpers own f lists c₁ c₂ home :=
  ⟨h.stack.keeps h' hevolves, h.anyNull.imp fun _ => hevolves.closure_stays,
    h.mapOne.imp fun _ => hevolves.closure_stays⟩

theorem later (h : s'.HasHelpers (withNew own s s') f lists c₁ c₂ home) (h' : s'.Prepares s'') :
    s''.HasHelpers (withNew own s s'') f lists c₁ c₂ home :=
  ⟨h.stack.later h', h.anyNull.imp fun _ => h'.closures _ _, h.mapOne.imp fun _ => h'.closures _ _⟩

theorem turn (h : s.HasHelpers own f lists c₁ c₂ home) : s.HasHelpers (withNew own s s) f lists c₁ c₂ home :=
  ⟨h.stack.turn, h.anyNull, h.mapOne⟩

end Store.HasHelpers

namespace Prelude

section

variable {s s' : Store} {own : ScopeId → Prop} {scope home : ScopeId} {f lists : Value} {c₁ c₂ : ClosureId}
  {nesting depth : Nat}

/-- The test tells whether one of the lists is empty. -/
theorem anyNullBody_comes {vs : List Value} (hproper : ∀ v ∈ vs, v.isProper = true) (hprepares : s.Prepares s')
    (hs : s'.KnowsNames) (hhelpers : s'.HasHelpers (withNew own s s') f lists c₁ c₂ home) {ls : Value}
    (hstack : s'.Stack (withNew own s s') scope [[("ls", ls)], mapNames f lists c₁ c₂]) (hls : ls.IsRow vs)
    (start : ObjectId) : Comes nesting (depth + 3) (anyNullBody.code start) scope s' (fun w s'' => s.Prepares s'' ∧
      w = .bool ((vs.map Value.items).any List.isEmpty)) fun _ _ => False := by
  induction vs generalizing s' scope ls start with
  | nil =>
    refine hstack.comes_cond hs rfl (tryClauses_cons_leads rfl rfl ?_)
    refine hstack.comes_isNull hs (hstack.comes_name hs rfl ?_)
    rw [hls.isNil_eq]
    exact .bool ⟨hprepares, rfl⟩
  | cons v vs ih =>
    have hv : v.IsRow v.items := .of_isProper (hproper v List.mem_cons_self)
    refine hstack.comes_cond hs rfl (tryClauses_cons_leads rfl rfl ?_)
    refine hstack.comes_isNull hs (hstack.comes_name hs rfl ?_)
    rw [hls.isNil_eq]
    refine tryClauses_cons_leads rfl rfl (hstack.comes_isNull hs (hstack.comes_car hs ?_))
    refine hstack.comes_name hs rfl ⟨v, hls.head_eq, ?_⟩
    rw [hv.isNil_eq]
    cases hempty : v.items.isEmpty with
    | true => exact .bool ⟨hprepares, by simp [hempty]⟩
    | false =>
      -- The first list has an item: the test calls itself on the lists behind it.
      obtain ⟨start', hc⟩ := hhelpers.anyNull
      refine tryClauses_else_leads (hstack.comes_procedure hs rfl rfl (by simp) ?_)
      refine operands_cons_leads (hstack.comes_cdr hs (hstack.comes_name hs rfl ⟨v, vs, hls, ?_⟩))
      refine operands_nil_leads (definition_leads rfl (s := s'.withObject) hc rfl ?_)
      have hobject := (Store.Prepares.refl s').withObject
      obtain ⟨hprepares₂, hs₂, hstack₂⟩ := (hhelpers.later hobject).stack.entering hprepares.withObject
        (hs.prepares hobject) (t := [("ls", .ofList s'.nextObject vs)])
        (show ∀ name ∈ (["ls"] : List Text), name ∈ ownNames by decide)
      have hscope := hobject.withObject.withScope (hhelpers.stack.lt_size hs.wellFormed)
        [("ls", .ofList s'.nextObject vs)]
      refine (ih (fun w hw => hproper w (List.mem_cons_of_mem v hw)) hprepares₂ hs₂ (hhelpers.later hscope) hstack₂
        (.ofList _ vs) start').mono ?_
      rintro w s'' ⟨hprepares'', rfl⟩
      exact ⟨hprepares'', by simp [hempty]⟩

/-- The loop inside the mapping of one list applies a procedure on lists to the items in order. -/
theorem mapOneLoop_comes {op : ListOp} (harity : (Primitive.lists op).arity.accepts 1 = true)
    {R : Value → Value → Prop} {vs : List Value}
    (hrun : ∀ v ∈ vs, ∀ s, ∃ w s', op.run [v] s = .ok w s' ∧ s.Prepares s' ∧ R v w) {c : ClosureId} {inner : ScopeId}
    {start : ObjectId} {list l w : Value} {acc : List Value} (hprepares : s.Prepares s') (hs : s'.KnowsNames)
    (hloop : s'.HasLoop (withNew own s s') [[("g", .atom (.primitive (.lists op))), ("l", list)],
      mapNames f lists c₁ c₂] c inner "l" "acc" (mapOneLoop.code start))
    (hstack : s'.Stack (withNew own s s') scope [[("l", l), ("acc", w)], [("loop", .atom (.closure c))],
      [("g", .atom (.primitive (.lists op))), ("l", list)], mapNames f lists c₁ c₂])
    (hl : l.IsRow vs) (hw : w.IsRow acc) :
    Comes nesting (depth + 4) (mapOneLoop.code start) scope s' (fun u s'' => s.Prepares s'' ∧
      ∃ ws, u.IsRow (acc.reverse ++ ws) ∧ List.Forall₂ R vs ws) fun _ _ => False := by
  induction vs generalizing s' scope l w acc with
  | nil =>
    refine hstack.comes_if hs (hstack.comes_isNull hs (hstack.comes_name hs rfl ?_))
    rw [hl.isNil_eq]
    refine hstack.comes_reverse hs (hstack.comes_name hs rfl ⟨acc, hw, hprepares.withObject, [], ?_, .nil⟩)
    rw [List.append_nil]
    exact .ofList _ _
  | cons v vs ih =>
    -- The stores in the order in which the round makes them: the rest of the list is copied, the item is mapped,
    -- the result is put in front of those before, and the next round has its scope.
    have hobject := (Store.Prepares.refl s').withObject
    have hs₁ := hs.prepares hobject
    have hstack₁ := hstack.later hobject
    obtain ⟨u, s₂, hu, hprepares₂, hR⟩ := hrun v List.mem_cons_self s'.withObject
    have hlater := (hobject.trans hprepares₂).withObject
    have hs₂ := hs₁.prepares hprepares₂
    have hstack₂ := hstack₁.later hprepares₂
    have hs₃ := hs.prepares hlater
    have hloop₃ := hloop.later hlater
    obtain ⟨hprepares₄, hs₄, hloop₄, hstack₄⟩ := hloop₃.withRound (hprepares.trans hlater) hs₃
      (.ofList s'.nextObject vs) (.cons s₂.nextObject u w)
      (show ∀ name ∈ (["l", "acc"] : List Text), name ∈ ownNames by decide)
    refine hstack.comes_if hs (hstack.comes_isNull hs (hstack.comes_name hs rfl ?_))
    rw [hl.isNil_eq]
    refine hstack.comes_procedure hs rfl rfl (by simp) ?_
    refine operands_cons_leads (hstack.comes_cdr hs (hstack.comes_name hs rfl ⟨v, vs, hl, ?_⟩))
    refine operands_cons_leads (hstack₁.comes_cons hs₁ (hstack₁.comes_procedure hs₁ rfl rfl (by simp) ?_))
    refine operands_cons_leads (hstack₁.comes_car hs₁ (hstack₁.comes_name hs₁ rfl ⟨v, hl.head_eq, ?_⟩))
    refine operands_nil_leads (applyLists_leads op harity hu (hstack₂.comes_name hs₂ rfl ?_))
    refine operands_nil_leads (hloop₃.leads ?_)
    refine (ih (fun x hx => hrun x (List.mem_cons_of_mem v hx)) hprepares₄ hs₄ hloop₄ hstack₄ (.ofList _ vs)
      (hw.cons _ u)).mono ?_
    rintro r s'' ⟨hprepares'', ws, hr, hws⟩
    refine ⟨hprepares'', u :: ws, ?_, .cons hR hws⟩
    simpa only [List.reverse_cons, List.append_assoc, List.singleton_append] using hr

/-! ### Their calls -/

variable {ts : List (Table Value)} {ls : Value} {vs : List Value}

theorem anyNull_comes (nesting depth : Nat) (id : ObjectId) (hproper : ∀ v ∈ vs, v.isProper = true) (hs : s.KnowsNames)
    (hhelpers : s.HasHelpers own f lists c₁ c₂ home) (hstack : s.Stack own scope ts)
    (htest : Store.found "any-null?" ts = some (.atom (.closure c₁))) (hls : Store.found "ls" ts = some ls)
    (hrow : ls.IsRow vs) : Comes nesting (depth + 3) (.call id "any-null?" [.sym "ls"]) scope s (fun w s'' =>
      s.Prepares s'' ∧ w = .bool ((vs.map Value.items).any List.isEmpty)) fun _ _ => False := by
  obtain ⟨start, hc⟩ := hhelpers.anyNull
  refine hstack.comes_procedure hs htest rfl (by simp) (operands_cons_leads (hstack.comes_name hs hls ?_))
  obtain ⟨hprepares₁, hs₁, hstack₁⟩ := hhelpers.turn.stack.entering (.refl s) hs (t := [("ls", ls)])
    (show ∀ name ∈ (["ls"] : List Text), name ∈ ownNames by decide)
  have hscope := (Store.Prepares.refl s).withObject.withScope (hhelpers.stack.lt_size hs.wellFormed) [("ls", ls)]
  refine operands_nil_leads (definition_leads rfl hc rfl ?_)
  exact anyNullBody_comes hproper hprepares₁ hs₁ (hhelpers.turn.later hscope) hstack₁ hrow start

theorem mapOne_comes (op : ListOp) (nesting depth : Nat) (id : ObjectId) (hname : op.name ∈ builtinNames)
    (harity : (Primitive.lists op).arity.accepts 1 = true) {R : Value → Value → Prop}
    (hrun : ∀ v ∈ vs, ∀ s, ∃ w s', op.run [v] s = .ok w s' ∧ s.Prepares s' ∧ R v w)
    (hs : s.KnowsNames) (hhelpers : s.HasHelpers own f lists c₁ c₂ home) (hstack : s.Stack own scope ts)
    (hmap : Store.found "map1" ts = some (.atom (.closure c₂)))
    (hls : Store.found "ls" ts = some ls) (hrow : ls.IsRow vs) :
    Comes nesting (depth + 4) (.call id "map1" [.sym op.name, .sym "ls"]) scope s (fun u s'' =>
      s.Prepares s'' ∧ ∃ ws, u.IsRow ws ∧ List.Forall₂ R vs ws) fun _ _ => False := by
  obtain ⟨start, hc⟩ := hhelpers.mapOne
  refine hstack.comes_procedure hs hmap rfl (by simp) ?_
  refine operands_cons_leads (.name (hstack.means_primitive hs (.lists op) hname).value ?_)
  refine operands_cons_leads (hstack.comes_name hs hls (operands_nil_leads (definition_leads rfl hc rfl ?_)))
  obtain ⟨hprepares₁, hs₁, hstack₁⟩ := hhelpers.turn.stack.entering (.refl s) hs
    (t := [("g", .atom (.primitive (.lists op))), ("l", ls)])
    (show ∀ name ∈ (["g", "l"] : List Text), name ∈ ownNames by decide)
  obtain ⟨id, spec, start₁, start₂, start₃, hcode, hspec⟩ :=
    exists_code_loop "l" "acc" (.sym "l") quotedNil mapOneLoop start
  rw [hcode]
  obtain ⟨hprepares₂, hs₂, hstack₂, hloop₂⟩ := hstack₁.withLoop hprepares₁ hs₁ "l" "acc" (mapOneLoop.code start₃)
  obtain ⟨hprepares₃, hs₃, hloop₃, hstack₃⟩ := hloop₂.withRound hprepares₂ hs₂ ls .nil
    (show ∀ name ∈ (["l", "acc"] : List Text), name ∈ ownNames by decide)
  refine .loop (hstack₁.means_form hs₁ .bind (by decide)) (hspec nesting) ?_
  refine hstack₂.comes_name hs₂ rfl (hstack₂.comes_quotedNil hs₂ ⟨hloop₂.closure, ?_⟩)
  exact mapOneLoop_comes harity hrun hprepares₃ hs₃ hloop₃ hstack₃ hrow .nil

/-- The mapping by `car` gives the first items of the lists. -/
theorem mapOne_car_comes (nesting depth : Nat) (id : ObjectId) (hvs : ∀ v ∈ vs, ∃ x xs, v.IsRow (x :: xs))
    (hs : s.KnowsNames) (hhelpers : s.HasHelpers own f lists c₁ c₂ home) (hstack : s.Stack own scope ts)
    (hmap : Store.found "map1" ts = some (.atom (.closure c₂)))
    (hls : Store.found "ls" ts = some ls) (hrow : ls.IsRow vs) :
    Comes nesting (depth + 4) (.call id "map1" [.sym "car", .sym "ls"]) scope s (fun u s'' =>
      s.Prepares s'' ∧ u.IsRow ((vs.map Value.items).filterMap List.head?)) fun _ _ => False := by
  have hrun : ∀ v ∈ vs, ∀ s, ∃ w s', ListOp.car.run [v] s = .ok w s' ∧ s.Prepares s' ∧ v.items.head? = some w := by
    intro v hv s
    obtain ⟨x, xs, hx⟩ := hvs v hv
    exact ⟨x, s, ListOp.run_car hx.head_eq s, .refl s, by rw [hx.items, List.head?_cons]⟩
  have heads : ∀ {vs ws : List Value}, List.Forall₂ (fun v w : Value => v.items.head? = some w) vs ws →
      (vs.map Value.items).filterMap List.head? = ws := by
    intro vs ws h
    induction h with
    | nil => rfl
    | cons hw _ ih => rw [List.map_cons, List.filterMap_cons_some hw, ih]
  refine (mapOne_comes .car nesting depth id (by decide) rfl hrun hs hhelpers hstack hmap hls hrow).mono ?_
  rintro u s'' ⟨hprepares'', ws, hu, hws⟩
  exact ⟨hprepares'', (heads hws).symm ▸ hu⟩

/-- The mapping by `cdr` gives what is left of the lists. -/
theorem mapOne_cdr_comes (nesting depth : Nat) (id : ObjectId) (hvs : ∀ v ∈ vs, ∃ x xs, v.IsRow (x :: xs))
    (hs : s.KnowsNames) (hhelpers : s.HasHelpers own f lists c₁ c₂ home) (hstack : s.Stack own scope ts)
    (hmap : Store.found "map1" ts = some (.atom (.closure c₂)))
    (hls : Store.found "ls" ts = some ls) (hrow : ls.IsRow vs) :
    Comes nesting (depth + 4) (.call id "map1" [.sym "cdr", .sym "ls"]) scope s (fun u s'' =>
      s.Prepares s'' ∧ ∃ ws, u.IsRow ws ∧ (∀ w ∈ ws, w.isProper = true) ∧
        ws.map Value.items = (vs.map Value.items).map List.tail) fun _ _ => False := by
  have hrun : ∀ v ∈ vs, ∀ s, ∃ w s', ListOp.cdr.run [v] s = .ok w s' ∧ s.Prepares s' ∧ w.IsRow v.items.tail := by
    intro v hv s
    obtain ⟨x, xs, hx⟩ := hvs v hv
    refine ⟨.ofList s.nextObject xs, s.withObject, ListOp.run_cdr (hx.tail_eq _), (Store.Prepares.refl s).withObject, ?_⟩
    rw [hx.items, List.tail_cons]
    exact .ofList _ xs
  have tails : ∀ {vs ws : List Value}, List.Forall₂ (fun v w : Value => w.IsRow v.items.tail) vs ws →
      (∀ w ∈ ws, w.isProper = true) ∧ ws.map Value.items = (vs.map Value.items).map List.tail := by
    intro vs ws h
    induction h with
    | nil => exact ⟨by simp, rfl⟩
    | cons hw _ ih => exact ⟨List.forall_mem_cons.mpr ⟨hw.proper, ih.1⟩, by rw [List.map_cons, hw.items, ih.2]; rfl⟩
  refine (mapOne_comes .cdr nesting depth id (by decide) rfl hrun hs hhelpers hstack hmap hls hrow).mono ?_
  exact fun u s'' ⟨hprepares'', ws, hu, hws⟩ => ⟨hprepares'', ws, hu, tails hws⟩

end

/-! ### Mapping -/

/-- The code of the loop. -/
theorem exists_code_mapLoop (start : ObjectId) : ∃ i₁ i₂ i₃ i₄ i₅ i₆ i₇ i₈, mapLoop.code start =
    .call i₁ "if" [.call i₂ "any-null?" [.sym "ls"], .call i₃ "reverse" [.sym "acc"],
      .call i₄ "loop" [.call i₅ "map1" [.sym "cdr", .sym "ls"],
        .call i₆ "cons" [.call i₇ "apply" [.sym "f", .call i₈ "map1" [.sym "car", .sym "ls"]], .sym "acc"]]] :=
  ⟨_, _, _, _, _, _, _, _, rfl⟩

theorem mapLoop_turns {rounds nesting level depth : Nat} (hlevel : level ≤ depth + 4) {a : Atom}
    (ha : a.kind = .procedure) {c c₁ c₂ : ClosureId} {home inner : ScopeId} {start : ObjectId}
    {lists : Value} {vs : List Value} (hne : vs ≠ []) (hproper : ∀ v ∈ vs, v.isProper = true)
    {own : ScopeId → Prop} {s s' : Store} {scope : ScopeId} {last ls w : Value} {acc : List Value}
    (hprepares : s.Prepares s') (hs : s'.KnowsNames)
    (hhelpers : s'.HasHelpers (withNew own s s') (.atom a) lists c₁ c₂ home)
    (hloop : s'.HasLoop (withNew own s s') [mapNames (.atom a) lists c₁ c₂] c inner "ls" "acc" (mapLoop.code start))
    (hstack : s'.Stack (withNew own s s') scope [[("ls", ls), ("acc", w)], [("loop", .atom (.closure c))],
      mapNames (.atom a) lists c₁ c₂]) (hls : ls.IsRow vs) (hw : w.IsRow acc) :
    ∃ turns, InTurn (.nested rounds nesting (level + 1)) (.atom a) own last s
        ((tuples (vs.map Value.items)).map fun args _ => args) turns ∧
      (turns = .strayed ∨ Comes nesting (depth + 7) (mapLoop.code start) scope s'
        (turns.Returned fun results v => v.IsRow (acc.reverse ++ results)) turns.Failed) := by
  obtain ⟨i₁, i₂, i₃, i₄, i₅, i₆, i₇, i₈, hcode⟩ := exists_code_mapLoop start
  -- On the number of tuples, not on the lists: what is left of a list is a new value.
  induction hn : shortest (vs.map Value.items) generalizing own s s' scope last vs ls w acc with
  | zero =>
    have hany := (shortest_eq_zero_iff (mt List.map_eq_nil_iff.mp hne)).mp hn
    obtain ⟨_, s₁, ⟨hlater₁, rfl⟩, htest⟩ := (anyNull_comes nesting (depth + 3) i₂
      hproper hs hhelpers hstack rfl rfl hls).exists_value
    have hs₁ := hs.prepares hlater₁
    have hstack₁ := hstack.later hlater₁
    rw [tuples_of_any_empty hany, hcode]
    refine ⟨_, .done (hprepares.trans hlater₁).withObject, .inr (hstack.comes_if hs (htest _ _ ?_))⟩
    rw [hany]
    refine hstack₁.comes_reverse hs₁ (hstack₁.comes_name hs₁ rfl ⟨acc, hw, [], rfl, ?_⟩)
    show Value.IsRow _ (acc.reverse ++ [])
    rw [List.append_nil]
    exact .ofList _ _
  | succ n ih =>
    have hany : (vs.map Value.items).any List.isEmpty = false :=
      Bool.eq_false_iff.mpr fun hany => nomatch hn.symm.trans (shortest_of_any_empty hany)
    have hvs := Value.exists_isRow_cons hproper hany
    -- The test and both mappings call nothing of the caller, so they come before the turn.
    obtain ⟨_, s₁, ⟨hlater₁, rfl⟩, htest⟩ := (anyNull_comes nesting (depth + 3) i₂
      hproper hs hhelpers hstack rfl rfl hls).exists_value
    have hs₁ := hs.prepares hlater₁
    have hstack₁ := hstack.later hlater₁
    obtain ⟨tails, s₂, ⟨hlater₂, ws, htails, hws, hitems⟩, hcdr⟩ := (mapOne_cdr_comes nesting (depth + 2) i₅
      hvs hs₁ (hhelpers.later hlater₁) hstack₁ rfl rfl hls).exists_value
    have hs₂ := hs₁.prepares hlater₂
    have hstack₂ := hstack₁.later hlater₂
    obtain ⟨heads, s₃, ⟨hlater₃, hheads⟩, hcar⟩ := (mapOne_car_comes nesting depth i₈
      hvs hs₂ ((hhelpers.later hlater₁).later hlater₂) hstack₂ rfl rfl hls).exists_value
    have hlater := (hlater₁.trans hlater₂).trans hlater₃
    have hs₃ := hs₂.prepares hlater₃
    have hstack₃ := hstack₂.later hlater₃
    rw [tuples_eq_cons (mt List.map_eq_nil_iff.mp hne) hany, List.map_cons]
    refine InTurn.exists_turn (fun turns u s₄ => Comes nesting (depth + 7) (mapLoop.code start)
        s₄.scopes.size (s₄.withObject.withRound inner "ls" "acc" tails (.cons s₄.nextObject u w))
        (turns.Returned fun results v => v.IsRow ((u :: acc).reverse ++ results)) turns.Failed)
      (hprepares.trans hlater) hs₃ hstack₃.isOwn (hstack₃.lt_size hs₃.wellFormed)
      (fun u s₄ hs₄ hevolves hkeeps => ?_) fun turns hcall => ?_
    -- The rounds after the call, from whatever store it leaves the names of the loop in.
    · have hobject := (Store.Prepares.refl s₄).withObject
      have hloop₄ := ((hloop.later hlater).keeps hkeeps hevolves).turn.later hobject
      obtain ⟨hprepares₅, hs₅, hloop₅, hstack₅⟩ := hloop₄.withRound hobject (hs₄.prepares hobject) tails
        (.cons s₄.nextObject u w) (show ∀ name ∈ (["ls", "acc"] : List Text), name ∈ ownNames by decide)
      have hhelpers₅ := ((hhelpers.later hlater).keeps hkeeps hevolves).turn.later hprepares₅
      rw [← hitems]
      refine ih ?_ hws hprepares₅ hs₅ hhelpers₅ hloop₅ hstack₅ htails (hw.cons _ u) ?_
      · rintro rfl
        exact hne (List.map_eq_nil_iff.mp (List.map_eq_nil_iff.mp hitems.symm))
      · rw [hitems]
        rw [shortest_eq_succ (mt List.map_eq_nil_iff.mp hne) hany] at hn
        exact Nat.succ_injective hn
    -- The round itself, as the code has it, up to the call and from its value on.
    · rw [hcode]
      refine hstack.comes_if hs (htest _ _ ?_)
      rw [hany]
      refine hstack₁.comes_procedure hs₁ rfl rfl (by simp) (operands_cons_leads (hcdr _ _ (operands_cons_leads ?_)))
      refine hstack₂.comes_cons hs₂ (.apply (hstack₂.means_primitive hs₂ (.control .apply) (by decide)) ha ?_)
      refine operands_cons_leads (hstack₂.comes_name hs₂ rfl (operands_cons_leads (hcar _ _ ?_)))
      refine operands_nil_leads ⟨[], heads, rfl, hheads.proper, ?_⟩
      rw [hheads.items, List.nil_append]
      refine (hcall _ _ hlevel (Nat.le_succ_of_le hlevel)).mono fun next s₄ hnext => hnext.mono ?_
      rintro u s₄ ⟨hs₄, hevolves, hkeeps, turns, rfl, hbody⟩
      have hstack₄ := hstack₃.keeps hkeeps hevolves
      have hobject := (Store.Prepares.refl s₄).withObject
      refine hstack₄.comes_name hs₄ rfl (operands_nil_leads ?_)
      refine (((hloop.later hlater).keeps hkeeps hevolves).turn.later hobject).leads ?_
      refine hbody.imp (fun v s₅ hreturned => .after ?_) fun _ _ hfailed => hfailed.after u
      simpa only [List.reverse_cons, List.append_assoc, List.singleton_append] using hreturned

/-- The code of the whole. -/
theorem exists_code_map (start : ObjectId) : ∃ i₁ j₁ k₁ i₂ j₂ k₂ k₃, Datum.codes map.body start =
    [.call i₁ "define" (.list j₁ (.sym "any-null?") [.sym "ls"] none :: Datum.codes anyNull.body k₁),
      .call i₂ "define" (.list j₂ (.sym "map1") [.sym "g", .sym "l"] none :: Datum.codes mapOne.body k₂),
      (loop "ls" (.sym "lists") "acc" quotedNil mapLoop).code k₃] :=
  ⟨_, _, _, _, _, _, _, rfl⟩

/-- `map` calls its procedure on the tuples of the items of its lists, in order. -/
theorem map_turns {rounds nesting level depth : Nat} (hlevel : level ≤ depth + 4) {a : Atom}
    (ha : a.kind = .procedure) {vs : List Value} (hne : vs ≠ []) (hproper : ∀ v ∈ vs, v.isProper = true)
    {own : ScopeId → Prop} (last : Value) {s : Store} (hs : s.KnowsNames) {c : ClosureId} {start : ObjectId}
    (hc : s.closures[c]? = some (map.closure start rootScope)) (scope : ScopeId) (above : Nat) :
    ∃ turns, InTurn (.nested rounds nesting (level + 1)) (.atom a) own last s
        ((tuples (vs.map Value.items)).map fun args _ => args) turns ∧
      (turns = .strayed ∨ LeadsTo (fun rounds => (nested rounds nesting (above + 2)).applyStep (.atom (.closure c))
        (.atom a :: vs) scope) s (Onward nesting (depth + 7)
          (turns.Returned fun results v => v.IsRow results) turns.Failed) turns.Failed) := by
  obtain ⟨i₁, j₁, k₁, i₂, j₂, k₂, k₃, hcode⟩ := exists_code_map start
  obtain ⟨i, spec, l₁, l₂, l₃, hloopCode, hspec⟩ := exists_code_loop "ls" "acc" (.sym "lists") quotedNil mapLoop k₃
  obtain ⟨hprepares₁, hs₁, hstack₁⟩ := hs.entering (.refl s) own
    (t := [("f", .atom a), ("lists", .ofList s.nextObject vs)])
    (show ∀ name ∈ (["f", "lists"] : List Text), name ∈ ownNames by decide)
  -- The call, the two definitions, the loop and its first round each leave a store that knows the names so far.
  set s₁ := s.entering rootScope [("f", .atom a), ("lists", .ofList s.nextObject vs)]
  have hdefine₁ := hstack₁.means_form hs₁ .define (by decide)
  obtain ⟨hprepares₂, hs₂, hstack₂⟩ := hstack₁.defining hprepares₁ hs (Nat.le_refl _)
    (c := anyNull.closure k₁ s.scopes.size) rfl (x := "any-null?") (by decide)
  set s₂ := s₁.withProcedure s.scopes.size (anyNull.closure k₁ s.scopes.size) "any-null?"
  have hdefine₂ := hstack₂.means_form hs₂ .define (by decide)
  obtain ⟨hprepares₃, hs₃, hstack₃⟩ := hstack₂.defining hprepares₂ hs (Nat.le_refl _)
    (c := mapOne.closure k₂ s.scopes.size) rfl (x := "map1") (by decide)
  set s₃ := s₂.withProcedure s.scopes.size (mapOne.closure k₂ s.scopes.size) "map1"
  have hhelpers : s₃.HasHelpers (withNew own s s₃) (.atom a) (.ofList s.nextObject vs) s₁.closures.size
      s₂.closures.size s.scopes.size :=
    ⟨hstack₃, ⟨k₁, getElem?_push_of_some Array.getElem?_push_size _⟩, ⟨k₂, Array.getElem?_push_size⟩⟩
  obtain ⟨hprepares₄, hs₄, hstack₄, hloop₄⟩ := hstack₃.withLoop hprepares₃ hs₃ "ls" "acc" (mapLoop.code l₃)
  set s₄ := s₃.withLoop s.scopes.size "loop" ⟨["ls", "acc"], none⟩ (mapLoop.code l₃)
  obtain ⟨hprepares₅, hs₅, hloop₅, hstack₅⟩ := hloop₄.withRound hprepares₄ hs₄ (.ofList s.nextObject vs) .nil
    (show ∀ name ∈ (["ls", "acc"] : List Text), name ∈ ownNames by decide)
  have hlater := ((Store.Prepares.refl s₃).withLoop (hstack₃.lt_size hs₃.wellFormed) "loop" ⟨["ls", "acc"], none⟩
    (mapLoop.code l₃)).withObject.withScope (hloop₄.stack.lt_size hs₄.wellFormed)
      (Params.bindings ⟨["ls", "acc"], none⟩ s₄.nextObject [.ofList s.nextObject vs, .nil])
  obtain ⟨turns, hin, hrest⟩ := mapLoop_turns hlevel ha hne hproper hprepares₅ hs₅ (hhelpers.later hlater) hloop₅
    hstack₅ (.ofList _ vs) .nil
  refine ⟨turns, hin, hrest.imp_right fun hcomes => applyClosure_leads hc ?_ ?_⟩
  · exact (Arity.accepts_atLeast 1 _).mpr (by rw [List.length_cons]; omega)
  rw [Definition.closure, hcode]
  refine sequence_cons_leads (.define hdefine₁ rfl (by simp [Datum.codes, anyNull]) ?_)
  refine sequence_cons_leads (.define hdefine₂ rfl (by simp [Datum.codes, mapOne]) (sequence_last_leads ?_))
  rw [hloopCode]
  refine .loop (hstack₃.means_form hs₃ .bind (by decide)) (hspec nesting) ?_
  exact hstack₄.comes_name hs₄ rfl (hstack₄.comes_quotedNil hs₄ ⟨hloop₄.closure, hcomes⟩)

/-! ### Mapping for effect -/

theorem exists_code_forEach (start : ObjectId) : ∃ i₁ i₂, Datum.codes forEach.body start =
    [.call i₁ "apply" [.sym "map", .sym "f", .sym "lists"], .call i₂ "if" [.bool false, .bool false]] :=
  ⟨_, _, rfl⟩

/-- `for-each` makes the calls that `map` makes, and gives the unspecified value. -/
theorem forEach_turns {rounds nesting level depth : Nat} (hlevel : level ≤ depth + 4) {a : Atom}
    (ha : a.kind = .procedure) {vs : List Value} (hne : vs ≠ []) (hproper : ∀ v ∈ vs, v.isProper = true)
    (last : Value) {s : Store} (hs : s.KnowsNames) {c : ClosureId} {start : ObjectId}
    (hc : s.closures[c]? = some (forEach.closure start rootScope)) (scope : ScopeId) :
    ∃ turns, InTurn (.nested rounds nesting (level + 1)) (.atom a) (fun _ => False) last s
        ((tuples (vs.map Value.items)).map fun args _ => args) turns ∧
      (turns = .strayed ∨ LeadsTo (fun rounds => (nested rounds nesting (depth + 8)).applyStep (.atom (.closure c))
        (.atom a :: vs) scope) s (Onward nesting (depth + 8)
          (turns.Returned fun _ v => v = .void) turns.Failed) turns.Failed) := by
  obtain ⟨i₁, i₂, hcode⟩ := exists_code_forEach start
  obtain ⟨hprepares₁, hs₁, hstack₁⟩ := hs.entering (.refl s) (fun _ => False)
    (t := [("f", .atom a), ("lists", .ofList s.nextObject vs)])
    (show ∀ name ∈ (["f", "lists"] : List Text), name ∈ ownNames by decide)
  obtain ⟨_, hv, m, start', rfl, hm⟩ := hs₁.shared map (List.mem_of_getElem? (i := 1) rfl)
  obtain ⟨turns, hin, hrest⟩ := map_turns hlevel ha hne hproper last hs₁ hm s.scopes.size (depth + 4)
  refine ⟨turns, .of_prepares hprepares₁ hin, hrest.imp_right fun hmap => applyClosure_leads hc ?_ ?_⟩
  · exact (Arity.accepts_atLeast 1 _).mpr (by rw [List.length_cons]; omega)
  rw [Definition.closure, hcode]
  refine sequence_cons_leads (Comes.apply (a := .closure m)
    (hstack₁.means_primitive hs₁ (.control .apply) (by decide)) rfl ?_)
  refine operands_cons_leads (.name (hstack₁.means_global hs₁ hv (by decide)).value ?_)
  refine operands_cons_leads (hstack₁.comes_name hs₁ rfl (operands_cons_leads (hstack₁.comes_name hs₁ rfl ?_)))
  have hlists := Value.IsRow.ofList s.nextObject vs
  refine operands_nil_leads ⟨[.atom a], .ofList s.nextObject vs, rfl, hlists.proper, ?_⟩
  rw [hlists.items]
  refine hmap.mono fun next s' hnext => hnext.mono ?_
  rintro v s'' ⟨results, rfl, -⟩
  obtain ⟨hs'', hstacks⟩ := hin.keeps_of_returned rfl hs₁ fun id hid => hid.elim False.elim And.right
  refine sequence_last_leads (.conditional_one ((hstacks _ _ hstack₁).means_form hs'' .conditional (by decide)) ?_)
  exact .bool ⟨rfl, results, rfl, rfl⟩

/-! ### Whole calls -/

/-- `map` calls its procedure on the tuples of its lists, up to the length of the shortest one, in order and on
nothing else, and gives the list of the results; `for-each` makes the same calls and gives the unspecified value.
Both need eight or nine levels of nested evaluation, and four or five more than the calls, however long the lists
are. -/
theorem map_and_forEach_follow_tuples {s : Store} (hs : s.HasPrelude) {f : Value} (hf : f.isFunction = true)
    {lists : List Value} (hne : lists ≠ []) (hproper : ∀ list ∈ lists, list.isProper = true) :
    s.CallsInTurn map f (f :: lists) .void ((tuples (lists.map Value.items)).map fun args _ => args)
      (fun results v => v.IsRow results) 8 4 ∧
    s.CallsInTurn forEach f (f :: lists) .void ((tuples (lists.map Value.items)).map fun args _ => args)
      (fun _ v => v = .void) 9 5 := by
  obtain ⟨a, rfl, ha, -⟩ := f.exists_of_isFunction hf
  constructor
  · refine hs.callsInTurn (List.mem_of_getElem? (i := 5) rfl) fun _ _ level depth c start scope hlevel hc => ?_
    exact map_turns (by omega) ha hne hproper .void hs.toKnowsNames hc scope (depth + 5)
  · refine hs.callsInTurn (List.mem_of_getElem? (i := 6) rfl) fun _ _ level depth c start scope hlevel hc => ?_
    exact forEach_turns (by omega) ha hne hproper .void hs.toKnowsNames hc scope

/-- Two lists of different lengths are mapped by `cons` in a new session. -/
theorem map_and_forEach_follow_tuples_cons :
    let f : Value := .atom (.primitive (.lists .cons))
    let lists : List Value := [.ofList 0 [.int 1, .int 2, .int 3], .ofList 1 [.int 4, .int 5]]
    f.isFunction = true ∧ lists ≠ [] ∧ (∀ list ∈ lists, list.isProper = true) ∧
      ∃ s, (∀ rounds > 0, Session.start (.nested rounds 50 10) (.standard none) Session.emptyStore = .ok () s) ∧
        s.HasPrelude ∧
        s.CallsInTurn map f (f :: lists) .void [fun _ => [.int 1, .int 4], fun _ => [.int 2, .int 5]]
          (fun results v => v.IsRow results) 8 4 := by
  intro f lists
  obtain ⟨s, hstart, hs⟩ := Session.start_hasPrelude (Nat.le_refl 50) 8
  have hproper : ∀ list ∈ lists, list.isProper = true := by simp [lists, Value.ofList, Value.assemble, Value.isProper]
  exact ⟨rfl, by simp [lists], hproper, s, fun rounds hrounds => (hstart rounds hrounds).2, hs,
    (map_and_forEach_follow_tuples hs (f := f) rfl (by simp [lists]) hproper).1⟩

/-! ### A procedure that binds names anew -/

/-- The code `(set! acc '(7))`. -/
def settingAcc : Value := .call 0 "set!" [.sym "acc", .call 1 "quote" [.ofList 2 [.int 7]]]

/-- A new session evaluates the forms of the prelude and calls one of its procedures with `eval` and that code. -/
def callWithEval (name : Text) : Action Value := do
  let ev := Evaluator.nested 30 50 10
  let _ ← ev.evalData rootScope forms
  let proc ← Action.lookup rootScope name
  ev.call proc [.atom (.primitive (.control .eval)), .ofList 3 [settingAcc]] rootScope

/-- Whether a value comes out whose items satisfy a test. -/
def gives (test : List Value → Bool) : EStateM.Result Signal Store Value → Bool
  | .ok v _ => test v.items
  | .error _ _ => false

/-- What a call with `eval` gives is given from a store that has the prelude. -/
theorem exists_call_of_gives {name : Text} {test : List Value → Bool}
    (h : gives test (callWithEval name Session.emptyStore) = true) :
    ∃ s proc v s', s.HasPrelude ∧ s.scopes.lookup? rootScope name = some proc ∧
      (Evaluator.nested 30 50 10).call proc [.atom (.primitive (.control .eval)), .ofList 3 [settingAcc]] rootScope s =
        .ok v s' ∧ test v.items = true := by
  obtain ⟨s, hforms, hs⟩ := Session.start_hasPrelude (Nat.le_refl 50) 8
  have hrun : callWithEval name Session.emptyStore = (Action.lookup rootScope name >>= fun proc =>
      (Evaluator.nested 30 50 10).call proc [.atom (.primitive (.control .eval)), .ofList 3 [settingAcc]] rootScope) s :=
    bind_of_ok (hforms 30 (by decide)).1
  rw [hrun] at h
  cases hproc : s.scopes.lookup? rootScope name with
  | none =>
    have hunbound : Action.lookup rootScope name s = .error (.failure (.unbound name)) s := by
      rw [Action.lookup, get_bind, hproc]
      rfl
    rw [bind_of_error hunbound] at h
    exact absurd h Bool.false_ne_true
  | some proc =>
    have hbound : Action.lookup rootScope name s = .ok proc s := by
      rw [Action.lookup, get_bind, hproc]
      rfl
    rw [bind_of_ok hbound] at h
    cases hcall : (Evaluator.nested 30 50 10).call proc [.atom (.primitive (.control .eval)), .ofList 3 [settingAcc]]
        rootScope s with
    | ok v s' =>
      rw [hcall] at h
      exact ⟨s, proc, v, s', hs, hproc, hcall, h⟩
    | error e s' =>
      rw [hcall] at h
      exact absurd h Bool.false_ne_true

/-- A procedure that binds variables of `map` anew makes it give more than a result for each tuple. -/
theorem not_map_gives_result_for_each_tuple :
    ¬ ∀ (s : Store) (f proc v : Value) (lists : List Value) (rounds nesting depth : Nat) (scope : ScopeId) (s' : Store),
      s.HasPrelude → f.isFunction = true → lists ≠ [] → (∀ list ∈ lists, list.isProper = true) →
      s.scopes.lookup? rootScope "map" = some proc →
      (nested rounds nesting depth).call proc (f :: lists) scope s = .ok v s' →
      v.items.length = (tuples (lists.map Value.items)).length := by
  intro hclaim
  have hgives : gives (fun items => items.length == 2) (callWithEval "map" Session.emptyStore) = true := by
    decide +kernel
  obtain ⟨s, proc, v, s', hs, hproc, hcall, htwo⟩ := exists_call_of_gives hgives
  have hone := hclaim s _ proc v [.ofList 3 [settingAcc]] 30 50 10 rootScope s' hs rfl (List.cons_ne_nil _ _)
    (fun list hlist => by rw [List.mem_singleton.mp hlist]; rfl) hproc hcall
  rw [hone] at htwo
  exact nomatch htwo

end Prelude

end Lisplet
