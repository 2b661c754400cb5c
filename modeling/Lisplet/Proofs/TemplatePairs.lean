import Lisplet.Evaluation.Machine
import Lisplet.Proofs.Comparison
import Lisplet.Proofs.Outcomes

/-!
# Templates pair by pair

The usual definition of quasiquotation walks a template along its pairs: a pair gives the pair of what its
head and its tail give, a splicing head puts the items of its list in front of what the tail gives, and a
tail that is a hole itself is evaluated. `Template.fill` walks rows of items instead. Both are the same
action: whatever the evaluator does, they evaluate the same expressions in the same order, and end with the
same value or the same failure on the same store.

The objects that the walk passes on the way are no objects of the language. Only a finished list gets an
identity.
-/

namespace Lisplet

namespace Value

theorem weight_pos (v : Value) : 0 < v.weight := by
  cases v with
  | list id head rest last =>
    rw [weight]
    omega
  | _ => exact Nat.one_pos

/-- The parts of a pair weigh no more than the pair. -/
theorem weight_parts_le (id id' : ObjectId) (head : Value) (rest : List Value) (last : Option Atom) :
    head.weight + (assemble id' rest last).weight ≤ (list id head rest last).weight := by
  cases rest with
  | nil => cases last <;> simp only [assemble, weight, weightRow] <;> omega
  | cons v vs =>
    simp only [assemble, weight, weightRow]
    omega

theorem assemble_cons (id : ObjectId) (v : Value) (vs : List Value) (last : Option Atom) :
    assemble id (v :: vs) last = list id v vs last := rfl

end Value

/-- Every atom is equal to itself, a NaN too. -/
theorem Atom.equal_self (content : BufferId → Text) (a : Atom) : a.equal content a = true := by
  cases a <;> simp [Atom.equal, Atom.equivalent, floatEquivalent]

/-- Lists with equal parts and the same ending are equal. -/
theorem Value.compareSpec_of_parts {content : BufferId → Text} {i j : ObjectId} {v w : Value}
    {vs ws : List Value} {last : Option Atom} (h : compareSpec (alike content) v w = true)
    (hs : compareRow (alike content) vs ws = true) :
    compareSpec (alike content) (.list i v vs last) (.list j w ws last) = true := by
  cases last with
  | none =>
    simp only [compareSpec, h, hs]
    rfl
  | some a =>
    simp only [compareSpec, h, hs, Bool.and_true]
    exact Atom.equal_self content a

namespace Template

/-! ### The walk along pairs -/

/-- The identity of the lists that a walk has not finished. -/
def unnamed : ObjectId := 0

/-- A finished list is a new object. -/
def finished (v : Value) : Action Value := do
  let id ← Action.freshObject
  pure (.assemble id v.items v.ending)

/-- The expression of a list that is exactly a hole: the two items `unquote` and the expression. -/
def hole? : Value → Option Value
  | .list _ mark [e] none => if mark.isSymbol unquoteName then some e else none
  | _ => none

section Pairs

variable (isRefused : Value → Bool) (ev : Evaluator) (scope : ScopeId)

mutual

/-- The value of a template, of which some lists are refused where nothing is around them to be spliced
into. -/
def fillPairs (template : Value) : Action Value :=
  if isHeaded unquoteName template then do
    let e ← operand unquoteName template
    ev.eval e scope
  else if isRefused template then Action.shapeError .spliceOutsideList
  else
    match template with
    | .list _ head rest last => do
      let filled ← fillPair head (.assemble unnamed rest last)
      finished filled
    | .atom a => pure (.atom a)
    | .nil => pure .nil
termination_by (template.weight, 1)
decreasing_by
  have h := Value.weight_parts_le unnamed unnamed head rest last
  simp only [Value.weight] at h ⊢
  simp only [Prod.lex_def]
  omega

/-- What a pair gives. -/
def fillPair (head tail : Value) : Action Value := do
  if isHeaded spliceName head then
    let items ← spliced ev scope head
    let rest ← fillTail tail
    pure (.append unnamed items rest)
  else
    let first ← fillPairs head
    let rest ← fillTail tail
    pure (.cons unnamed first rest)
termination_by (head.weight + tail.weight, 0)
decreasing_by
  all_goals
    have hhead := head.weight_pos
    have htail := tail.weight_pos
    simp only [Prod.lex_def]
    omega

/-- What a tail gives: a hole its value, a pair what its parts give, and an ending itself. -/
def fillTail (tail : Value) : Action Value :=
  match hole? tail with
  | some e => ev.eval e scope
  | none =>
    match tail with
    | .list _ head rest last => fillPair head (.assemble unnamed rest last)
    | .atom a => pure (.atom a)
    | .nil => pure .nil
termination_by (tail.weight, 1)
decreasing_by
  have h := Value.weight_parts_le unnamed unnamed head rest last
  simp only [Value.weight] at h ⊢
  simp only [Prod.lex_def]
  omega

end

end Pairs

/-! ### Rows and pairs -/

section

variable (ev : Evaluator) (scope : ScopeId)

/-- The items of a filled rest and what they end in, when the rest stood before this ending. -/
def Filled.chain (last : Option Atom) (filled : Filled) : List Value × Option Atom :=
  match filled.2 with
  | none => (filled.1, last)
  | some v => (filled.1 ++ v.items, v.ending)

theorem Filled.chain_append (last : Option Atom) (front items : List Value) (tail : Option Value) :
    Filled.chain last (front ++ items, tail) =
      (front ++ (Filled.chain last (items, tail)).1, (Filled.chain last (items, tail)).2) := by
  cases tail with
  | none => rfl
  | some v => simp only [chain, List.append_assoc]

/-- A rest with an item is a hole exactly if it is a proper list in tail position of that form. -/
theorem hole?_assemble (element : Value) (more : List Value) (last : Option Atom) :
    hole? (.assemble unnamed (element :: more) last) =
      if last.isNone then tailHole? (element :: more) else none := by
  match last, more with
  | none, [] => rfl
  | none, [_] => rfl
  | none, _ :: _ :: _ => rfl
  | some _, [] => rfl
  | some _, [_] => rfl
  | some _, _ :: _ :: _ => rfl

/-- A list has one head. -/
theorem isHeaded_unique {name name' : Text} {v : Value} (h : isHeaded name v = true)
    (h' : isHeaded name' v = true) : name = name' := by
  unfold isHeaded at h h'
  split at h
  next head _ =>
    unfold Value.isSymbol at h h'
    split at h
    next => exact (of_decide_eq_true h).symm.trans (of_decide_eq_true h')
    next => exact absurd h Bool.false_ne_true
  next => exact absurd h Bool.false_ne_true

/-- A list is finished as its items and its ending are. -/
theorem finished_eq_chain (v : Value) :
    finished v = finished (.assemble unnamed v.items v.ending) := by
  rw [finished, finished, Value.items_assemble, Value.ending_assemble]

/-- Making a list of a first contribution and a filled rest is finishing their chain. -/
theorem finished_chain (last : Option Atom) (front : List Value) (filled : Filled) :
    (do
      let id ← Action.freshObject
      match filled.2 with
      | some v => pure [Value.append id (front ++ filled.1) v]
      | none => pure [Value.assemble id (front ++ filled.1) last] : Action (List Value)) =
    (fun v => [v]) <$> finished (.assemble unnamed
      (front ++ (Filled.chain last filled).1) (Filled.chain last filled).2) := by
  obtain ⟨items, tail⟩ := filled
  rw [finished, Value.items_assemble, Value.ending_assemble, map_bind]
  cases tail with
  | none => simp only [Filled.chain, map_pure]
  | some v => simp only [Filled.chain, map_pure, Value.append, List.append_assoc]

/-- The chain that a pair gives, when it is known what its head contributes and what its tail gives. -/
theorem fillPair_chain {head : Value} {rest : List Value} {last : Option Atom}
    (hhead : fillElement ev scope head =
      if isHeaded spliceName head then spliced ev scope head
      else (fun v => [v]) <$> fillPairs (isHeaded spliceName) ev scope head)
    (hrest : (fun v => (v.items, v.ending)) <$>
        fillTail (isHeaded spliceName) ev scope (.assemble unnamed rest last) =
      Filled.chain last <$> fillRest ev scope last.isNone rest) :
    (fun v => (v.items, v.ending)) <$>
        fillPair (isHeaded spliceName) ev scope head (.assemble unnamed rest last) =
      (do
        let first ← fillElement ev scope head
        let filled ← fillRest ev scope last.isNone rest
        pure (first ++ (Filled.chain last filled).1, (Filled.chain last filled).2)) := by
  -- What follows the head only looks at the items and the ending of what the tail gives.
  have hfront : ∀ front : List Value,
      (do
        let v ← fillTail (isHeaded spliceName) ev scope (.assemble unnamed rest last)
        pure (front ++ v.items, v.ending)) =
      (do
        let filled ← fillRest ev scope last.isNone rest
        pure (front ++ (Filled.chain last filled).1, (Filled.chain last filled).2)) := by
    intro front
    have h := congrArg (fun act => (fun c : List Value × Option Atom => (front ++ c.1, c.2)) <$> act)
      hrest
    simpa only [Functor.map_map, map_eq_pure_bind, bind_assoc, pure_bind] using h
  rw [fillPair, hhead]
  by_cases hsplice : isHeaded spliceName head = true
  · rw [if_pos hsplice, if_pos hsplice]
    simp only [map_bind, map_pure, Value.items_append, Value.ending_append, hfront]
  · rw [if_neg hsplice, if_neg hsplice]
    simp only [map_bind, map_pure, bind_map_left, Value.items_cons, Value.ending_cons]
    exact bind_congr fun v => hfront [v]

mutual

/-- An element contributes the items of its splice, or the one item that walking its pairs gives. -/
theorem fillElement_eq_pairs : ∀ element : Value,
    fillElement ev scope element =
      if isHeaded spliceName element then spliced ev scope element
      else (fun v => [v]) <$> fillPairs (isHeaded spliceName) ev scope element
  | .atom a => by
    rw [fillElement, fillPairs]
    rfl
  | .nil => by
    rw [fillElement, fillPairs]
    rfl
  | .list id head rest last => by
    have hpair := fillPair_chain ev scope (fillElement_eq_pairs head) (fillRest_eq_pairs last rest)
    rw [fillElement, fillPairs]
    by_cases hsplice : isHeaded spliceName (.list id head rest last) = true
    · rw [if_pos hsplice, if_pos hsplice]
    rw [if_neg hsplice, if_neg hsplice, if_neg hsplice]
    by_cases hhole : isHeaded unquoteName (.list id head rest last) = true
    · rw [if_pos hhole, if_pos hhole]
      simp only [map_bind, bind_pure_comp]
    · rw [if_neg hhole, if_neg hhole]
      -- The list that is made of the chain is what walking the pairs gives.
      have h := congrArg (fun act => act >>= fun c : List Value × Option Atom =>
        (fun v => [v]) <$> finished (.assemble unnamed c.1 c.2)) hpair
      simp only [bind_map_left, bind_assoc, pure_bind, ← finished_eq_chain] at h
      simp only [map_bind, h]
      exact bind_congr fun first => bind_congr fun filled => finished_chain last first filled

/-- The rest of a row gives the chain that walking it pair by pair gives. -/
theorem fillRest_eq_pairs (last : Option Atom) : ∀ rest : List Value,
    (fun v => (v.items, v.ending)) <$>
      fillTail (isHeaded spliceName) ev scope (.assemble unnamed rest last) =
    Filled.chain last <$> fillRest ev scope last.isNone rest
  | [] => by
    rw [fillRest, fillTail.eq_def]
    cases last <;> rfl
  | element :: more => by
    have hpair := fillPair_chain ev scope (fillElement_eq_pairs element) (fillRest_eq_pairs last more)
    rw [fillRest, fillTail.eq_def, hole?_assemble]
    cases hhole : (if last.isNone then tailHole? (element :: more) else none) with
    | some e => simp only [map_eq_pure_bind, bind_assoc, pure_bind, Filled.chain, List.nil_append]
    | none =>
      simp only [Value.assemble_cons, hpair, map_bind, map_pure, Filled.chain_append]

end

/-- Filling a template row by row is filling it pair by pair. -/
theorem fill_eq_fillPairs (template : Value) :
    fill ev scope template = fillPairs (isHeaded spliceName) ev scope template := by
  rw [fill]
  by_cases hsplice : isHeaded spliceName template = true
  · have hhole : isHeaded unquoteName template = false := by
      by_contra h
      exact absurd (isHeaded_unique (Bool.not_eq_false _ ▸ h) hsplice) (by decide)
    rw [if_pos hsplice, fillPairs.eq_def, hhole, if_neg Bool.false_ne_true, if_pos hsplice]
  · rw [if_neg hsplice, fillElement_eq_pairs, if_neg hsplice]
    simp only [bind_map_left, bind_pure]

end

/-! ### Templates without holes -/

/-- What is done with a rest that is no hole in tail position. -/
theorem fillRest_cons {ev : Evaluator} {scope : ScopeId} {isProper : Bool} {element : Value}
    {more : List Value} (h : (if isProper then tailHole? (element :: more) else none) = none) :
    fillRest ev scope isProper (element :: more) = (do
      let first ← fillElement ev scope element
      let filled ← fillRest ev scope isProper more
      pure (first ++ filled.1, filled.2)) := by
  rw [fillRest, h]

mutual

/-- Whether a template has no hole and nothing that is spliced in. -/
def isPlain : Value → Bool
  | .atom _ | .nil => true
  | .list id head rest last =>
    !isHeaded unquoteName (.list id head rest last) && !isHeaded spliceName (.list id head rest last) &&
      isPlain head && restIsPlain last.isNone rest

/-- Whether the elements after the first one have no hole and are no hole themselves. -/
def restIsPlain (isProper : Bool) : List Value → Bool
  | [] => true
  | element :: more =>
    (if isProper then tailHole? (element :: more) else none).isNone && isPlain element &&
      restIsPlain isProper more

end

mutual

/-- An element without holes contributes one equal copy of itself, whatever the evaluator does. -/
theorem fillElement_of_isPlain (s : Store) : ∀ {element : Value}, isPlain element = true →
    ∃ v next, (Value.compareSpec (Value.alike s.content) v element = true) ∧
      ∀ ev scope, fillElement ev scope element s = .ok [v] { s with nextObject := next }
  | .atom a, _ => ⟨.atom a, s.nextObject, Atom.equal_self s.content a, fun _ _ => rfl⟩
  | .nil, _ => ⟨.nil, s.nextObject, rfl, fun _ _ => rfl⟩
  | .list id head rest last, h => by
    simp only [isPlain, Bool.and_eq_true, Bool.not_eq_true'] at h
    obtain ⟨⟨⟨hhole, hsplice⟩, hhead⟩, hrest⟩ := h
    obtain ⟨first, next, hequal, hfirst⟩ := fillElement_of_isPlain s hhead
    obtain ⟨items, next', hitems, hfilled⟩ :=
      fillRest_of_isPlain { s with nextObject := next } hrest
    refine ⟨.list next' first items last, next' + 1, ?_, fun ev scope => ?_⟩
    · exact Value.compareSpec_of_parts hequal hitems
    · rw [fillElement, if_neg (by simp [hsplice]), if_neg (by simp [hhole]),
        bind_of_ok (hfirst ev scope), bind_of_ok (hfilled ev scope)]
      rfl

/-- The elements after the first one, without holes, contribute equal copies of themselves and no tail. -/
theorem fillRest_of_isPlain (s : Store) {isProper : Bool} : ∀ {rest : List Value},
    restIsPlain isProper rest = true →
    ∃ vs next, (Value.compareRow (Value.alike s.content) vs rest = true) ∧
      ∀ ev scope, fillRest ev scope isProper rest s = .ok (vs, none) { s with nextObject := next }
  | [], _ => ⟨[], s.nextObject, rfl, fun _ _ => rfl⟩
  | element :: more, h => by
    simp only [restIsPlain, Bool.and_eq_true, Option.isNone_iff_eq_none] at h
    obtain ⟨⟨hhole, helement⟩, hmore⟩ := h
    obtain ⟨v, next, hequal, hfirst⟩ := fillElement_of_isPlain s helement
    obtain ⟨vs, next', hequals, hfilled⟩ :=
      fillRest_of_isPlain { s with nextObject := next } hmore
    refine ⟨v :: vs, next', ?_, fun ev scope => ?_⟩
    · rw [Value.compareRow, hequal]
      exact hequals
    · rw [fillRest_cons hhole, bind_of_ok (hfirst ev scope), bind_of_ok (hfilled ev scope)]
      rfl

end

/-- A template without holes is copied: nothing is evaluated, nothing fails, and the copy is equal. -/
theorem fill_of_isPlain (s : Store) {template : Value} (h : isPlain template = true) :
    ∃ v next, Value.equal s.content v template = true ∧
      ∀ ev scope, fill ev scope template s = .ok v { s with nextObject := next } := by
  obtain ⟨v, next, hequal, hfilled⟩ := fillElement_of_isPlain s h
  refine ⟨v, next, ?_, fun ev scope => ?_⟩
  · rw [Value.equal, Value.comparePending_eq_all, List.all_cons, hequal]
    rfl
  · have hsplice : isHeaded spliceName template = false := by
      cases template with
      | list id head rest last =>
        simp only [isPlain, Bool.and_eq_true, Bool.not_eq_true'] at h
        exact h.1.1.2
      | _ => rfl
    rw [fill, hsplice, if_neg Bool.false_ne_true, bind_of_ok (hfilled ev scope)]
    rfl

/-! ### The two walks -/

/-- Filling a template is the walk along its pairs that refuses a template which is a splice as a whole:
the same action, so the same evaluations in the same order and the same outcome, whatever the evaluator
does. A template without holes is copied without any evaluation. -/
theorem fill_is_walk_along_pairs (ev : Evaluator) (scope : ScopeId) (template : Value) :
    fill ev scope template = fillPairs (isHeaded spliceName) ev scope template ∧
    (isPlain template = true → ∀ s, ∃ v next, Value.equal s.content v template = true ∧
      ∀ ev scope, fill ev scope template s = .ok v { s with nextObject := next }) :=
  ⟨fill_eq_fillPairs ev scope template, fun h s => fill_of_isPlain s h⟩

/-- The template `(a (b . 1) 2)` has no holes. -/
theorem fill_is_walk_along_pairs_plain :
    let template := Value.list 5 (.sym "a") [.list 6 (.sym "b") [] (some (.int 1)), .int 2] none
    let s := Store.initial [] ⟨[], [], ⟨[], []⟩, []⟩ ⟨[], []⟩ []
    isPlain template = true ∧ ∃ v next, Value.equal s.content v template = true ∧
      ∀ ev scope, fill ev scope template s = .ok v { s with nextObject := next } :=
  ⟨by decide, (fill_is_walk_along_pairs (.nested 0 0 0) rootScope _).2 (by decide) _⟩

/-- Whether a value is a list, proper or dotted, headed by this symbol. -/
def isHeadedLoosely (name : Text) (v : Value) : Bool := v.head?.any (·.isSymbol name)

/-- A dotted list headed by `unquote-splicing` is no splice: it is copied, where a walk that refuses every
list with that head would fail. -/
theorem fill_ne_walk_refusing_dotted : ¬ ∀ (ev : Evaluator) (scope : ScopeId) (template : Value),
    fill ev scope template = fillPairs (isHeadedLoosely spliceName) ev scope template := by
  intro h
  have h := congrFun (h (.nested 0 0 0) rootScope
    (.list 2 (.sym spliceName) [] (some (.int 5)))) (Store.initial [] ⟨[], [], ⟨[], []⟩, []⟩ ⟨[], []⟩ [])
  rw [fillPairs] at h
  exact nomatch h

end Template

end Lisplet
