import Lisplet.Proofs.Folding
import Lisplet.Proofs.Mapping
import Lisplet.Proofs.Searching
import Lisplet.Proofs.EqualityLaws

/-!
# Folds and searches

What the folds, the filter and the searches of the prelude come to when they are called, said with the items of
their list.
-/

namespace Lisplet

open Evaluator

/-! ### Rows of the same items -/

/-- Lists of the same items are equal. -/
theorem Value.IsRow.equal {v w : Value} {xs : List Value} (h : v.IsRow xs) (h' : w.IsRow xs)
    (content : BufferId → Text) : Value.equal content v w = true :=
  h.isChain.equal h'.isChain content

namespace Prelude

variable {s : Store} (hs : s.HasPrelude) {list : Value} {xs : List Value} (hlist : list.IsRow xs)
include hs hlist

/-! ### Folds -/

theorem foldLeft_callsInTurn {f : Value} (hf : f.isFunction = true) (init : Value) :
    s.CallsInTurn foldLeft f [f, init, list] init (xs.map fun x acc => [acc, x])
      (fun results v => v = results.getLastD init) 4 2 := by
  obtain ⟨a, rfl, ha, hform⟩ := f.exists_of_isFunction hf
  refine hs.callsInTurn (List.mem_of_getElem? (i := 8) rfl) fun rounds nesting level depth c start scope hlevel hc => ?_
  exact foldLeft_turns (by omega) ha hform hlist hs.toKnowsNames hc scope

theorem foldRight_callsInTurn {f : Value} (hf : f.isFunction = true) (init : Value) :
    s.CallsInTurn foldRight f [f, init, list] init (xs.reverse.map fun x acc => [x, acc])
      (fun results v => v = results.getLastD init) 4 2 := by
  obtain ⟨a, rfl, ha, hform⟩ := f.exists_of_isFunction hf
  refine hs.callsInTurn (List.mem_of_getElem? (i := 9) rfl) fun rounds nesting level depth c start scope hlevel hc => ?_
  exact foldRight_turns (by omega) ha hform hlist hs.toKnowsNames hc scope

theorem filter_callsInTurn {f : Value} (hf : f.isFunction = true) (last : Value) :
    s.CallsInTurn filter f [f, list] last (xs.map fun x _ => [x]) (fun results v => v.IsRow (kept xs results)) 4 2 := by
  obtain ⟨a, rfl, ha, hform⟩ := f.exists_of_isFunction hf
  refine hs.callsInTurn (List.mem_of_getElem? (i := 7) rfl) fun rounds nesting level depth c start scope hlevel hc => ?_
  exact filter_turns (by omega) ha hform hlist hs.toKnowsNames hc scope

/-- Consing all items from the right on gives an equal list. -/
theorem foldRight_cons_comesTo : s.ComesTo foldRight [.atom (.primitive (.lists .cons)), .nil, list]
    (fun v => v.IsRow xs ∧ ∀ content, Value.equal content v list = true) 4 := by
  obtain ⟨proc, hproc, hrun⟩ := foldRight_callsInTurn hs hlist (f := .atom (.primitive (.lists .cons))) rfl .nil
  refine ⟨proc, hproc, fun nesting depth scope hdepth => ?_⟩
  obtain ⟨turns, hturns, hdecide⟩ := hrun 0 nesting 0 depth scope hdepth (by omega)
  obtain ⟨results, s', rfl, hrow⟩ := hturns.of_cons .nil
  obtain ⟨v, rfl, hv⟩ := hdecide
  rw [List.reverse_reverse, List.append_nil] at hrow
  exact ⟨_, s', ⟨hrow, hrow.equal hlist⟩, hv⟩

/-! ### Searches -/

theorem member_comesTo (key : Value) : s.ComesTo member [key, list]
    (Search.Finds (Value.equal s.content key) (fun x xs v => v.IsRow (x :: xs)) xs) 4 :=
  Search.member_isShared.comesTo 0 (fun nesting depth => Search.member_does s key nesting depth)
    (fun _ _ => trivial) hs.toKnowsNames hlist

theorem assq_comesTo (hxs : ∀ x ∈ xs, x.head?.isSome = true) (key : Value) : s.ComesTo assq [key, list]
    (Search.Finds (Search.hasKey Value.equivalent key) (fun x _ v => v = x) xs) 5 :=
  Search.assq_isShared.comesTo 1
    (fun nesting depth => Search.association_does (fun _ _ _ _ => rfl) key nesting depth) hxs hs.toKnowsNames hlist

theorem assoc_comesTo (hxs : ∀ x ∈ xs, x.head?.isSome = true) (key : Value) : s.ComesTo assoc [key, list]
    (Search.Finds (Search.hasKey (Value.equal s.content) key) (fun x _ v => v = x) xs) 5 := by
  refine Search.assoc_isShared.comesTo 1
    (fun nesting depth => Search.association_does (fun s' hs' v w => ?_) key nesting depth) hxs hs.toKnowsNames hlist
  rw [← hs'.content_eq]
  rfl

omit hs hlist

/-- The folds, the filter and the searches of the prelude do on a proper list what they say: `fold-left` calls its
procedure with the result before and each item in order, `fold-right` with each item from the last one on and the
result before, and both give the last result; so consing from the right on gives an equal list. `filter` calls its
procedure with each item in order and gives those on which the result was not false. `member` gives the list from
the first item on that equals the key, `assq` and `assoc` give the first list in the list whose first item is
equivalent or equal to the key, and all three are false if there is none. All of this needs four or five levels of
nested evaluation, and two more than the calls, however long the list is. -/
theorem folds_and_searches_follow_lists {s : Store} (hs : s.HasPrelude) (list : Value) (hlist : list.isProper = true) :
    (∀ f init, f.isFunction = true → s.CallsInTurn foldLeft f [f, init, list] init
      (list.items.map fun x acc => [acc, x]) (fun results v => v = results.getLastD init) 4 2) ∧
    (∀ f init, f.isFunction = true → s.CallsInTurn foldRight f [f, init, list] init
      (list.items.reverse.map fun x acc => [x, acc]) (fun results v => v = results.getLastD init) 4 2) ∧
    s.ComesTo foldRight [.atom (.primitive (.lists .cons)), .nil, list]
      (fun v => v.IsRow list.items ∧ ∀ content, Value.equal content v list = true) 4 ∧
    (∀ f, f.isFunction = true → s.CallsInTurn filter f [f, list] .void (list.items.map fun x _ => [x])
      (fun results v => v.IsRow (kept list.items results)) 4 2) ∧
    (∀ key, s.ComesTo member [key, list]
      (Search.Finds (Value.equal s.content key) (fun x xs v => v.IsRow (x :: xs)) list.items) 4) ∧
    ((∀ x ∈ list.items, x.head?.isSome = true) → ∀ key,
      s.ComesTo assq [key, list]
        (Search.Finds (Search.hasKey Value.equivalent key) (fun x _ v => v = x) list.items) 5 ∧
      s.ComesTo assoc [key, list]
        (Search.Finds (Search.hasKey (Value.equal s.content) key) (fun x _ v => v = x) list.items) 5) := by
  have hrow : list.IsRow list.items := .of_isProper hlist
  exact ⟨fun f init hf => foldLeft_callsInTurn hs hrow hf init, fun f init hf => foldRight_callsInTurn hs hrow hf init,
    foldRight_cons_comesTo hs hrow, fun f hf => filter_callsInTurn hs hrow hf .void, member_comesTo hs hrow,
    fun hxs key => ⟨assq_comesTo hs hrow hxs key, assoc_comesTo hs hrow hxs key⟩⟩

/-- A list of two numbers in a new session. -/
theorem folds_and_searches_follow_lists_two :
    let list : Value := .ofList 0 [.int 1, .int 2]
    list.isProper = true ∧
      ∃ s, (∀ rounds > 0, Session.start (.nested rounds 50 10) (.standard none) Session.emptyStore = .ok () s) ∧
        s.HasPrelude ∧
        s.ComesTo foldRight [.atom (.primitive (.lists .cons)), .nil, list]
          (fun v => v.IsRow [.int 1, .int 2] ∧ ∀ content, Value.equal content v list = true) 4 ∧
        s.ComesTo member [.int 2, list]
          (Search.Finds (Value.equal s.content (.int 2)) (fun x xs v => v.IsRow (x :: xs)) [.int 1, .int 2]) 4 := by
  intro list
  obtain ⟨s, hstart, hs⟩ := Session.start_hasPrelude (Nat.le_refl 50) 8
  have hall := folds_and_searches_follow_lists hs list rfl
  exact ⟨rfl, s, fun rounds hrounds => (hstart rounds hrounds).2, hs, hall.2.2.1, hall.2.2.2.2.1 (.int 2)⟩

/-- A procedure that binds variables of `filter` anew makes it give what is no item of the list. -/
theorem not_filter_gives_items_of_list :
    ¬ ∀ (s : Store) (f proc v list : Value) (rounds nesting depth : Nat) (scope : ScopeId) (s' : Store),
      s.HasPrelude → f.isFunction = true → list.isProper = true →
      s.scopes.lookup? rootScope "filter" = some proc →
      (nested rounds nesting depth).call proc [f, list] scope s = .ok v s' → v.items ⊆ list.items := by
  intro hclaim
  have hgives : gives (fun items => items.any (Value.same (.int 7))) (callWithEval "filter" Session.emptyStore) = true := by
    decide +kernel
  obtain ⟨s, proc, v, s', hs, hproc, hcall, hseven⟩ := exists_call_of_gives hgives
  obtain ⟨x, hx, hsame⟩ := List.any_eq_true.mp hseven
  have hmem := hclaim s _ proc v (.ofList 3 [settingAcc]) 30 50 10 rootScope s' hs rfl rfl hproc hcall hx
  rw [← Value.same_iff.mp hsame] at hmem
  exact nomatch List.mem_singleton.mp hmem

end Prelude

end Lisplet
