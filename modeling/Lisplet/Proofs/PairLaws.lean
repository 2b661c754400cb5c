import Lisplet.Proofs.ListRuns

/-!
# Lists are faithful to chains of pairs

What every heap has in common that a run of list operations reaches, however its lists share rows and
tails: the lists are normalized, the operations build and take apart chains as pairs do, all ways to
enumerate a list agree, and only taking an item off a list in place changes a chain, namely its own.
-/

namespace Lisplet

open ListAction

namespace ListHeap

/-- A tail is no list, and a list with a tail has an item in front of it. -/
def IsNormalized (heap : ListHeap) : Prop :=
  ∀ (id : ObjectId) (o : ListObject), heap.objects[id]? = some o →
    (∀ tail, o.last = some tail → ∃ a, tail = .atom a) ∧ (o.last ≠ none → heap.elements o ≠ [])

/-- Building a list puts items in front of the chain of a tail. A tail that is no list needs an item, or is
all that is left. -/
structure BuildsChains (heap : ListHeap) : Prop where
  construct : ∀ items last, (∀ c ∈ last, heap.holds c = true) →
    ¬(items = [] ∧ ∃ a, last = some (.atom a)) →
      MakesList (ListAction.construct items last) heap ((heap.tailChain last).prepend items)
  construct_bare : ∀ a, ListAction.construct [] (some (.atom a)) heap = .error .tailWithoutItems heap
  join : ∀ items last, (∀ c ∈ last, heap.holds c = true) →
    ¬(items = [] ∧ ∃ a, last = some (.atom a)) →
      MakesList (ListAction.join items last) heap ((heap.tailChain last).prepend items)
  join_bare : ∀ a, ListAction.join [] (some (.atom a)) heap = .ok (.atom a) heap
  dotted : ∀ items, (∀ c ∈ items, heap.holds c = true) → (¬∃ a, items = [.atom a]) →
    MakesList (ListAction.dotted items) heap ((heap.tailChain items.getLast?).prepend items.dropLast)
  dotted_bare : ∀ a, ListAction.dotted [.atom a] heap = .error .tailWithoutItems heap

/-- The first item of a list and what follows it are the parts of a pair. -/
structure SplitsChains (heap : ListHeap) : Prop where
  first : ∀ id head items ending, heap.chain (.object id) = ⟨head :: items, ending⟩ →
    ListAction.first id heap = .ok head heap
  rest : ∀ id head items ending, heap.chain (.object id) = ⟨head :: items, ending⟩ →
    ¬(items = [] ∧ ending ≠ none) → MakesList (ListAction.rest id) heap ⟨items, ending⟩
  rest_pair : ∀ id head tail, heap.chain (.object id) = ⟨[head], some tail⟩ →
    ListAction.rest id heap = .ok tail heap
  splitFirst : ∀ id head items ending, heap.chain (.object id) = ⟨head :: items, ending⟩ →
    ∃ tail after, ListAction.rest id heap = .ok tail after ∧
      ListAction.splitFirst id heap = .ok (head, tail) after
  empty : ∀ id, heap.holds (.object id) = true → (heap.chain (.object id)).items = [] →
    ListAction.first id heap = .error (.empty .head) heap ∧
      ListAction.rest id heap = .error (.empty .tail) heap ∧
      ListAction.splitFirst id heap = .error (.empty .head) heap
  cons : ∀ head tail, heap.holds tail = true →
    MakesList (ListAction.cons head tail) heap ((heap.chain tail).prepend [head])
  split_cons : ∀ head tail, heap.holds tail = true → ∃ id after,
    ListAction.cons head tail heap = .ok (.object id) after ∧
      ListAction.first id after = .ok head after ∧
      Makes (ListAction.rest id) after (heap.chain tail) ∧
      ∀ a, tail = .atom a → ListAction.rest id after = .ok tail after
  cons_split : ∀ id head items ending, heap.chain (.object id) = ⟨head :: items, ending⟩ →
    ∃ tail after, ListAction.rest id heap = .ok tail after ∧
      MakesList (ListAction.cons head tail) after ⟨head :: items, ending⟩

/-- The leading items and the tail of a list are its chain, and all enumerations follow it. -/
structure EnumeratesChains (heap : ListHeap) (id : ObjectId) (o : ListObject) : Prop where
  parts : heap.chain (.object id) = ⟨heap.elements o, o.last⟩
  length : heap.length o = (heap.chain (.object id)).cells.length
  isEmpty : heap.isEmpty o = (heap.chain (.object id)).cells.isEmpty
  iterate : ListAction.iterate id heap = .ok (heap.chain (.object id)).cells heap
  nth : ∀ n, ListAction.nth id n heap = if n < 0 then .error .indexOutOfRange heap
    else match (heap.chain (.object id)).cells[n.toNat]? with
      | some c => .ok c heap
      | none => .error .indexOutOfRange heap
  last : ListAction.last id heap = match (heap.chain (.object id)).cells.getLast? with
    | some c => .ok c heap
    | none => .error (.empty .last) heap
  butLast : ListAction.butLast id heap = .ok (heap.chain (.object id)).cells.dropLast heap

/-- Taking the first item off a list in place leaves the chain behind it in the same object and every other
chain as it is. The empty list and a single dotted pair stay what they are. -/
structure PopsChains (heap : ListHeap) : Prop where
  popFront : ∀ id head items ending, heap.chain (.object id) = ⟨head :: items, ending⟩ →
    ¬(items = [] ∧ ending ≠ none) → ∃ after, ListAction.popFront id heap = .ok head after ∧
      after.chain (.object id) = ⟨items, ending⟩ ∧
      ∀ other, other ≠ id → after.chain (.object other) = heap.chain (.object other)
  pair : ∀ id head tail, heap.chain (.object id) = ⟨[head], some tail⟩ →
    ListAction.popFront id heap = .error (.dottedPair id) heap
  empty : ∀ id, heap.holds (.object id) = true → (heap.chain (.object id)).items = [] →
    ListAction.popFront id heap = .error (.empty .head) heap

/-- Nothing but taking items off an object in place changes its chain, and what is refused changes nothing. -/
structure KeepsChains (heap : ListHeap) : Prop where
  run : ∀ commands id, heap.holds (.object id) = true → .popFront id ∉ commands →
    (run commands heap).chain (.object id) = heap.chain (.object id)
  refused : ∀ command e after, ListCommand.perform command heap = .error e after → after = heap

/-- The lists of a heap are chains of pairs, and the operations are those on pairs. -/
structure IsFaithful (heap : ListHeap) : Prop where
  normalized : heap.IsNormalized
  builds : heap.BuildsChains
  splits : heap.SplitsChains
  enumerates : ∀ id o, heap.objects[id]? = some o → heap.EnumeratesChains id o
  pops : heap.PopsChains
  keeps : heap.KeepsChains

variable {heap : ListHeap}

/-- A chain with an item is that of an object. -/
theorem object_of_chain {id : ObjectId} {head : Cell} {items : List Cell} {ending : Option Cell}
    (h : heap.chain (.object id) = ⟨head :: items, ending⟩) :
    ∃ o, heap.objects[id]? = some o ∧ heap.elements o = head :: items ∧ o.last = ending := by
  cases ho : heap.objects[id]? with
  | none => simp [chain, ho] at h
  | some o =>
    rw [chain_object ho, chainOf] at h
    injection h with hitems hending
    exact ⟨o, rfl, hitems, hending⟩

/-- An object whose chain has no item has no leading item. -/
theorem object_of_no_items {id : ObjectId} (hid : heap.holds (.object id) = true)
    (h : (heap.chain (.object id)).items = []) :
    ∃ o, heap.objects[id]? = some o ∧ heap.elements o = [] := by
  obtain ⟨o, ho⟩ := holds_object hid
  rw [chain_object ho, chainOf] at h
  exact ⟨o, ho, h⟩

theorem WellFormed.isNormalized (hw : heap.WellFormed) : heap.IsNormalized := by
  intro id o ho
  exact ⟨(hw id o ho).last_atom, fun hl hitems => hl ((hw id o ho).last_eq_none hitems)⟩

theorem WellFormed.buildsChains (hw : heap.WellFormed) : heap.BuildsChains where
  construct items last hlast hbare := by
    rcases construct_cases hw items hlast with hmade | ⟨_, hempty⟩
    · exact hmade
    · exact absurd hempty hbare
  construct_bare a := by
    rw [ListAction.construct, get_bind, unroll_of_atom heap _ _ (by rintro c ⟨⟩; exact ⟨a, rfl⟩)]
    rfl
  join items last hlast hbare := by
    rcases join_cases hw items hlast with hmade | ⟨hitems, a, ha, _⟩
    · exact hmade
    · exact absurd ⟨hitems, a, ha⟩ hbare
  join_bare a := by
    rw [ListAction.join, get_bind, unroll_of_atom heap _ _ (by rintro c ⟨⟩; exact ⟨a, rfl⟩)]
    rfl
  dotted items hitems hbare := by
    rcases dotted_cases hw hitems with hmade | ⟨_, hatom⟩
    · exact hmade
    · exact absurd hatom hbare
  dotted_bare a := by
    rcases dotted_cases hw (by simp [holds] : ∀ c ∈ [Cell.atom a], heap.holds c = true) with
      ⟨id, after, _, _, _, hafter, hheld, hchain⟩ | ⟨hrefused, _⟩
    -- A made list with an ending has items, and here there are none.
    · obtain ⟨o, ho⟩ := holds_object hheld
      rw [chain_object ho, chainOf] at hchain
      injection hchain with hitems hending
      have hnone := (hafter id o ho).last_eq_none hitems
      exact absurd (hending.symm.trans hnone) (Option.some_ne_none (Cell.atom a))
    · exact hrefused

theorem WellFormed.splitsChains (hw : heap.WellFormed) : heap.SplitsChains where
  first id head items ending h := by
    obtain ⟨o, ho, hitems, _⟩ := object_of_chain h
    exact first_eq ho hitems
  rest id head items ending h hpair := by
    obtain ⟨o, ho, hitems, rfl⟩ := object_of_chain h
    exact rest_makesList hw ho hitems hpair
  rest_pair id head tail h := by
    obtain ⟨o, ho, hitems, hlast⟩ := object_of_chain h
    exact rest_eq_tail ho hitems hlast
  splitFirst id head items ending h := by
    obtain ⟨o, ho, hitems, _⟩ := object_of_chain h
    obtain ⟨tail, after, hrest, _⟩ := rest_makes hw ho hitems
    exact ⟨tail, after, hrest, splitFirst_eq ho hitems hrest⟩
  empty id hid h := by
    obtain ⟨o, ho, hitems⟩ := object_of_no_items hid h
    exact ⟨first_eq_error hw ho hitems, rest_eq_error hw ho hitems, splitFirst_eq_error hw ho hitems⟩
  cons head tail htail := cons_makesList hw head htail
  split_cons head tail htail := by
    obtain ⟨id, after, hcons, _, _, hafter, _, hchain⟩ := cons_makesList hw head htail
    obtain ⟨o, ho, hitems, hlast⟩ := object_of_chain hchain
    have hrest := rest_makes hafter ho hitems
    rw [hlast] at hrest
    refine ⟨id, after, hcons, first_eq ho hitems, hrest, ?_⟩
    rintro a rfl
    exact rest_eq_tail ho hitems hlast
  cons_split id head items ending h := by
    obtain ⟨o, ho, hitems, rfl⟩ := object_of_chain h
    obtain ⟨tail, after, hrest, _, hafter, hheld, hchain⟩ := rest_makes hw ho hitems
    have hcons := cons_makesList hafter head hheld
    rw [hchain] at hcons
    exact ⟨tail, after, hrest, hcons⟩

theorem WellFormed.enumeratesChains (hw : heap.WellFormed) {id : ObjectId} {o : ListObject}
    (ho : heap.objects[id]? = some o) : heap.EnumeratesChains id o := by
  have hchain := chain_object ho
  refine ⟨hchain, ?_, ?_, ?_, ?_, ?_, ?_⟩
  all_goals rw [hchain]
  · exact length_eq heap o
  · exact isEmpty_eq (hw id o ho)
  · exact iterate_eq ho
  · exact nth_eq ho
  · exact last_eq hw ho
  · exact butLast_eq ho

theorem WellFormed.popsChains (hw : heap.WellFormed) : heap.PopsChains where
  popFront id head items ending h hpair := by
    obtain ⟨o, ho, hitems, rfl⟩ := object_of_chain h
    refine ⟨popped heap id o, ?_, chain_popped ho hitems, fun other => chain_popped_of_ne o⟩
    rw [popFront_eq ho hitems, if_neg hpair]
  pair id head tail h := by
    obtain ⟨o, ho, hitems, hlast⟩ := object_of_chain h
    rw [popFront_eq ho hitems, if_pos ⟨rfl, by rw [hlast]; exact Option.some_ne_none tail⟩]
  empty id hid h := by
    obtain ⟨o, ho, hitems⟩ := object_of_no_items hid h
    exact popFront_eq_error hw ho hitems

theorem WellFormed.keepsChains (hw : heap.WellFormed) : heap.KeepsChains where
  run _ _ hid hne := hw.chain_run hid hne
  refused _ _ _ h := ListCommand.heap_eq_of_refused hw h

/-- Whatever list operations are performed one after the other, the lists stay faithful to chains of
pairs. -/
theorem run_isFaithful (commands : List ListCommand) : (run commands initial).IsFaithful := by
  have hw := initial_wellFormed.run commands
  exact ⟨hw.isNormalized, hw.buildsChains, hw.splitsChains, fun _ _ => hw.enumeratesChains,
    hw.popsChains, hw.keepsChains⟩

/-- A list that was built with another one as its tail keeps the item that is taken off that one. -/
example :
    let heap := run [.construct [.atom (.int 1), .atom (.int 2)] none, .cons (.atom (.int 0)) (.object 0),
      .popFront 0] initial
    heap.chain (.object 0) = ⟨[.atom (.int 2)], none⟩ ∧
      heap.chain (.object 1) = ⟨[.atom (.int 0), .atom (.int 1), .atom (.int 2)], none⟩ :=
  ⟨rfl, rfl⟩

end ListHeap

end Lisplet
