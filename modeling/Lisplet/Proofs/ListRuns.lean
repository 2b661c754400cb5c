import Lisplet.Proofs.ListObjects

/-!
# Runs of list operations

A run performs list operations one after the other, any of which may be refused. One operation either
changes nothing, or adds lists, or takes the first item off one object; so well-formedness holds along
every run, and an object keeps its chain along every run that does not take an item off the object itself.
-/

namespace Lisplet

open ListHeap

/-! ### One operation -/

/-- An action that is refused and changes nothing, or adds lists to the heap and changes nothing. -/
def Settles {α : Type} (act : ListAction α) (heap : ListHeap) : Prop :=
  (∃ e, act heap = .error e heap) ∨
    ∃ a after, act heap = .ok a after ∧ heap.Extends after ∧ after.WellFormed

theorem Makes.settles {act : ListAction Cell} {heap : ListHeap} {c : Chain} (h : Makes act heap c) :
    Settles act heap := by
  obtain ⟨cell, after, hact, hextends, hw, _⟩ := h
  exact Or.inr ⟨cell, after, hact, hextends, hw⟩

theorem Settles.map {α β : Type} {act : ListAction α} {heap : ListHeap} (f : α → β)
    (h : Settles act heap) : Settles (f <$> act) heap := by
  rcases h with ⟨e, hact⟩ | ⟨a, after, hact, h⟩
  · exact Or.inl ⟨e, map_of_error f hact⟩
  · exact Or.inr ⟨f a, after, map_of_ok f hact, h⟩

namespace ListAction

variable {heap : ListHeap}

theorem construct_settles (hw : heap.WellFormed) (items : List Cell) {last : Option Cell}
    (h : ∀ c ∈ last, heap.holds c = true) : Settles (construct items last) heap := by
  rcases construct_cases hw items h with hmade | ⟨hrefused, _⟩
  · exact hmade.makes.settles
  · exact Or.inl ⟨_, hrefused⟩

theorem dotted_settles (hw : heap.WellFormed) {items : List Cell}
    (h : ∀ c ∈ items, heap.holds c = true) : Settles (dotted items) heap := by
  rcases dotted_cases hw h with hmade | ⟨hrefused, _⟩
  · exact hmade.makes.settles
  · exact Or.inl ⟨_, hrefused⟩

/-- Looking at a list changes nothing. -/
theorem settles_of_look {α : Type} {act : ListAction α} (hw : heap.WellFormed)
    (h : (∃ a, act heap = .ok a heap) ∨ ∃ e, act heap = .error e heap) : Settles act heap := by
  rcases h with ⟨a, hact⟩ | hrefused
  · exact Or.inr ⟨a, heap, hact, .refl heap, hw⟩
  · exact Or.inl hrefused

section

variable {id : ObjectId} {o : ListObject}

theorem first_settles (hw : heap.WellFormed) (h : heap.objects[id]? = some o) :
    Settles (first id) heap := by
  refine settles_of_look hw ?_
  cases hitems : heap.elements o with
  | nil => exact Or.inr ⟨_, first_eq_error hw h hitems⟩
  | cons head items => exact Or.inl ⟨head, first_eq h hitems⟩

theorem rest_settles (hw : heap.WellFormed) (h : heap.objects[id]? = some o) :
    Settles (rest id) heap := by
  cases hitems : heap.elements o with
  | nil => exact Or.inl ⟨_, rest_eq_error hw h hitems⟩
  | cons head items => exact (rest_makes hw h hitems).settles

theorem splitFirst_settles (hw : heap.WellFormed) (h : heap.objects[id]? = some o) :
    Settles (splitFirst id) heap := by
  cases hitems : heap.elements o with
  | nil => exact Or.inl ⟨_, splitFirst_eq_error hw h hitems⟩
  | cons head items =>
    obtain ⟨tail, after, hrest, hextends, hafter, _⟩ := rest_makes hw h hitems
    exact Or.inr ⟨(head, tail), after, splitFirst_eq h hitems hrest, hextends, hafter⟩

theorem nth_settles (hw : heap.WellFormed) (h : heap.objects[id]? = some o) (n : Int) :
    Settles (nth id n) heap := by
  refine settles_of_look hw ?_
  rw [nth_eq h]
  split
  · exact Or.inr ⟨_, rfl⟩
  · cases (heap.chainOf o).cells[n.toNat]? with
    | none => exact Or.inr ⟨_, rfl⟩
    | some c => exact Or.inl ⟨c, rfl⟩

theorem last_settles (hw : heap.WellFormed) (h : heap.objects[id]? = some o) :
    Settles (last id) heap := by
  refine settles_of_look hw ?_
  rw [last_eq hw h]
  cases (heap.chainOf o).cells.getLast? with
  | none => exact Or.inr ⟨_, rfl⟩
  | some c => exact Or.inl ⟨c, rfl⟩

end

end ListAction

namespace ListCommand

variable {heap : ListHeap}

/-- A command settles when its operands exist, unless it takes an item off in place. -/
theorem performHeld_settles (hw : heap.WellFormed) {command : ListCommand}
    (h : ∀ c ∈ command.operands, heap.holds c = true) (hpop : ∀ id, command ≠ .popFront id) :
    Settles command.performHeld heap := by
  have hobject : ∀ id, .object id ∈ command.operands → ∃ o, heap.objects[id]? = some o :=
    fun id hid => holds_object (h _ hid)
  cases command with
  | construct items tail =>
    have htail : ∀ c ∈ tail, heap.holds c = true := fun c hc =>
      h c (List.mem_append_right _ (Option.mem_toList.mpr hc))
    exact (ListAction.construct_settles hw items htail).map _
  | join items tail =>
    have htail : ∀ c ∈ tail, heap.holds c = true := fun c hc =>
      h c (List.mem_append_right _ (Option.mem_toList.mpr hc))
    exact (ListAction.join_makes hw items htail).settles.map _
  | dotted items => exact (ListAction.dotted_settles hw h).map _
  | cons head tail =>
    exact (ListAction.cons_makesList hw head (h tail (by simp [operands]))).makes.settles.map _
  | first id =>
    obtain ⟨o, ho⟩ := hobject id (by simp [operands])
    exact (ListAction.first_settles hw ho).map _
  | rest id =>
    obtain ⟨o, ho⟩ := hobject id (by simp [operands])
    exact (ListAction.rest_settles hw ho).map _
  | splitFirst id =>
    obtain ⟨o, ho⟩ := hobject id (by simp [operands])
    exact (ListAction.splitFirst_settles hw ho).map _
  | popFront id => exact absurd rfl (hpop id)
  | iterate id =>
    obtain ⟨o, ho⟩ := hobject id (by simp [operands])
    exact (ListAction.settles_of_look hw (Or.inl ⟨_, ListAction.iterate_eq ho⟩)).map _
  | nth id n =>
    obtain ⟨o, ho⟩ := hobject id (by simp [operands])
    exact (ListAction.nth_settles hw ho n).map _
  | last id =>
    obtain ⟨o, ho⟩ := hobject id (by simp [operands])
    exact (ListAction.last_settles hw ho).map _
  | butLast id =>
    obtain ⟨o, ho⟩ := hobject id (by simp [operands])
    exact (ListAction.settles_of_look hw (Or.inl ⟨_, ListAction.butLast_eq ho⟩)).map _

/-- Everything that one command can do: it is refused and changes nothing, or it adds lists and changes
nothing, or it takes the first item off a list that is no single dotted pair. -/
theorem perform_cases (hw : heap.WellFormed) (command : ListCommand) :
    Settles command.perform heap ∨ ∃ id o head items, command = .popFront id ∧
      heap.objects[id]? = some o ∧ heap.elements o = head :: items ∧ ¬(items = [] ∧ o.last ≠ none) ∧
      command.perform heap = .ok (.value head) (ListAction.popped heap id o) := by
  by_cases hheld : command.operands.all heap.holds
  · have hperform : command.perform heap = command.performHeld heap := by
      rw [perform, get_bind, if_pos hheld]
    rw [List.all_eq_true] at hheld
    -- Taking the first item off is the only command that changes a list.
    by_cases hpop : ∃ id, command = .popFront id
    · obtain ⟨id, rfl⟩ := hpop
      obtain ⟨o, ho⟩ := holds_object (hheld (.object id) (by simp [operands]))
      cases hitems : heap.elements o with
      | nil =>
        have hrefused := map_of_error ListAnswer.value (ListAction.popFront_eq_error hw ho hitems)
        exact Or.inl (Or.inl ⟨_, hperform.trans hrefused⟩)
      | cons head items =>
        have hpopped := ListAction.popFront_eq ho hitems
        by_cases hpair : items = [] ∧ o.last ≠ none
        · rw [if_pos hpair] at hpopped
          exact Or.inl (Or.inl ⟨_, hperform.trans (map_of_error _ hpopped)⟩)
        · rw [if_neg hpair] at hpopped
          exact Or.inr ⟨id, o, head, items, rfl, ho, hitems, hpair,
            hperform.trans (map_of_ok _ hpopped)⟩
    · rcases performHeld_settles hw hheld (fun id hid => hpop ⟨id, hid⟩) with
        ⟨e, hrefused⟩ | ⟨answer, after, hdone, h⟩
      · exact Or.inl (Or.inl ⟨e, hperform.trans hrefused⟩)
      · exact Or.inl (Or.inr ⟨answer, after, hperform.trans hdone, h⟩)
  · refine Or.inl (Or.inl ⟨.noObject, ?_⟩)
    rw [perform, get_bind, if_neg hheld]
    rfl

/-- A refused command changes nothing. -/
theorem heap_eq_of_refused (hw : heap.WellFormed) {command : ListCommand} {e : ListFault}
    {after : ListHeap} (h : command.perform heap = .error e after) : after = heap := by
  rcases perform_cases hw command with (⟨e', hrefused⟩ | ⟨_, _, hdone, _⟩) | ⟨_, _, _, _, _, _, _, _, hdone⟩
  · rw [hrefused] at h
    injection h with _ hheap
    exact hheap.symm
  · simp [hdone] at h
  · simp [hdone] at h

end ListCommand

namespace ListHeap

/-- What one command leaves behind is well-formed. -/
theorem WellFormed.after {heap : ListHeap} (hw : heap.WellFormed) (command : ListCommand) :
    (heap.after command).WellFormed := by
  rw [ListHeap.after]
  rcases command.perform_cases hw with
    (⟨_, hrefused⟩ | ⟨_, _, hdone, _, hafter⟩) | ⟨_, _, _, _, _, ho, hitems, hpair, hdone⟩
  · rw [hrefused]
    exact hw
  · rw [hdone]
    exact hafter
  · rw [hdone]
    exact ListAction.popped_wellFormed hw ho hitems hpair

/-- A command that does not take the first item off an object itself keeps its chain. -/
theorem WellFormed.chain_after {heap : ListHeap} (hw : heap.WellFormed) {command : ListCommand}
    {id : ObjectId} (hid : heap.holds (.object id) = true) (hne : command ≠ .popFront id) :
    (heap.after command).holds (.object id) = true ∧
      (heap.after command).chain (.object id) = heap.chain (.object id) := by
  rw [ListHeap.after]
  rcases command.perform_cases hw with
    (⟨_, hrefused⟩ | ⟨_, _, hdone, hextends, _⟩) | ⟨other, o, _, _, rfl, _, _, _, hdone⟩
  · rw [hrefused]
    exact ⟨hid, rfl⟩
  · rw [hdone]
    exact ⟨hextends.holds hid, hextends.chain hw hid⟩
  · rw [hdone]
    refine ⟨?_, ListAction.chain_popped_of_ne o fun he => hne (by rw [he])⟩
    simpa [ListAction.popped, holds] using hid

/-! ### Runs -/

theorem initial_wellFormed : initial.WellFormed := by
  intro id o ho
  simp [initial] at ho

/-- What a run leaves behind is well-formed. -/
theorem WellFormed.run {heap : ListHeap} (hw : heap.WellFormed) (commands : List ListCommand) :
    (run commands heap).WellFormed := by
  induction commands generalizing heap with
  | nil => exact hw
  | cons command commands ih => exact ih (hw.after command)

/-- An object keeps its chain along a run that does not take its own first item off. -/
theorem WellFormed.chain_run {heap : ListHeap} (hw : heap.WellFormed) {commands : List ListCommand}
    {id : ObjectId} (hid : heap.holds (.object id) = true) (hne : .popFront id ∉ commands) :
    (ListHeap.run commands heap).chain (.object id) = heap.chain (.object id) := by
  induction commands generalizing heap with
  | nil => rfl
  | cons command commands ih =>
    rw [List.mem_cons, not_or] at hne
    obtain ⟨hheld, hchain⟩ := hw.chain_after hid (Ne.symm hne.1)
    rw [← hchain]
    exact ih (hw.after command) hheld hne.2

end ListHeap

end Lisplet
