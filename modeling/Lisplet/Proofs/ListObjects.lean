import Lisplet.Proofs.Outcomes
import Lisplet.Value.Objects

/-!
# Lists are chains of pairs

Read as a chain, a list object is its leading items one after the other, ending in its tail or in the empty
list. `WellFormed` is what every operation preserves: rows exist, no tail is a list, and a list with a tail
has an item. Under it every operation is one on chains, and the chain of an object changes only when its
first item is taken off in place.
-/

namespace Lisplet

/-- Items one after the other, and what they end in if it is not the empty list. -/
structure Chain where
  items : List Cell
  ending : Option Cell

namespace Chain

/-- The chain with more items in front. -/
def prepend (items : List Cell) (c : Chain) : Chain := ⟨items ++ c.items, c.ending⟩

/-- The items and the ending in one row. -/
def cells (c : Chain) : List Cell := c.items ++ c.ending.toList

end Chain

namespace ListHeap

/-- The chain of a list object. -/
def chainOf (heap : ListHeap) (o : ListObject) : Chain := ⟨heap.elements o, o.last⟩

/-- The chain of a cell. An atom is its own ending. -/
def chain (heap : ListHeap) : Cell → Chain
  | .atom a => ⟨[], some (.atom a)⟩
  | .object id =>
    match heap.objects[id]? with
    | some o => heap.chainOf o
    | none => ⟨[], none⟩

/-- The chain of a tail. -/
def tailChain (heap : ListHeap) : Option Cell → Chain
  | none => ⟨[], none⟩
  | some c => heap.chain c

/-- A list object over a stored row, with an atom as its tail if it has one and an item in front of it. -/
structure IsNormal (heap : ListHeap) (o : ListObject) : Prop where
  row_lt : o.row < heap.rows.size
  start_le : o.start ≤ (heap.row o.row).length
  last_atom : ∀ c, o.last = some c → ∃ a, c = .atom a
  start_lt : o.last ≠ none → o.start < (heap.row o.row).length

/-- Every list object is normal. -/
def WellFormed (heap : ListHeap) : Prop :=
  ∀ (id : ObjectId) (o : ListObject), heap.objects[id]? = some o → heap.IsNormal o

/-- List objects and rows have been added, and nothing has changed. -/
def Extends (heap heap' : ListHeap) : Prop :=
  (∃ rows, heap'.rows = heap.rows ++ rows) ∧ ∃ objects, heap'.objects = heap.objects ++ objects

theorem Extends.refl (heap : ListHeap) : heap.Extends heap := ⟨⟨#[], by simp⟩, #[], by simp⟩

theorem Extends.trans {heap heap' heap'' : ListHeap} (h : heap.Extends heap')
    (h' : heap'.Extends heap'') : heap.Extends heap'' := by
  obtain ⟨⟨rows, hr⟩, objects, ho⟩ := h
  obtain ⟨⟨rows', hr'⟩, objects', ho'⟩ := h'
  exact ⟨⟨rows ++ rows', by rw [hr', hr, Array.append_assoc]⟩,
    objects ++ objects', by rw [ho', ho, Array.append_assoc]⟩

theorem Extends.object {heap heap' : ListHeap} (h : heap.Extends heap') {id : ObjectId}
    {o : ListObject} (ho : heap.objects[id]? = some o) : heap'.objects[id]? = some o := by
  obtain ⟨_, objects, he⟩ := h
  obtain ⟨hlt, _⟩ := Array.getElem?_eq_some_iff.mp ho
  rw [he, Array.getElem?_append_left hlt, ho]

theorem Extends.row {heap heap' : ListHeap} (h : heap.Extends heap') {id : RowId}
    (hr : id < heap.rows.size) : heap'.row id = heap.row id := by
  obtain ⟨⟨rows, he⟩, _⟩ := h
  rw [ListHeap.row, ListHeap.row, he, Array.getElem?_append_left hr]

theorem Extends.isNormal {heap heap' : ListHeap} (h : heap.Extends heap') {o : ListObject}
    (ho : heap.IsNormal o) : heap'.IsNormal o := by
  have hrow := h.row ho.row_lt
  obtain ⟨rows, he⟩ := h.1
  refine ⟨?_, by rw [hrow]; exact ho.start_le, ho.last_atom, by rw [hrow]; exact ho.start_lt⟩
  rw [he, Array.size_append]
  exact Nat.lt_of_lt_of_le ho.row_lt (Nat.le_add_right _ _)

theorem Extends.chainOf {heap heap' : ListHeap} (h : heap.Extends heap') {o : ListObject}
    (ho : heap.IsNormal o) : heap'.chainOf o = heap.chainOf o := by
  rw [ListHeap.chainOf, ListHeap.chainOf, elements, elements, h.row ho.row_lt]

theorem holds_object {heap : ListHeap} {id : ObjectId} (h : heap.holds (.object id) = true) :
    ∃ o, heap.objects[id]? = some o := by
  have hlt : id < heap.objects.size := by simpa [holds] using h
  exact ⟨_, Array.getElem?_eq_getElem hlt⟩

theorem chain_object {heap : ListHeap} {id : ObjectId} {o : ListObject}
    (h : heap.objects[id]? = some o) : heap.chain (.object id) = heap.chainOf o := by
  rw [chain, h]

theorem Extends.holds {heap heap' : ListHeap} (h : heap.Extends heap') {c : Cell}
    (hc : heap.holds c = true) : heap'.holds c = true := by
  cases c with
  | atom a => rfl
  | object id =>
    obtain ⟨_, objects, he⟩ := h
    have hlt : id < heap.objects.size := by simpa [ListHeap.holds] using hc
    have hsize : heap'.objects.size = heap.objects.size + objects.size := by rw [he, Array.size_append]
    simpa [ListHeap.holds, hsize] using Nat.lt_of_lt_of_le hlt (Nat.le_add_right _ _)

/-- Adding lists changes no chain. -/
theorem Extends.chain {heap heap' : ListHeap} (h : heap.Extends heap') (hw : heap.WellFormed)
    {c : Cell} (hc : heap.holds c = true) : heap'.chain c = heap.chain c := by
  cases c with
  | atom a => rfl
  | object id =>
    obtain ⟨o, ho⟩ := holds_object hc
    rw [chain_object ho, chain_object (h.object ho), h.chainOf (hw id o ho)]

/-- The ending of a chain is no list, and a chain with an item missing is the empty list or an atom. -/
theorem WellFormed.ending_atom {heap : ListHeap} (hw : heap.WellFormed) (c : Cell) :
    ∀ d, (heap.chain c).ending = some d → ∃ a, d = .atom a := by
  intro d hd
  cases c with
  | atom a => exact ⟨a, (Option.some.inj hd).symm⟩
  | object id =>
    cases ho : heap.objects[id]? with
    | none => simp [chain, ho] at hd
    | some o =>
      rw [chain_object ho] at hd
      exact (hw id o ho).last_atom d hd

theorem WellFormed.tailEnding_atom {heap : ListHeap} (hw : heap.WellFormed) (last : Option Cell) :
    ∀ d, (heap.tailChain last).ending = some d → ∃ a, d = .atom a := by
  cases last with
  | none => simp [tailChain]
  | some c => exact hw.ending_atom c

/-- A list object without items begins at the end of its row. -/
theorem IsNormal.start_eq {heap : ListHeap} {o : ListObject} (h : heap.IsNormal o)
    (he : heap.elements o = []) : o.start = (heap.row o.row).length := by
  rw [elements, List.drop_eq_nil_iff] at he
  exact Nat.le_antisymm h.start_le he

/-- A list object without items has no tail. -/
theorem IsNormal.last_eq_none {heap : ListHeap} {o : ListObject} (h : heap.IsNormal o)
    (he : heap.elements o = []) : o.last = none := by
  by_contra hlast
  exact absurd (h.start_eq he) (Nat.ne_of_lt (h.start_lt hlast))

/-- Only the chain of an atom is a bare ending. -/
theorem WellFormed.bare_tail {heap : ListHeap} (hw : heap.WellFormed) {last : Option Cell}
    (h : ∀ c ∈ last, heap.holds c = true) (hitems : (heap.tailChain last).items = [])
    (hending : (heap.tailChain last).ending ≠ none) : ∃ a, last = some (.atom a) := by
  cases last with
  | none => exact absurd rfl hending
  | some c =>
    cases c with
    | atom a => exact ⟨a, rfl⟩
    | object id =>
      obtain ⟨o, ho⟩ := holds_object (h _ rfl)
      rw [tailChain, chain_object ho] at hitems hending
      exact absurd ((hw id o ho).last_eq_none hitems) hending

/-! ### Building lists -/

/-- Unrolling stops at a tail that is no list. -/
theorem unroll_of_atom (heap : ListHeap) (rounds : Nat) (items : List Cell) {last : Option Cell}
    (h : ∀ c, last = some c → ∃ a, c = .atom a) : heap.unroll rounds items last = (items, last) := by
  cases rounds with
  | zero => rfl
  | succ rounds =>
    cases last with
    | none => rfl
    | some c =>
      obtain ⟨a, rfl⟩ := h c rfl
      rfl

/-- Unrolling a tail puts its items behind the items in front and keeps what it ends in. -/
theorem WellFormed.unroll {heap : ListHeap} (hw : heap.WellFormed) (items : List Cell)
    {last : Option Cell} (h : ∀ c ∈ last, heap.holds c = true) :
    heap.unroll heap.objects.size items last =
      (items ++ (heap.tailChain last).items, (heap.tailChain last).ending) := by
  cases last with
  | none => rw [unroll_of_atom heap _ _ (by simp), tailChain, List.append_nil]
  | some c =>
    cases c with
    | atom a =>
      rw [unroll_of_atom heap _ _ (by rintro c ⟨⟩; exact ⟨a, rfl⟩), tailChain, chain, List.append_nil]
    | object id =>
      obtain ⟨o, ho⟩ := holds_object (h _ rfl)
      obtain ⟨hlt, _⟩ := Array.getElem?_eq_some_iff.mp ho
      obtain ⟨rounds, hr⟩ := Nat.exists_eq_add_one.mpr (Nat.lt_of_le_of_lt (Nat.zero_le _) hlt)
      rw [hr, ListHeap.unroll]
      simp only [ho]
      rw [unroll_of_atom heap _ _ (hw id o ho).last_atom, tailChain, chain_object ho, chainOf]

end ListHeap

open ListHeap

/-- An action that gives a cell of some chain, adds lists to the heap and changes nothing. -/
def Makes (act : ListAction Cell) (heap : ListHeap) (c : Chain) : Prop :=
  ∃ cell after, act heap = .ok cell after ∧ heap.Extends after ∧ after.WellFormed ∧
    after.holds cell = true ∧ after.chain cell = c

/-- An action that gives a new list object of some chain, adds it to the heap and changes nothing. -/
def MakesList (act : ListAction Cell) (heap : ListHeap) (c : Chain) : Prop :=
  ∃ id after, act heap = .ok (.object id) after ∧ heap.holds (.object id) = false ∧
    heap.Extends after ∧ after.WellFormed ∧ after.holds (.object id) = true ∧
    after.chain (.object id) = c

theorem MakesList.makes {act : ListAction Cell} {heap : ListHeap} {c : Chain}
    (h : MakesList act heap c) : Makes act heap c := by
  obtain ⟨id, after, hact, _, h⟩ := h
  exact ⟨.object id, after, hact, h⟩

namespace ListAction

/-- A view of a stored row is a new list object. -/
theorem view_makesList {heap : ListHeap} (hw : heap.WellFormed) {row : RowId} {start : Nat}
    {last : Option Cell} (hnormal : heap.IsNormal ⟨row, start, last⟩) :
    MakesList (view row start last) heap ⟨(heap.row row).drop start, last⟩ := by
  have hextends : heap.Extends { heap with objects := heap.objects.push ⟨row, start, last⟩ } :=
    ⟨⟨#[], by simp⟩, #[⟨row, start, last⟩], by simp⟩
  have hnew : (heap.objects.push ⟨row, start, last⟩)[heap.objects.size]? = some ⟨row, start, last⟩ := by
    simp
  refine ⟨heap.objects.size, _, rfl, by simp [holds], hextends, ?_, by simp [holds], ?_⟩
  · intro id o ho
    rw [Array.getElem?_push] at ho
    split at ho
    · obtain rfl := Option.some.inj ho
      exact hextends.isNormal hnormal
    · exact hextends.isNormal (hw id o ho)
  · rw [chain_object hnew]
    rfl

/-- A new row in front of an atom or nothing is a new list object. -/
theorem allocate_makesList {heap : ListHeap} (hw : heap.WellFormed) {items : List Cell}
    {last : Option Cell} (hlast : ∀ c, last = some c → ∃ a, c = .atom a)
    (hitems : last ≠ none → items ≠ []) : MakesList (allocate items last) heap ⟨items, last⟩ := by
  have hextends : heap.Extends { heap with rows := heap.rows.push items } :=
    ⟨⟨#[items], by simp⟩, #[], by simp⟩
  have hrow : ListHeap.row { heap with rows := heap.rows.push items } heap.rows.size = items := by
    simp [row]
  have hstored : WellFormed { heap with rows := heap.rows.push items } :=
    fun id o ho => hextends.isNormal (hw id o ho)
  have hnormal : IsNormal { heap with rows := heap.rows.push items } ⟨heap.rows.size, 0, last⟩ := by
    refine ⟨by simp, Nat.zero_le _, hlast, fun hl => ?_⟩
    rw [hrow]
    exact List.length_pos_iff.mpr (hitems hl)
  obtain ⟨id, after, hview, hnew, hafter, h⟩ := view_makesList hstored hnormal
  rw [hrow, List.drop_zero] at h
  exact ⟨id, after, hview, hnew, hextends.trans hafter, h⟩

/-- Items in front of a tail make a list of these items and the chain of the tail, unless there is no
item and the tail is no list. -/
theorem construct_cases {heap : ListHeap} (hw : heap.WellFormed) (items : List Cell)
    {last : Option Cell} (h : ∀ c ∈ last, heap.holds c = true) :
    MakesList (construct items last) heap ((heap.tailChain last).prepend items) ∨
      construct items last heap = .error .tailWithoutItems heap ∧ items = [] ∧
        ∃ a, last = some (.atom a) := by
  have hunroll := hw.unroll items h
  by_cases hbare : (heap.tailChain last).ending ≠ none ∧ items ++ (heap.tailChain last).items = []
  · obtain ⟨hending, hempty⟩ := hbare
    obtain ⟨rfl, htail⟩ := List.append_eq_nil_iff.mp hempty
    refine Or.inr ⟨?_, rfl, hw.bare_tail h htail hending⟩
    rw [construct, get_bind, hunroll]
    simp only [hempty, Option.isSome_iff_ne_none.mpr hending, List.isEmpty_nil, Bool.and_self, if_true]
    rfl
  · have hitems : (heap.tailChain last).ending ≠ none → items ++ (heap.tailChain last).items ≠ [] :=
      fun hending hempty => hbare ⟨hending, hempty⟩
    have hcheck : ((heap.tailChain last).ending.isSome &&
        (items ++ (heap.tailChain last).items).isEmpty) = false := by
      simpa [Option.isSome_iff_ne_none] using hitems
    obtain ⟨id, after, hmade, h⟩ := allocate_makesList hw (hw.tailEnding_atom last) hitems
    refine Or.inl ⟨id, after, ?_, h⟩
    rw [construct, get_bind, hunroll]
    simp only [hcheck, Bool.false_eq_true, if_false]
    exact hmade

/-- One item or more in front of a tail make a list. -/
theorem construct_makesList {heap : ListHeap} (hw : heap.WellFormed) {items : List Cell}
    {last : Option Cell} (h : ∀ c ∈ last, heap.holds c = true) (hitems : items ≠ []) :
    MakesList (construct items last) heap ((heap.tailChain last).prepend items) := by
  rcases construct_cases hw items h with hmade | ⟨_, hempty, _⟩
  · exact hmade
  · exact absurd hempty hitems

/-- The list with a first item in front of a tail. -/
theorem cons_makesList {heap : ListHeap} (hw : heap.WellFormed) (head : Cell) {tail : Cell}
    (h : heap.holds tail = true) : MakesList (cons head tail) heap ((heap.chain tail).prepend [head]) :=
  construct_makesList hw (by rintro c ⟨⟩; exact h) (List.cons_ne_nil _ _)

/-- Items in front of a tail, or the bare tail: what is made has these items and the chain of the tail.
It is the tail itself if that is no list and there is no item, and otherwise a list. -/
theorem join_cases {heap : ListHeap} (hw : heap.WellFormed) (items : List Cell) {last : Option Cell}
    (h : ∀ c ∈ last, heap.holds c = true) :
    MakesList (join items last) heap ((heap.tailChain last).prepend items) ∨
      items = [] ∧ ∃ a, last = some (.atom a) ∧ join items last heap = .ok (.atom a) heap := by
  have hunroll := hw.unroll items h
  have hatom := hw.tailEnding_atom last
  -- What is made is no list only if there are no items at all and something that is no list ends them.
  by_cases hbare : (heap.tailChain last).ending ≠ none ∧ items ++ (heap.tailChain last).items = []
  · obtain ⟨hending, hempty⟩ := hbare
    obtain ⟨rfl, htail⟩ := List.append_eq_nil_iff.mp hempty
    obtain ⟨a, rfl⟩ := hw.bare_tail h htail hending
    exact Or.inr ⟨rfl, a, rfl, by rw [join, get_bind, hunroll]; rfl⟩
  · have hconstruct : join items last heap =
        construct (items ++ (heap.tailChain last).items) (heap.tailChain last).ending heap := by
      rw [join, get_bind, hunroll]
      revert hbare
      generalize items ++ (heap.tailChain last).items = unrolled
      generalize (heap.tailChain last).ending = ending
      intro hbare
      cases ending with
      | none => cases unrolled <;> rfl
      | some tail =>
        cases unrolled with
        | nil => exact absurd ⟨Option.some_ne_none tail, rfl⟩ hbare
        | cons => rfl
    have hheld : ∀ c ∈ (heap.tailChain last).ending, heap.holds c = true := by
      intro c hc
      obtain ⟨a, rfl⟩ := hatom c hc
      rfl
    have hending : heap.tailChain (heap.tailChain last).ending = ⟨[], (heap.tailChain last).ending⟩ := by
      cases he : (heap.tailChain last).ending with
      | none => rfl
      | some c =>
        obtain ⟨a, rfl⟩ := hatom c he
        rfl
    rcases construct_cases hw (items ++ (heap.tailChain last).items) hheld with
      ⟨id, after, hmade, hrest⟩ | ⟨_, hempty, a, ha⟩
    · rw [hending, Chain.prepend, List.append_nil] at hrest
      exact Or.inl ⟨id, after, hconstruct.trans hmade, hrest⟩
    · exact absurd ⟨by rw [ha]; simp, hempty⟩ hbare

theorem join_makes {heap : ListHeap} (hw : heap.WellFormed) (items : List Cell) {last : Option Cell}
    (h : ∀ c ∈ last, heap.holds c = true) :
    Makes (join items last) heap ((heap.tailChain last).prepend items) := by
  rcases join_cases hw items h with hmade | ⟨rfl, a, rfl, hjoin⟩
  · exact hmade.makes
  · exact ⟨.atom a, heap, hjoin, .refl heap, hw, rfl, rfl⟩

/-- The list whose last item is its tail. Nothing is changed when a single item is no list. -/
theorem dotted_cases {heap : ListHeap} (hw : heap.WellFormed) {items : List Cell}
    (h : ∀ c ∈ items, heap.holds c = true) :
    MakesList (dotted items) heap ((heap.tailChain items.getLast?).prepend items.dropLast) ∨
      dotted items heap = .error .tailWithoutItems heap ∧ ∃ a, items = [.atom a] := by
  rw [dotted]
  cases hlast : items.getLast? with
  | none =>
    rw [List.getLast?_eq_none_iff.mp hlast]
    have hheld : ∀ c ∈ (none : Option Cell), heap.holds c = true := by simp
    rcases construct_cases hw [] hheld with hmade | ⟨_, _, a, ha⟩
    · exact Or.inl hmade
    · simp at ha
  | some c =>
    have hheld : ∀ d ∈ some c, heap.holds d = true := by
      rintro d ⟨⟩
      exact h c (List.mem_of_getLast? hlast)
    rcases join_cases hw items.dropLast hheld with ⟨id, after, hmade, hrest⟩ | ⟨hempty, a, ha, hbare⟩
    · refine Or.inl ⟨id, after, ?_, hrest⟩
      simp only [bind_of_ok hmade]
      rfl
    · obtain rfl := Option.some.inj ha
      refine Or.inr ⟨?_, a, ?_⟩
      · simp only [bind_of_ok hbare]
        rfl
      · obtain ⟨front, rfl⟩ := List.getLast?_eq_some_iff.mp hlast
        rw [List.dropLast_concat] at hempty
        rw [hempty, List.nil_append]

/-! ### Taking lists apart -/

theorem object_eq {heap : ListHeap} {id : ObjectId} {o : ListObject} (h : heap.objects[id]? = some o) :
    object id heap = .ok o heap := by
  rw [object, get_bind, h]
  rfl

/-- Items of a view are those of its row from its start on. -/
theorem elements_eq_cons {heap : ListHeap} {o : ListObject} {head : Cell} {items : List Cell}
    (h : heap.elements o = head :: items) : o.start < (heap.row o.row).length ∧
      (heap.row o.row)[o.start]? = some head ∧ (heap.row o.row).drop (o.start + 1) = items := by
  rw [elements] at h
  have hhead : (heap.row o.row)[o.start]? = some head := by
    have hget : ((heap.row o.row).drop o.start)[0]? = (heap.row o.row)[o.start + 0]? :=
      List.getElem?_drop
    rw [h] at hget
    exact hget.symm
  refine ⟨(List.getElem?_eq_some_iff.mp hhead).1, hhead, ?_⟩
  rw [← List.drop_drop, h]
  rfl

/-- The first item of a list. -/
theorem first_eq {heap : ListHeap} {id : ObjectId} {o : ListObject} (h : heap.objects[id]? = some o)
    {head : Cell} {items : List Cell} (hitems : heap.elements o = head :: items) :
    first id heap = .ok head heap := by
  obtain ⟨hlt, hhead, _⟩ := elements_eq_cons hitems
  rw [first, bind_of_ok (object_eq h), get_bind, if_neg (Nat.ne_of_lt hlt), hhead]
  rfl

/-- The empty list has no first item. -/
theorem first_eq_error {heap : ListHeap} (hw : heap.WellFormed) {id : ObjectId} {o : ListObject}
    (h : heap.objects[id]? = some o) (hitems : heap.elements o = []) :
    first id heap = .error (.empty .head) heap := by
  rw [first, bind_of_ok (object_eq h), get_bind, if_pos ((hw id o h).start_eq hitems)]
  rfl

/-- What follows the first item of a single dotted pair is its bare tail. -/
theorem rest_eq_tail {heap : ListHeap} {id : ObjectId} {o : ListObject}
    (h : heap.objects[id]? = some o) {head tail : Cell} (hitems : heap.elements o = [head])
    (hlast : o.last = some tail) : rest id heap = .ok tail heap := by
  obtain ⟨hlt, _, hrest⟩ := elements_eq_cons hitems
  have hend : o.start + 1 = (heap.row o.row).length :=
    Nat.le_antisymm hlt (List.drop_eq_nil_iff.mp hrest)
  rw [rest, bind_of_ok (object_eq h), get_bind, if_neg (Nat.ne_of_lt hlt), hlast]
  simp only [hend, if_true]
  rfl

/-- What follows the first item of any other list is a new list of the chain behind it. -/
theorem rest_makesList {heap : ListHeap} (hw : heap.WellFormed) {id : ObjectId} {o : ListObject}
    (h : heap.objects[id]? = some o) {head : Cell} {items : List Cell}
    (hitems : heap.elements o = head :: items) (hpair : ¬(items = [] ∧ o.last ≠ none)) :
    MakesList (rest id) heap ⟨items, o.last⟩ := by
  obtain ⟨hlt, _, hrest⟩ := elements_eq_cons hitems
  have ho := hw id o h
  have hend : o.last ≠ none → o.start + 1 ≠ (heap.row o.row).length := by
    intro hl he
    refine hpair ⟨?_, hl⟩
    rw [← hrest]
    exact List.drop_eq_nil_iff.mpr (Nat.le_of_eq he.symm)
  have hnormal : heap.IsNormal ⟨o.row, o.start + 1, o.last⟩ :=
    ⟨ho.row_lt, hlt, ho.last_atom, fun hl => Nat.lt_of_le_of_ne hlt (hend hl)⟩
  have hview : rest id heap = view o.row (o.start + 1) o.last heap := by
    rw [rest, bind_of_ok (object_eq h), get_bind, if_neg (Nat.ne_of_lt hlt)]
    cases hlast : o.last with
    | none => rfl
    | some tail => simp only [hend (by rw [hlast]; exact Option.some_ne_none tail), if_false]
  obtain ⟨new, after, hmade, hafter⟩ := view_makesList hw hnormal
  rw [hrest] at hafter
  exact ⟨new, after, hview.trans hmade, hafter⟩

theorem rest_makes {heap : ListHeap} (hw : heap.WellFormed) {id : ObjectId} {o : ListObject}
    (h : heap.objects[id]? = some o) {head : Cell} {items : List Cell}
    (hitems : heap.elements o = head :: items) : Makes (rest id) heap ⟨items, o.last⟩ := by
  by_cases hpair : items = [] ∧ o.last ≠ none
  · obtain ⟨rfl, hl⟩ := hpair
    obtain ⟨tail, hlast⟩ := Option.ne_none_iff_exists'.mp hl
    obtain ⟨a, rfl⟩ := (hw id o h).last_atom tail hlast
    exact ⟨.atom a, heap, rest_eq_tail h hitems hlast, .refl heap, hw, rfl, by rw [hlast]; rfl⟩
  · exact (rest_makesList hw h hitems hpair).makes

/-- Nothing follows the first item of the empty list. -/
theorem rest_eq_error {heap : ListHeap} (hw : heap.WellFormed) {id : ObjectId} {o : ListObject}
    (h : heap.objects[id]? = some o) (hitems : heap.elements o = []) :
    rest id heap = .error (.empty .tail) heap := by
  rw [rest, bind_of_ok (object_eq h), get_bind, if_pos ((hw id o h).start_eq hitems)]
  rfl

/-- The first item and what follows it are taken together. -/
theorem splitFirst_eq {heap after : ListHeap} {id : ObjectId} {o : ListObject}
    (h : heap.objects[id]? = some o) {head tail : Cell} {items : List Cell}
    (hitems : heap.elements o = head :: items) (hrest : rest id heap = .ok tail after) :
    splitFirst id heap = .ok (head, tail) after := by
  rw [splitFirst, bind_of_ok (first_eq h hitems), bind_of_ok hrest]
  rfl

theorem splitFirst_eq_error {heap : ListHeap} (hw : heap.WellFormed) {id : ObjectId} {o : ListObject}
    (h : heap.objects[id]? = some o) (hitems : heap.elements o = []) :
    splitFirst id heap = .error (.empty .head) heap := by
  rw [splitFirst, bind_of_error (first_eq_error hw h hitems)]

/-- The object whose first item has been taken off. -/
def popped (heap : ListHeap) (id : ObjectId) (o : ListObject) : ListHeap :=
  { heap with objects := heap.objects.set! id { o with start := o.start + 1 } }

/-- Taking the first item off a list in place, unless it is a single dotted pair. -/
theorem popFront_eq {heap : ListHeap} {id : ObjectId} {o : ListObject} (h : heap.objects[id]? = some o)
    {head : Cell} {items : List Cell} (hitems : heap.elements o = head :: items) :
    popFront id heap = if items = [] ∧ o.last ≠ none then .error (.dottedPair id) heap
      else .ok head (popped heap id o) := by
  obtain ⟨hlt, _, hrest⟩ := elements_eq_cons hitems
  have hend : o.start + 1 = (heap.row o.row).length ↔ items = [] := by
    rw [← hrest, List.drop_eq_nil_iff]
    omega
  rw [popFront, bind_of_ok (first_eq h hitems), bind_of_ok (object_eq h), get_bind]
  by_cases hpair : items = [] ∧ o.last ≠ none
  · rw [if_pos hpair]
    simp only [hend.mpr hpair.1, decide_true, Option.isSome_iff_ne_none.mpr hpair.2, Bool.and_self, if_true]
    rfl
  · rw [if_neg hpair]
    have hcheck : (decide (o.start + 1 = (heap.row o.row).length) && o.last.isSome) = false := by
      simpa [hend, Option.isSome_iff_ne_none] using hpair
    simp only [hcheck, Bool.false_eq_true, if_false]
    rfl

theorem popFront_eq_error {heap : ListHeap} (hw : heap.WellFormed) {id : ObjectId} {o : ListObject}
    (h : heap.objects[id]? = some o) (hitems : heap.elements o = []) :
    popFront id heap = .error (.empty .head) heap := by
  rw [popFront, bind_of_error (first_eq_error hw h hitems)]

/-- The object is now the chain behind its first item. -/
theorem chain_popped {heap : ListHeap} {id : ObjectId} {o : ListObject} (h : heap.objects[id]? = some o)
    {head : Cell} {items : List Cell} (hitems : heap.elements o = head :: items) :
    (popped heap id o).chain (.object id) = ⟨items, o.last⟩ := by
  obtain ⟨hlt, _⟩ := Array.getElem?_eq_some_iff.mp h
  have hnew : (popped heap id o).objects[id]? = some { o with start := o.start + 1 } := by
    simp [popped, hlt]
  rw [chain_object hnew, ← (elements_eq_cons hitems).2.2]
  rfl

/-- Every other object keeps its chain, whether it shares the row or was built on the object. -/
theorem chain_popped_of_ne {heap : ListHeap} {id other : ObjectId} (o : ListObject) (hne : other ≠ id) :
    (popped heap id o).chain (.object other) = heap.chain (.object other) := by
  have hsame : (popped heap id o).objects[other]? = heap.objects[other]? := by
    simp [popped, Array.getElem?_setIfInBounds_ne hne.symm]
  rw [chain, chain, hsame]
  rfl

/-- An object that is no single dotted pair stays normal without its first item. -/
theorem popped_wellFormed {heap : ListHeap} (hw : heap.WellFormed) {id : ObjectId} {o : ListObject}
    (h : heap.objects[id]? = some o) {head : Cell} {items : List Cell}
    (hitems : heap.elements o = head :: items) (hpair : ¬(items = [] ∧ o.last ≠ none)) :
    (popped heap id o).WellFormed := by
  obtain ⟨hlt, _, hrest⟩ := elements_eq_cons hitems
  have ho := hw id o h
  intro other o' ho'
  by_cases hother : other = id
  · subst hother
    obtain ⟨hsize, _⟩ := Array.getElem?_eq_some_iff.mp h
    have hnew : (popped heap other o).objects[other]? = some { o with start := o.start + 1 } := by
      simp [popped, hsize]
    obtain rfl := Option.some.inj (hnew.symm.trans ho')
    refine ⟨ho.row_lt, hlt, ho.last_atom, fun hl => Nat.lt_of_le_of_ne hlt fun he => hpair ⟨?_, hl⟩⟩
    rw [← hrest]
    exact List.drop_eq_nil_iff.mpr (Nat.le_of_eq he.symm)
  · have hsame : (popped heap id o).objects[other]? = heap.objects[other]? := by
      simp [popped, Array.getElem?_setIfInBounds_ne (Ne.symm hother)]
    obtain ⟨hr, hs, hl, hd⟩ := hw other o' (hsame ▸ ho')
    exact ⟨hr, hs, hl, hd⟩

/-! ### Enumerating lists -/

theorem iterate_eq {heap : ListHeap} {id : ObjectId} {o : ListObject} (h : heap.objects[id]? = some o) :
    iterate id heap = .ok (heap.chainOf o).cells heap := by
  rw [iterate, bind_of_ok (object_eq h), get_bind]
  rfl

/-- The number of cells. -/
theorem length_eq (heap : ListHeap) (o : ListObject) :
    heap.length o = (heap.chainOf o).cells.length := by
  rw [ListHeap.length, Chain.cells, chainOf, List.length_append, elements, List.length_drop]
  cases o.last <;> simp

/-- A place in a list is a place in its row, or the one behind it. -/
theorem getElem?_cells (heap : ListHeap) (o : ListObject) (k : Nat)
    (hk : k < (heap.chainOf o).cells.length) :
    (heap.chainOf o).cells[k]? = ((heap.row o.row)[o.start + k]?).or o.last := by
  rw [Chain.cells, chainOf] at hk ⊢
  simp only at hk ⊢
  by_cases hitem : k < (heap.elements o).length
  · rw [List.getElem?_append_left hitem, elements, List.getElem?_drop]
    have hlt : o.start + k < (heap.row o.row).length := by
      rw [elements, List.length_drop] at hitem
      omega
    rw [List.getElem?_eq_getElem hlt, Option.some_or]
  · rw [List.length_append] at hk
    have hend : (heap.row o.row)[o.start + k]? = none := by
      rw [elements, List.length_drop] at hitem
      exact List.getElem?_eq_none (by omega)
    rw [List.getElem?_append_right (Nat.le_of_not_lt hitem), hend, Option.none_or]
    cases hlast : o.last with
    | none =>
      rw [hlast] at hk
      exact absurd hk hitem
    | some tail =>
      rw [hlast] at hk
      have hzero : k - (heap.elements o).length = 0 := by
        simp only [Option.toList_some, List.length_singleton] at hk
        omega
      rw [hzero]
      rfl

/-- The cell at a place, where the list has one. -/
theorem nth_eq {heap : ListHeap} {id : ObjectId} {o : ListObject} (h : heap.objects[id]? = some o)
    (n : Int) : nth id n heap = if n < 0 then .error .indexOutOfRange heap
      else match (heap.chainOf o).cells[n.toNat]? with
        | some c => .ok c heap
        | none => .error .indexOutOfRange heap := by
  rw [nth, bind_of_ok (object_eq h), get_bind]
  by_cases hneg : n < 0
  · rw [if_pos (Or.inl hneg), if_pos hneg]
    rfl
  rw [if_neg hneg]
  by_cases hin : n.toNat < (heap.chainOf o).cells.length
  · rw [if_neg (by rw [length_eq]; omega), getElem?_cells heap o _ hin]
    have hsome : ((heap.row o.row)[o.start + n.toNat]?).or o.last ≠ none := by
      rw [← getElem?_cells heap o _ hin, List.getElem?_eq_getElem hin]
      exact Option.some_ne_none _
    cases hitem : (heap.row o.row)[o.start + n.toNat]? with
    | some c => rfl
    | none =>
      cases hlast : o.last with
      | some tail => rfl
      | none => exact absurd (by rw [hitem, hlast]; rfl) hsome
  · rw [if_pos (Or.inr (by rw [length_eq]; omega)), List.getElem?_eq_none (Nat.le_of_not_lt hin)]
    rfl

/-- The empty list is the one without cells. -/
theorem isEmpty_eq {heap : ListHeap} {o : ListObject} (ho : heap.IsNormal o) :
    heap.isEmpty o = (heap.chainOf o).cells.isEmpty := by
  have hempty : o.start = (heap.row o.row).length ↔ heap.elements o = [] :=
    ⟨fun he => List.drop_eq_nil_iff.mpr (Nat.le_of_eq he.symm), ho.start_eq⟩
  rw [isEmpty, Chain.cells, chainOf]
  simp only [decide_eq_decide.mpr hempty]
  cases heap.elements o <;> cases o.last <;> simp

/-- The last cell. -/
theorem last_eq {heap : ListHeap} (hw : heap.WellFormed) {id : ObjectId} {o : ListObject}
    (h : heap.objects[id]? = some o) : last id heap = match (heap.chainOf o).cells.getLast? with
      | some c => .ok c heap
      | none => .error (.empty .last) heap := by
  rw [last, bind_of_ok (object_eq h), get_bind, isEmpty_eq (hw id o h)]
  by_cases hempty : (heap.chainOf o).cells = []
  · rw [hempty]
    rfl
  · rw [if_neg (by simpa using hempty)]
    rw [Chain.cells, chainOf] at hempty ⊢
    simp only at hempty ⊢
    cases hlast : o.last with
    | some tail =>
      rw [Option.toList_some, List.getLast?_concat]
      rfl
    | none =>
      rw [hlast, Option.toList_none, List.append_nil] at hempty
      rw [Option.toList_none, List.append_nil]
      have hlt : o.start < (heap.row o.row).length := by
        rw [elements, List.drop_eq_nil_iff] at hempty
        exact Nat.lt_of_not_le hempty
      rw [elements, List.getLast?_drop, if_neg (Nat.not_le.mpr hlt)]
      cases hrow : (heap.row o.row).getLast? with
      | some c => rfl
      | none =>
        rw [List.getLast?_eq_none_iff] at hrow
        rw [hrow] at hlt
        exact absurd hlt (Nat.not_lt_zero _)

/-- All cells but the last. -/
theorem butLast_eq {heap : ListHeap} {id : ObjectId} {o : ListObject} (h : heap.objects[id]? = some o) :
    butLast id heap = .ok (heap.chainOf o).cells.dropLast heap := by
  rw [butLast, bind_of_ok (object_eq h), get_bind, length_eq, List.dropLast_eq_take]
  show EStateM.Result.ok _ heap = _
  congr 1
  by_cases hempty : (heap.chainOf o).cells.length = 0
  · rw [if_pos hempty, hempty]
    rfl
  · rw [if_neg hempty]
    rfl
end ListAction

end Lisplet
