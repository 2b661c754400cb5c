import Lisplet.Proofs.EqualityLaws
import Lisplet.Proofs.Faults
import Lisplet.Proofs.Patterns

/-!
# List procedures on chains of pairs

A value is a chain of pairs: it has a head, what follows it has one, and so on, until something follows that is
no pair. Values keep the heads of a chain in one row, and the list procedures work on rows. What they give is
told here by the heads and the end of the chains alone, and by taking tails one after another: `list-tail` takes
them round by round, and the rounds drop items.

Two values of the same chain are equal, whatever objects the lists are.
-/

namespace Lisplet

namespace Value

/-! ### Chains -/

/-- Pair by pair, a value has these heads, and after the last pair comes an atom or, if there is none, the empty
list. -/
inductive IsChain : Value → List Value → Option Atom → Prop
  | nil : IsChain .nil [] none
  | atom (a : Atom) : IsChain (.atom a) [] (some a)
  | pair {v head tail : Value} {xs : List Value} {last : Option Atom} (id : ObjectId)
      (hhead : v.head? = some head) (htail : v.tail? id = some tail) (hmore : IsChain tail xs last) :
      IsChain v (head :: xs) last

variable {v w : Value} {xs ys : List Value} {last : Option Atom}

theorem isChain_self (v : Value) : v.IsChain v.items v.ending := by
  obtain ⟨xs, hxs⟩ : ∃ xs, v.items = xs := ⟨_, rfl⟩
  induction xs generalizing v with
  | nil =>
    cases v with
    | atom a => exact .atom a
    | nil => exact .nil
    | list id head rest last => exact nomatch hxs
  | cons x xs ih =>
    cases v with
    | atom a => exact nomatch hxs
    | nil => exact nomatch hxs
    | list id head rest last =>
      have hmore := ih (assemble 0 rest last) ((items_assemble 0 rest last).trans (List.cons.inj hxs).2)
      rw [items_assemble, ending_assemble] at hmore
      exact .pair 0 rfl rfl hmore

/-- The heads and the end of a chain are the items and the ending of the value. -/
theorem isChain_iff : v.IsChain xs last ↔ v.items = xs ∧ v.ending = last := by
  constructor
  · intro h
    induction h with
    | nil => exact ⟨rfl, rfl⟩
    | atom a => exact ⟨rfl, rfl⟩
    | pair id hhead htail _ ih =>
      obtain ⟨hitems, hending⟩ := of_head?_tail? hhead htail
      exact ⟨hitems.trans (congrArg _ ih.1), hending.trans ih.2⟩
  · rintro ⟨rfl, rfl⟩
    exact v.isChain_self

theorem isChain_assemble (id : ObjectId) (xs : List Value) (last : Option Atom) :
    (assemble id xs last).IsChain xs last :=
  isChain_iff.mpr ⟨items_assemble id xs last, ending_assemble id xs last⟩

/-- A value is its items in front of its ending. -/
theorem IsChain.exists_eq_assemble (h : v.IsChain xs last) : ∃ id, v = assemble id xs last := by
  obtain ⟨rfl, rfl⟩ := isChain_iff.mp h
  cases v with
  | atom a => exact ⟨0, rfl⟩
  | nil => exact ⟨0, rfl⟩
  | list id head rest last => exact ⟨id, rfl⟩

/-- A chain without heads is the atom at its end, or the empty list. -/
theorem IsChain.eq_of_nil (h : v.IsChain [] last) : v = (last.map Value.atom).getD .nil := by
  obtain ⟨id, rfl⟩ := h.exists_eq_assemble
  cases last <;> rfl

theorem IsChain.head?_eq {x : Value} (h : v.IsChain (x :: xs) last) : v.head? = some x := by
  cases h with
  | pair _ hhead _ _ => exact hhead

/-- Values of the same chain are equal. -/
theorem IsChain.equal (h : v.IsChain xs last) (h' : w.IsChain xs last) (content : BufferId → Text) :
    equal content v w = true := by
  obtain ⟨i, rfl⟩ := h.exists_eq_assemble
  obtain ⟨j, rfl⟩ := h'.exists_eq_assemble
  cases xs with
  | nil => cases last <;> exact equal_refl content _
  | cons x xs =>
    have hlast : Option.Rel (fun a b => (alike content).atoms a b = true) last last := by
      cases last with
      | none => exact .none
      | some a => exact .some (Atom.equal_refl content a)
    rw [Value.equal, comparePending_single]
    exact compareSpec_list_iff.mpr ⟨rfl, compareSpec_refl (Atom.equal_refl content) (fun _ => rfl) x,
      compareRow_refl (Atom.equal_refl content) (fun _ => rfl) xs, hlast⟩

/-- The proper lists are the chains that end in the empty list. -/
theorem isProper_iff : v.isProper = true ↔ v.isList = true ∧ v.ending = none := by
  cases v with
  | atom a => simp [isProper, isList]
  | nil => simp [isProper, isList, ending]
  | list id head rest last => cases last <;> simp [isProper, isList, ending]

theorem IsChain.isProper (h : v.IsChain xs none) : v.isProper = true := by
  obtain ⟨id, rfl⟩ := h.exists_eq_assemble
  cases xs <;> rfl

theorem exists_isChain_iff : (∃ xs, v.IsChain xs none) ↔ v.isProper = true := by
  refine ⟨fun ⟨_, h⟩ => h.isProper, fun h => ⟨v.items, isChain_iff.mpr ⟨rfl, (isProper_iff.mp h).2⟩⟩⟩

end Value

/-! ### Actions that give chains -/

namespace Action

variable {α β : Type}

/-- From a store an action ends with a value of this chain. -/
def GivesChain (act : Action Value) (s : Store) (xs : List Value) (last : Option Atom) : Prop :=
  ∃ v s', act s = .ok v s' ∧ v.IsChain xs last

/-- From a store two actions end with values that are equal there. -/
def GiveEqual (act act' : Action Value) (s : Store) : Prop :=
  ∃ v s' w s'', act s = .ok v s' ∧ act' s = .ok w s'' ∧ Value.equal s.content v w = true

/-- An action takes new identities and does nothing else to a store, however it ends. -/
def TakesObjects (act : Action α) : Prop := ∀ s, ∃ next, act.after s = { s with nextObject := next }

section

variable {act act' : Action Value} {next : Value → Action Value} {s : Store} {xs ys : List Value}
  {last last' : Option Atom}

theorem GivesChain.succeeds (h : act.GivesChain s xs last) : act.Succeeds s :=
  have ⟨v, s', hact, _⟩ := h
  ⟨v, s', hact⟩

theorem GivesChain.of_isChain {v : Value} (h : v.IsChain xs last) (s : Store) :
    (Pure.pure v : Action Value).GivesChain s xs last := ⟨v, s, rfl, h⟩

theorem GivesChain.bind (h : act.GivesChain s xs last)
    (hnext : ∀ v s', v.IsChain xs last → (next v).GivesChain s' ys last') :
    (act >>= next).GivesChain s ys last' := by
  obtain ⟨v, s', hact, hv⟩ := h
  obtain ⟨w, s'', hw, hchain⟩ := hnext v s' hv
  exact ⟨w, s'', (bind_of_ok hact).trans hw, hchain⟩

theorem GivesChain.giveEqual (h : act.GivesChain s xs last) (h' : act'.GivesChain s xs last) :
    act.GiveEqual act' s := by
  obtain ⟨v, s', hact, hv⟩ := h
  obtain ⟨w, s'', hact', hw⟩ := h'
  exact ⟨v, s', w, s'', hact, hact', hv.equal hw s.content⟩

end

namespace TakesObjects

@[grind ←] theorem of_looks {act : Action α} (h : act.Looks) : act.TakesObjects :=
  fun s => ⟨s.nextObject, h s⟩

@[grind ←] theorem freshObject : Action.freshObject.TakesObjects := fun s => ⟨s.nextObject + 1, rfl⟩

@[grind ←] theorem bind {act : Action α} {next : α → Action β} (h : act.TakesObjects)
    (hnext : ∀ a, (next a).TakesObjects) : (act >>= next).TakesObjects := by
  intro s
  obtain ⟨n, hn⟩ := h s
  cases hact : act s with
  | ok a s' =>
    obtain ⟨m, hm⟩ := hnext a s'
    obtain rfl := (after_of_ok hact).symm.trans hn
    refine ⟨m, ?_⟩
    rw [after, bind_of_ok hact]
    exact hm
  | error e s' => exact ⟨n, (after_of_error (bind_of_error hact)).trans ((after_of_error hact).symm.trans hn)⟩

end TakesObjects

end Action

/-! ### Single calls -/

namespace ListOp

open Lisplet.Action Value

variable {v w z : Value} {xs : List Value} {last : Option Atom} {k : Nat}

theorem rest_takesObjects (l : Value) : (rest l).TakesObjects := by
  refine .bind .freshObject fun id => ?_
  split <;> grind

theorem dropTimes_takesObjects (who : Text) (index : Int) (k : Nat) (v : Value) :
    (dropTimes who index k v).TakesObjects := by
  induction k generalizing v with
  | zero => exact .of_looks (.pure v)
  | succ k ih =>
    rw [dropTimes]
    split
    · exact .bind (rest_takesObjects v) ih
    · grind

/-- Every list procedure leaves a store as it is, new identities apart. -/
theorem run_takesObjects (op : ListOp) (args : List Value) : (op.run args).TakesObjects := by
  unfold run
  split
  case h_3 => exact .bind (by grind) rest_takesObjects
  case h_6 =>
    unfold appendAll
    split <;> grind
  case h_8 =>
    refine .bind (by grind) fun l => .bind (by grind) fun n => ?_
    unfold dropPlaces
    split
    · grind
    · exact dropTimes_takesObjects _ n n.toNat l
  all_goals grind [newList]

theorem asList_eq (who : Option Text) (hlist : v.isList = true) (s : Store) : asList who v s = .ok v s := by
  rw [asList, if_pos hlist]
  rfl

theorem isList_of_head {a : Value} (h : v.head? = some a) : v.isList = true := by
  cases v with
  | atom => exact nomatch h
  | nil | list => rfl

theorem isList_of_tail {id : ObjectId} (h : v.tail? id = some w) : v.isList = true := by
  cases v with
  | atom => exact nomatch h
  | nil | list => rfl

theorem isPair_of_tail {id : ObjectId} (h : v.tail? id = some w) : v.isPair = true := by
  cases v with
  | atom | nil => exact nomatch h
  | list => rfl

theorem not_isPair_of_items (h : v.items = []) : ¬ v.isPair = true := by
  cases v with
  | atom | nil => exact Bool.false_ne_true
  | list => exact nomatch h

theorem run_car {a : Value} (h : v.head? = some a) (s : Store) : car.run [v] s = .ok a s := by
  refine (bind_of_ok (asList_eq _ (isList_of_head h) s)).trans ?_
  rw [h]
  rfl

theorem rest_eq {s : Store} (h : v.tail? s.nextObject = some w) : rest v s = .ok w s.withObject := by
  have hfresh : freshObject s = .ok s.nextObject s.withObject := rfl
  rw [rest, bind_of_ok hfresh, h]
  rfl

theorem run_cdr {s : Store} (h : v.tail? s.nextObject = some w) : cdr.run [v] s = .ok w s.withObject :=
  (bind_of_ok (asList_eq _ (isList_of_tail h) s)).trans (rest_eq h)

/-- What has no tail makes `cdr` fail. -/
theorem run_cdr_fails (h : v.items = []) (s : Store) : ¬(cdr.run [v]).Succeeds s := by
  rintro ⟨_, _, hrun⟩
  cases v with
  | atom a => exact nomatch hrun
  | nil => exact nomatch hrun
  | list id head rest last => exact nomatch h

theorem run_length (v : Value) (s : Store) :
    (length.run [v]).Finds s (if v.isProper then some (.int v.items.length) else none) := by
  have h := (asItems_finds (some length.name) v s).bind (fun xs => some (Value.int xs.length))
    fun xs _ => .pure _ s
  split
  next hproper => rwa [if_pos hproper] at h
  next hnot => rwa [if_neg hnot] at h

theorem run_reverse (h : v.isProper = true) (s : Store) :
    reverse.run [v] s = .ok (.ofList s.nextObject v.items.reverse) s.withObject := by
  have hitems : asItems (some reverse.name) v s = .ok v.items s := by
    rw [asItems, if_pos h]
    rfl
  exact (bind_of_ok hitems).trans rfl

theorem allItems_eq (who : Text) {fronts : List Value} (h : ∀ v ∈ fronts, v.isProper = true) (s : Store) :
    allItems who fronts s = .ok (fronts.flatMap items) s := by
  induction fronts with
  | nil => rfl
  | cons v fronts ih =>
    have hitems : asItems (some who) v s = .ok v.items s := by
      rw [asItems, if_pos (h v List.mem_cons_self)]
      rfl
    exact (bind_of_ok hitems).trans ((bind_of_ok (ih fun w hw => h w (List.mem_cons_of_mem v hw))).trans rfl)

/-- Appending proper lists to a value puts their items in front of it. -/
theorem run_append {fronts : List Value} (h : ∀ v ∈ fronts, v.isProper = true) (z : Value) (s : Store) :
    append.run (fronts ++ [z]) s =
      .ok (.append s.nextObject (fronts.flatMap items) z) s.withObject := by
  have happend : append.run (fronts ++ [z]) s = appendAll append.name (fronts ++ [z]) s := rfl
  rw [happend, appendAll, List.getLast?_concat, List.dropLast_concat]
  exact (bind_of_ok (allItems_eq append.name h s)).trans rfl

theorem run_listRef (hlist : v.isList = true) (n : Int) (s : Store) :
    (listRef.run [v, .int n]).Finds s (if n < 0 then none else v.items[n.toNat]?) := by
  have hrun : listRef.run [v, .int n] s = itemAt listRef.name v n s := bind_of_ok (asList_eq _ hlist s)
  refine Finds.congr ?_ hrun
  unfold itemAt
  split
  next a ha => rw [ha]; exact .pure a s
  next hnone => rw [hnone]; exact evaluationError_finds s _

/-! ### Tails one after another -/

/-- Takes the tail of a value so many times, call by call. -/
def tails : Nat → Value → Action Value
  | 0, v => pure v
  | k + 1, v => do
    let w ← cdr.run [v]
    tails k w

/-- Every call takes one more item off. -/
theorem tails_givesChain (hk : k ≤ v.items.length) (s : Store) :
    (tails k v).GivesChain s (v.items.drop k) v.ending := by
  induction k generalizing v s with
  | zero => exact .of_isChain v.isChain_self s
  | succ k ih =>
    obtain ⟨head, rest, hitems⟩ := List.exists_cons_of_length_pos (Nat.zero_lt_of_lt hk)
    obtain ⟨tail, -, htail, rfl, hending⟩ := exists_head?_tail? hitems s.nextObject
    obtain ⟨w, s', hw, hchain⟩ := ih (v := tail) (by simpa [hitems] using hk) s.withObject
    rw [hitems, List.drop_succ_cons, ← hending]
    exact ⟨w, s', (bind_of_ok (run_cdr htail)).trans hw, hchain⟩

theorem tails_succeeds_iff (k : Nat) (v : Value) (s : Store) : (tails k v).Succeeds s ↔ k ≤ v.items.length := by
  refine ⟨fun hsucceeds => ?_, fun hk => (tails_givesChain hk s).succeeds⟩
  induction k generalizing v s with
  | zero => exact Nat.zero_le _
  | succ k ih =>
    obtain ⟨w, s', hrun⟩ := hsucceeds
    cases hitems : v.items with
    | nil =>
      cases hcdr : cdr.run [v] s with
      | ok w' s'' => exact absurd ⟨w', s'', hcdr⟩ (run_cdr_fails hitems s)
      | error e s'' => exact nomatch (bind_of_error hcdr).symm.trans hrun
    | cons head rest =>
      obtain ⟨tail, -, htail, rfl, -⟩ := exists_head?_tail? hitems s.nextObject
      exact Nat.succ_le_succ (ih tail s.withObject ⟨w, s', (bind_of_ok (run_cdr htail)).symm.trans hrun⟩)

/-- So many tails lead to the empty list exactly if there are so many items and the list is proper. -/
theorem tails_nil_iff (k : Nat) (v : Value) (s : Store) :
    (∃ s', tails k v s = .ok .nil s') ↔ v.isProper = true ∧ v.items.length = k := by
  have hnil : ∀ {xs last}, Value.nil.IsChain xs last → xs = [] ∧ last = none :=
    fun h => have ⟨hitems, hending⟩ := isChain_iff.mp h; ⟨hitems.symm, hending.symm⟩
  constructor
  · rintro ⟨s', hrun⟩
    have hk := (tails_succeeds_iff k v s).mp ⟨_, _, hrun⟩
    obtain ⟨w, s'', hw, hchain⟩ := tails_givesChain hk s
    cases hrun.symm.trans hw
    obtain ⟨hdrop, hending⟩ := hnil hchain
    exact ⟨(exists_isChain_iff (v := v)).mp ⟨v.items, hending ▸ v.isChain_self⟩,
      Nat.le_antisymm (List.drop_eq_nil_iff.mp hdrop) hk⟩
  · rintro ⟨hproper, rfl⟩
    obtain ⟨w, s', hw, hchain⟩ := tails_givesChain (Nat.le_refl _) s
    rw [List.drop_length, (isProper_iff.mp hproper).2] at hchain
    cases hchain.eq_of_nil
    exact ⟨s', hw⟩

/-! ### Places dropped from a list -/

/-- As far as a list has items, a round of `list-tail` does what a call of `cdr` does. -/
theorem dropTimes_eq_tails (who : Text) (index : Int) (hk : k ≤ v.items.length) (s : Store) :
    dropTimes who index k v s = tails k v s := by
  induction k generalizing v s with
  | zero => rfl
  | succ k ih =>
    obtain ⟨head, others, hitems⟩ := List.exists_cons_of_length_pos (Nat.zero_lt_of_lt hk)
    obtain ⟨w, -, htail, rfl, -⟩ := exists_head?_tail? hitems s.nextObject
    rw [dropTimes, if_pos (isPair_of_tail htail), tails, bind_of_ok (rest_eq htail), bind_of_ok (run_cdr htail)]
    rw [hitems, List.length_cons] at hk
    exact ih (Nat.le_of_succ_le_succ hk) s.withObject

/-- The round for which no item is left finds the index out of range. -/
theorem dropTimes_of_lt (who : Text) (index : Int) (hk : v.items.length < k) (s : Store) :
    ∃ s', dropTimes who index k v s = .error (.failure (.evaluation (.indexOutOfRange index who))) s' := by
  induction k generalizing v s with
  | zero => exact absurd hk (Nat.not_lt_zero _)
  | succ k ih =>
    rw [dropTimes]
    cases hitems : v.items with
    | nil => exact ⟨s, by rw [if_neg (not_isPair_of_items hitems)]; rfl⟩
    | cons head others =>
      obtain ⟨w, -, htail, rfl, -⟩ := exists_head?_tail? hitems s.nextObject
      rw [if_pos (isPair_of_tail htail), bind_of_ok (rest_eq htail)]
      rw [hitems, List.length_cons] at hk
      exact ih (Nat.lt_of_succ_lt_succ hk) s.withObject

theorem run_listTail_eq (hlist : v.isList = true) (n : Int) (s : Store) :
    listTail.run [v, .int n] s = dropPlaces listTail.name v n s :=
  bind_of_ok (asList_eq _ hlist s)

/-- Up to all places, `list-tail` does what so many calls of `cdr` do. -/
theorem run_listTail_eq_tails (hlist : v.isList = true) (hk : k ≤ v.items.length) (s : Store) :
    listTail.run [v, .int k] s = tails k v s := by
  rw [run_listTail_eq hlist, dropPlaces, if_neg (by omega), Int.toNat_natCast]
  exact dropTimes_eq_tails _ _ hk s

/-- Up to all places, what is left of a list after some places has the other items and the same ending. -/
theorem run_listTail (hlist : v.isList = true) (hk : k ≤ v.items.length) (s : Store) :
    (listTail.run [v, .int k]).GivesChain s (v.items.drop k) v.ending := by
  obtain ⟨w, s', hrun, hw⟩ := tails_givesChain hk s
  exact ⟨w, s', (run_listTail_eq_tails hlist hk s).trans hrun, hw⟩

theorem run_listTail_succeeds_iff (hlist : v.isList = true) (n : Int) (s : Store) :
    (listTail.run [v, .int n]).Succeeds s ↔ 0 ≤ n ∧ n ≤ v.items.length := by
  constructor
  · rintro ⟨w, s', hrun⟩
    rw [run_listTail_eq hlist, dropPlaces] at hrun
    split at hrun
    · cases hrun
    next hn =>
      refine ⟨by omega, ?_⟩
      by_contra hlt
      obtain ⟨s'', hfails⟩ := dropTimes_of_lt listTail.name n (v := v) (k := n.toNat) (by omega) s
      cases hrun.symm.trans hfails
  · rintro ⟨hn, hle⟩
    obtain ⟨k, rfl⟩ := Int.eq_ofNat_of_zero_le hn
    exact (run_listTail hlist (by omega) s).succeeds

/-! ### The laws of the procedures -/

/-- Appending proper lists to a value puts the heads of their chains in front of its chain. -/
theorem append_givesChain {fronts : List Value} {rows : List (List Value)}
    (hfronts : List.Forall₂ (fun v row => v.IsChain row none) fronts rows) (hz : z.IsChain xs last) (s : Store) :
    (append.run (fronts ++ [z])).GivesChain s (rows.flatten ++ xs) last := by
  have hrows : (∀ v ∈ fronts, v.isProper = true) ∧ fronts.flatMap items = rows.flatten := by
    induction hfronts with
    | nil => exact ⟨nofun, rfl⟩
    | cons hv _ ih =>
      refine ⟨List.forall_mem_cons.mpr ⟨hv.isProper, ih.1⟩, ?_⟩
      rw [List.flatMap_cons, List.flatten_cons, (isChain_iff.mp hv).1, ih.2]
  obtain ⟨rfl, rfl⟩ := isChain_iff.mp hz
  rw [← hrows.2]
  exact ⟨_, _, run_append hrows.1 z s, isChain_assemble _ _ _⟩

theorem append_two_givesChain {a b : Value} {ys : List Value} (ha : a.IsChain xs none) (hb : b.IsChain ys last)
    (s : Store) : (append.run [a, b]).GivesChain s (xs ++ ys) last := by
  have h := append_givesChain (.cons ha .nil) hb s
  rwa [List.flatten_singleton] at h

theorem reverse_givesChain {a : Value} (ha : a.IsChain xs none) (s : Store) :
    (reverse.run [a]).GivesChain s xs.reverse none :=
  ⟨_, _, run_reverse ha.isProper s, (isChain_iff.mp ha).1 ▸ isChain_assemble _ _ _⟩

theorem list_givesChain (xs : List Value) (s : Store) : (list.run xs).GivesChain s xs none :=
  ⟨.ofList s.nextObject xs, s.withObject, rfl, isChain_assemble _ _ _⟩

/-! ### Laws -/

section

variable (s : Store)

theorem run_append_of_nils {fronts : List Value} (hempty : ∀ v ∈ fronts, v = .nil) (z : Value) :
    append.run (fronts ++ [z]) s = .ok (.append s.nextObject [] z) s.withObject := by
  have hproper : ∀ v ∈ fronts, v.isProper = true := fun v hv => hempty v hv ▸ rfl
  have hitems : fronts.flatMap items = [] := List.flatMap_eq_nil_iff.mpr fun v hv => hempty v hv ▸ rfl
  have hrun := run_append hproper z s
  rwa [hitems] at hrun

theorem append_assoc_giveEqual {a b : Value} (ha : a.isProper = true) (hb : b.isProper = true) (c : Value) :
    GiveEqual (do let v ← append.run [a, b]; append.run [v, c])
      (do let w ← append.run [b, c]; append.run [a, w]) s := by
  obtain ⟨⟨xs, ha⟩, ys, hb⟩ := And.intro (exists_isChain_iff.mpr ha) (exists_isChain_iff.mpr hb)
  have h := (append_two_givesChain ha hb s).bind fun v s' hv => append_two_givesChain hv c.isChain_self s'
  rw [List.append_assoc] at h
  exact h.giveEqual ((append_two_givesChain hb c.isChain_self s).bind fun w s' hw =>
    append_two_givesChain ha hw s')

theorem append_nil_giveEqual {a : Value} (ha : a.isProper = true) :
    (append.run [a, .nil]).GiveEqual (pure a) s := by
  obtain ⟨xs, ha⟩ := exists_isChain_iff.mpr ha
  have h := append_two_givesChain ha .nil s
  rw [List.append_nil] at h
  exact h.giveEqual (.of_isChain ha s)

theorem reverse_append_giveEqual {a b : Value} (ha : a.isProper = true) (hb : b.isProper = true) :
    GiveEqual (do let v ← append.run [a, b]; reverse.run [v])
      (do let v ← reverse.run [b]; let w ← reverse.run [a]; append.run [v, w]) s := by
  obtain ⟨⟨xs, ha⟩, ys, hb⟩ := And.intro (exists_isChain_iff.mpr ha) (exists_isChain_iff.mpr hb)
  have h := (append_two_givesChain ha hb s).bind fun v s' hv => reverse_givesChain hv s'
  rw [List.reverse_append] at h
  exact h.giveEqual ((reverse_givesChain hb s).bind fun v s' hv =>
    (reverse_givesChain ha s').bind fun w s'' hw => append_two_givesChain hv hw s'')

theorem reverse_reverse_giveEqual {a : Value} (ha : a.isProper = true) :
    GiveEqual (do let v ← reverse.run [a]; reverse.run [v]) (pure a) s := by
  obtain ⟨xs, ha⟩ := exists_isChain_iff.mpr ha
  have h := (reverse_givesChain ha s).bind fun v s' hv => reverse_givesChain hv s'
  rw [List.reverse_reverse] at h
  exact h.giveEqual (.of_isChain ha s)

section

variable {l : Value} {xs : List Value} {last : Option Atom}

theorem run_listTail_bare {a : Atom} (hlist : l.isList = true) (hl : l.IsChain xs (some a)) :
    ∃ s', listTail.run [l, .int xs.length] s = .ok (.atom a) s' := by
  obtain ⟨rfl, hending⟩ := isChain_iff.mp hl
  obtain ⟨w, s', hrun, hw⟩ := run_listTail hlist (Nat.le_refl _) s
  rw [List.drop_length, hending] at hw
  cases hw.eq_of_nil
  exact ⟨s', hrun⟩

theorem run_listRef_succeeds_iff (hlist : l.isList = true) (k : Int) :
    (listRef.run [l, .int k]).Succeeds s ↔ 0 ≤ k ∧ k < l.items.length := by
  rw [(run_listRef hlist k s).succeeds_iff]
  split
  next hneg => simp; omega
  next hnot => simp; omega

theorem run_listRef_head (hlist : l.isList = true) {k : Nat} (hk : k < l.items.length) :
    ∃ x s', listRef.run [l, .int k] s = .ok x s ∧
      (do let w ← listTail.run [l, .int k]; car.run [w] : Action Value) s = .ok x s' := by
  obtain ⟨w, s', hrun, hw⟩ := run_listTail hlist (Nat.le_of_lt hk) s
  rw [List.drop_eq_getElem_cons hk] at hw
  have hitem := run_listRef hlist k s
  rw [if_neg (by omega), Int.toNat_natCast, List.getElem?_eq_getElem hk] at hitem
  exact ⟨_, s', hitem.ok_iff.mpr ⟨rfl, rfl⟩, (bind_of_ok hrun).trans (run_car hw.head?_eq s')⟩

theorem append_parts_giveEqual (hlist : l.isList = true) {k : Nat} (hk : k ≤ l.items.length) :
    GiveEqual (do
        let front ← list.run (l.items.take k)
        let back ← listTail.run [l, .int k]
        append.run [front, back])
      (pure l) s := by
  have h := (list_givesChain (l.items.take k) s).bind fun front s' hfront =>
    (run_listTail hlist hk s').bind fun back s'' hback => append_two_givesChain hfront hback s''
  rw [List.take_append_drop] at h
  exact h.giveEqual (.of_isChain l.isChain_self s)

end

theorem run_length_succeeds_iff (v : Value) : (length.run [v]).Succeeds s ↔ ∃ xs, v.IsChain xs none := by
  rw [(run_length v s).succeeds_iff, exists_isChain_iff]
  split
  next hproper => simp [hproper]
  next hnot => simp [hnot]

theorem run_length_eq_iff (v : Value) (n : Nat) :
    (∃ s', length.run [v] s = .ok (.int n) s') ↔ ∃ s', tails n v s = .ok .nil s' := by
  rw [tails_nil_iff]
  simp only [(run_length v s).ok_iff, exists_and_left, exists_eq, and_true]
  split
  next hproper => simp [hproper, Value.int]
  next hnot => simp [hnot]

end

/-- What the list procedures give in a store, told by chains of pairs. -/
structure FollowsChains (s : Store) : Prop where
  /-- Appending proper lists to a value gives the heads of all of them in front of the chain of the value. -/
  append_chains {fronts : List Value} {rows : List (List Value)} {z : Value} {xs : List Value} {last : Option Atom}
    (hfronts : List.Forall₂ (fun v row => v.IsChain row none) fronts rows) (hz : z.IsChain xs last) :
    (append.run (fronts ++ [z])).GivesChain s (rows.flatten ++ xs) last
  /-- With nothing in front, a value is appended to as it is; a list with items becomes an object of its own. -/
  append_empty {fronts : List Value} (hempty : ∀ v ∈ fronts, v = .nil) (z : Value) :
    (append.run (fronts ++ [z])).GiveEqual (pure z) s ∧
      (z.isPair = false → ∃ s', append.run (fronts ++ [z]) s = .ok z s')
  append_assoc {a b : Value} (ha : a.isProper = true) (hb : b.isProper = true) (c : Value) :
    GiveEqual (do let v ← append.run [a, b]; append.run [v, c])
      (do let w ← append.run [b, c]; append.run [a, w]) s
  nil_append (z : Value) : (append.run [.nil, z]).GiveEqual (pure z) s
  append_nil {a : Value} (ha : a.isProper = true) : (append.run [a, .nil]).GiveEqual (pure a) s
  reverse_chain {a : Value} {xs : List Value} (ha : a.IsChain xs none) :
    (reverse.run [a]).GivesChain s xs.reverse none
  reverse_append {a b : Value} (ha : a.isProper = true) (hb : b.isProper = true) :
    GiveEqual (do let v ← append.run [a, b]; reverse.run [v])
      (do let v ← reverse.run [b]; let w ← reverse.run [a]; append.run [v, w]) s
  reverse_reverse {a : Value} (ha : a.isProper = true) :
    GiveEqual (do let v ← reverse.run [a]; reverse.run [v]) (pure a) s
  /-- The index of `list-tail` is a number of places up to all of them. -/
  listTail_succeeds_iff {l : Value} {xs : List Value} {last : Option Atom} (hlist : l.isList = true)
    (hl : l.IsChain xs last) (k : Int) : (listTail.run [l, .int k]).Succeeds s ↔ 0 ≤ k ∧ k ≤ xs.length
  /-- It does what so many calls of `cdr` do. -/
  listTail_tails {l : Value} {xs : List Value} {last : Option Atom} (hlist : l.isList = true)
    (hl : l.IsChain xs last) {k : Nat} (hk : k ≤ xs.length) :
    listTail.run [l, .int k] s = tails k l s ∧ (listTail.run [l, .int k]).GivesChain s (xs.drop k) last
  /-- After all places comes the bare end of a dotted list. -/
  listTail_bare {l : Value} {xs : List Value} {a : Atom} (hlist : l.isList = true) (hl : l.IsChain xs (some a)) :
    ∃ s', listTail.run [l, .int xs.length] s = .ok (.atom a) s'
  /-- The index of `list-ref` is the place of an item. -/
  listRef_succeeds_iff {l : Value} {xs : List Value} {last : Option Atom} (hlist : l.isList = true)
    (hl : l.IsChain xs last) (k : Int) : (listRef.run [l, .int k]).Succeeds s ↔ 0 ≤ k ∧ k < xs.length
  /-- It gives the very head of what is left after so many places. -/
  listRef_head {l : Value} {xs : List Value} {last : Option Atom} (hlist : l.isList = true)
    (hl : l.IsChain xs last) {k : Nat} (hk : k < xs.length) :
    ∃ x s', listRef.run [l, .int k] s = .ok x s ∧
      (do let w ← listTail.run [l, .int k]; car.run [w] : Action Value) s = .ok x s'
  /-- The items before a place, appended to what is left after it, are the list. -/
  parts {l : Value} {xs : List Value} {last : Option Atom} (hlist : l.isList = true)
    (hl : l.IsChain xs last) {k : Nat} (hk : k ≤ xs.length) :
    GiveEqual (do
        let front ← list.run (xs.take k)
        let back ← listTail.run [l, .int k]
        append.run [front, back])
      (pure l) s
  /-- Proper lists, the chains that end in the empty list, have a length. -/
  length_succeeds_iff (v : Value) : (length.run [v]).Succeeds s ↔ ∃ xs, v.IsChain xs none
  /-- The length is the number of tails that lead to the empty list. -/
  length_eq_iff (v : Value) (n : Nat) :
    (∃ s', length.run [v] s = .ok (.int n) s') ↔ ∃ s', tails n v s = .ok .nil s'
  /-- No list procedure changes an argument or anything else; the next identity moves on at most. -/
  takesObjects (op : ListOp) (args : List Value) : ∃ next, (op.run args).after s = { s with nextObject := next }

/-- The list procedures do what they are told to do on chains of pairs. -/
theorem followsChains (s : Store) : FollowsChains s where
  append_chains hfronts hz := append_givesChain hfronts hz s
  append_empty := by
    intro fronts hempty z
    have hrun := run_append_of_nils s hempty z
    refine ⟨GivesChain.giveEqual ⟨_, _, hrun, isChain_assemble _ _ _⟩ (.of_isChain z.isChain_self s),
      fun hz => ?_⟩
    cases z with
    | atom a | nil => exact ⟨_, hrun⟩
    | list id head rest last => cases hz
  append_assoc ha hb c := append_assoc_giveEqual s ha hb c
  nil_append z := (append_two_givesChain .nil z.isChain_self s).giveEqual (.of_isChain z.isChain_self s)
  append_nil ha := append_nil_giveEqual s ha
  reverse_chain ha := reverse_givesChain ha s
  reverse_append ha hb := reverse_append_giveEqual s ha hb
  reverse_reverse ha := reverse_reverse_giveEqual s ha
  listTail_succeeds_iff hlist hl k := (isChain_iff.mp hl).1 ▸ run_listTail_succeeds_iff hlist k s
  listTail_tails := by
    intro l xs last hlist hl k hk
    obtain ⟨rfl, rfl⟩ := isChain_iff.mp hl
    exact ⟨run_listTail_eq_tails hlist hk s, run_listTail hlist hk s⟩
  listTail_bare hlist hl := run_listTail_bare s hlist hl
  listRef_succeeds_iff hlist hl k := (isChain_iff.mp hl).1 ▸ run_listRef_succeeds_iff s hlist k
  listRef_head hlist hl _ hk := run_listRef_head s hlist ((isChain_iff.mp hl).1 ▸ hk)
  parts := by
    intro l xs last hlist hl k hk
    obtain ⟨rfl, rfl⟩ := isChain_iff.mp hl
    exact append_parts_giveEqual s hlist hk
  length_succeeds_iff v := run_length_succeeds_iff s v
  length_eq_iff v n := run_length_eq_iff s v n
  takesObjects op args := run_takesObjects op args s

end ListOp

end Lisplet
