import Lisplet.Action
import Lisplet.Proofs.Comparison
import Lisplet.Proofs.Outcomes
import Lisplet.Proofs.WrittenForm

/-!
# Copies of values

Making a value of a datum changes nothing that exists: strings are added, and a value keeps its datum when
strings are added. A value whose atoms are readable is equal to every value of the same datum, so a value
that is made of its datum is an equal copy.
-/

namespace Lisplet

/-! ### Stores with more strings -/

/-- A store that holds all the strings of another one, under the same names. -/
def Store.Keeps (s s' : Store) : Prop := ∃ more, s'.buffers = s.buffers ++ more

theorem Store.Keeps.refl (s : Store) : s.Keeps s := ⟨#[], by simp⟩

theorem Store.Keeps.trans {s s' s'' : Store} (h : s.Keeps s') (h' : s'.Keeps s'') : s.Keeps s'' := by
  obtain ⟨more, he⟩ := h
  obtain ⟨more', he'⟩ := h'
  exact ⟨more ++ more', by rw [he', he, Array.append_assoc]⟩

theorem Store.Keeps.content {s s' : Store} (h : s.Keeps s') {buffer : BufferId}
    (hb : buffer < s.buffers.size) : s'.content buffer = s.content buffer := by
  obtain ⟨more, he⟩ := h
  rw [Store.content, Store.content, he, Array.getElem?_append_left hb]

/-- A store that differs by added strings and the next identity only. -/
def Store.Adds (s s' : Store) : Prop :=
  ∃ more next, s' = { s with buffers := s.buffers ++ more, nextObject := next }

theorem Store.Adds.refl (s : Store) : s.Adds s := ⟨#[], s.nextObject, by simp⟩

theorem Store.Adds.trans {s s' s'' : Store} (h : s.Adds s') (h' : s'.Adds s'') : s.Adds s'' := by
  obtain ⟨more, next, rfl⟩ := h
  obtain ⟨more', next', rfl⟩ := h'
  exact ⟨more ++ more', next', by simp only [Array.append_assoc]⟩

theorem Store.Adds.keeps {s s' : Store} (h : s.Adds s') : s.Keeps s' := by
  obtain ⟨more, next, rfl⟩ := h
  exact ⟨more, rfl⟩

/-- A readable atom keeps its datum when strings are added. -/
theorem Store.Keeps.atomDatum {s s' : Store} (h : s.Keeps s') {a : Atom} (ha : a.IsReadable s) :
    s'.atomDatum a = s.atomDatum a := by
  cases a with
  | str buffer => rw [Store.atomDatum, Store.atomDatum, h.content ha]
  | int | bool | sym | char => rfl
  | _ => exact ha.elim

theorem Store.Keeps.atomIsReadable {s s' : Store} (h : s.Keeps s') {a : Atom} (ha : a.IsReadable s) :
    a.IsReadable s' := by
  cases a with
  | str buffer =>
    obtain ⟨more, he⟩ := h
    have hb : buffer < s.buffers.size := ha
    have hsize : s'.buffers.size = s.buffers.size + more.size := by rw [he, Array.size_append]
    exact Nat.lt_of_lt_of_le hb (hsize ▸ Nat.le_add_right _ _)
  | int | bool | sym | char => exact ha
  | _ => exact ha.elim

mutual

/-- A readable value keeps its datum when strings are added. -/
theorem Store.Keeps.datum {s s' : Store} (h : s.Keeps s') : ∀ {v : Value}, v.IsReadable s →
    s'.datum v = s.datum v
  | .atom _, ha => h.atomDatum ha
  | .nil, _ => rfl
  | .list _ head rest last, ⟨_, hhead, hrest, hlast⟩ => by
    have hend : s'.endingDatum last = s.endingDatum last := by
      cases last with
      | none => rfl
      | some a => exact h.atomDatum (hlast a rfl)
    rw [Store.datum_list, Store.datum_list, Store.rowDatum_eq_ofItems, Store.rowDatum_eq_ofItems,
      h.datum hhead, h.rowData hrest, hend]

theorem Store.Keeps.rowData {s s' : Store} (h : s.Keeps s') : ∀ {vs : List Value},
    Value.RowIsReadable s vs → vs.map s'.datum = vs.map s.datum
  | [], _ => rfl
  | v :: vs, ⟨hv, hvs⟩ => by rw [List.map_cons, List.map_cons, h.datum hv, h.rowData hvs]

end

mutual

/-- A readable value stays readable when strings are added. -/
theorem Store.Keeps.isReadable {s s' : Store} (h : s.Keeps s') : ∀ {v : Value}, v.IsReadable s →
    v.IsReadable s'
  | .atom _, ha => h.atomIsReadable ha
  | .nil, _ => trivial
  | .list _ _ _ _, ⟨hmerge, hhead, hrest, hlast⟩ =>
    ⟨hmerge, h.isReadable hhead, h.rowIsReadable hrest, fun a ha => h.atomIsReadable (hlast a ha)⟩

theorem Store.Keeps.rowIsReadable {s s' : Store} (h : s.Keeps s') : ∀ {vs : List Value},
    Value.RowIsReadable s vs → Value.RowIsReadable s' vs
  | [], _ => trivial
  | _ :: _, ⟨hv, hvs⟩ => ⟨h.isReadable hv, h.rowIsReadable hvs⟩

end

/-! ### Values of the same datum -/

/-- A readable atom is equal to every atom of the same datum. -/
theorem Atom.equal_of_datum_eq {s : Store} {a b : Atom} (ha : a.IsReadable s)
    (h : s.atomDatum a = s.atomDatum b) : Atom.equal s.content a b = true := by
  cases a <;> first | exact ha.elim | skip
  all_goals cases b <;> simp_all [Store.atomDatum, Atom.equal, Atom.equivalent]

/-- The datum of an atom is no list. -/
theorem Store.atomDatum_ne_nil (s : Store) (a : Atom) : s.atomDatum a ≠ .nil := by
  cases a <;> simp [Store.atomDatum]

theorem Store.atomDatum_ne_pair (s : Store) (a : Atom) (d e : Datum) : s.atomDatum a ≠ .pair d e := by
  cases a <;> simp [Store.atomDatum]

theorem Store.endingDatum_ne_pair (s : Store) (last : Option Atom) (d e : Datum) :
    s.endingDatum last ≠ .pair d e := by
  cases last with
  | none => simp [Store.endingDatum]
  | some a => exact s.atomDatum_ne_pair a d e

/-- Readable endings of the same datum are equal atoms, or both are the empty list. -/
theorem Store.ending_cases {s : Store} {last last' : Option Atom} (hlast : ∀ a ∈ last, a.IsReadable s)
    (h : s.endingDatum last = s.endingDatum last') :
    last = none ∧ last' = none ∨
      ∃ a b, last = some a ∧ last' = some b ∧ Atom.equal s.content a b = true := by
  cases last with
  | none =>
    cases last' with
    | none => exact Or.inl ⟨rfl, rfl⟩
    | some b => exact absurd h.symm (s.atomDatum_ne_nil b)
  | some a =>
    cases last' with
    | none => exact absurd h (s.atomDatum_ne_nil a)
    | some b => exact Or.inr ⟨a, b, rfl, rfl, Atom.equal_of_datum_eq (hlast a rfl) h⟩

mutual

/-- A readable value is equal to every value of the same datum. -/
theorem Value.compareSpec_of_datum_eq (s : Store) : ∀ v w : Value, v.IsReadable s →
    s.datum v = s.datum w → Value.compareSpec (Value.alike s.content) v w = true
  | .atom a, .atom b, ha, h => Atom.equal_of_datum_eq ha h
  | .atom a, .nil, _, h => absurd h (s.atomDatum_ne_nil a)
  | .atom a, .list .., _, h => by
    rw [Store.datum_list] at h
    exact absurd h (s.atomDatum_ne_pair a _ _)
  | .nil, .atom b, _, h => absurd h.symm (s.atomDatum_ne_nil b)
  | .nil, .nil, _, _ => rfl
  | .nil, .list .., _, h => by
    rw [Store.datum_list] at h
    simp [Store.datum] at h
  | .list .., .atom b, _, h => by
    rw [Store.datum_list] at h
    exact absurd h.symm (s.atomDatum_ne_pair b _ _)
  | .list .., .nil, _, h => by
    rw [Store.datum_list] at h
    simp [Store.datum] at h
  | .list _ head rest last, .list _ head' rest' last', ⟨_, hhead, hrest, hlast⟩, h => by
    rw [Store.datum_list, Store.datum_list, Datum.pair.injEq] at h
    obtain ⟨hrow, hend⟩ := Value.compareRow_of_datum_eq s rest rest' hrest h.2
    have hhead := Value.compareSpec_of_datum_eq s head head' hhead h.1
    rcases Store.ending_cases hlast hend with ⟨rfl, rfl⟩ | ⟨a, b, rfl, rfl, hab⟩
    · rw [Value.compareSpec, hhead, hrow]
      rfl
    · rw [Value.compareSpec, hhead, hrow]
      exact hab

/-- Readable rows of the same data are equal one by one, and end in the same datum. -/
theorem Value.compareRow_of_datum_eq (s : Store) : ∀ vs ws : List Value, Value.RowIsReadable s vs →
    ∀ {last last' : Option Atom}, s.rowDatum vs (s.endingDatum last) = s.rowDatum ws (s.endingDatum last') →
    Value.compareRow (Value.alike s.content) vs ws = true ∧ s.endingDatum last = s.endingDatum last'
  | [], [], _, _, _, h => ⟨rfl, h⟩
  | [], _ :: _, _, _, _, h => absurd h (s.endingDatum_ne_pair _ _ _)
  | _ :: _, [], _, _, _, h => absurd h.symm (s.endingDatum_ne_pair _ _ _)
  | v :: vs, w :: ws, ⟨hv, hvs⟩, _, _, h => by
    rw [Store.rowDatum, Store.rowDatum, Datum.pair.injEq] at h
    obtain ⟨hrow, hend⟩ := Value.compareRow_of_datum_eq s vs ws hvs h.2
    have hhead := Value.compareSpec_of_datum_eq s v w hv h.1
    exact ⟨by rw [Value.compareRow, hhead, hrow]; rfl, hend⟩

end

/-- A readable value is equal to every value of the same datum. -/
theorem Value.equal_of_datum_eq {s : Store} {v w : Value} (hv : v.IsReadable s)
    (h : s.datum v = s.datum w) : Value.equal s.content v w = true := by
  rw [Value.equal, Value.comparePending_eq_all, List.all_cons,
    Value.compareSpec_of_datum_eq s v w hv h]
  rfl

/-! ### Values made of data -/

/-- A datum with no number but integers, and nothing that cannot be read. -/
def Datum.IsExact : Datum → Prop
  | .float _ | .nan _ | .unreadable _ => False
  | .pair head tail => head.IsExact ∧ tail.IsExact
  | _ => True

theorem Atom.IsReadable.isExact {s : Store} {a : Atom} (h : a.IsReadable s) :
    (s.atomDatum a).IsExact := by
  cases a <;> first | exact h.elim | trivial

mutual

theorem Value.IsReadable.isExact {s : Store} : ∀ {v : Value}, v.IsReadable s → (s.datum v).IsExact
  | .atom _, h => Atom.IsReadable.isExact h
  | .nil, _ => trivial
  | .list _ head rest last, ⟨_, hhead, hrest, hlast⟩ => by
    rw [Store.datum_list]
    refine ⟨hhead.isExact, Value.RowIsReadable.isExact hrest ?_⟩
    cases last with
    | none => trivial
    | some a => exact Atom.IsReadable.isExact (hlast a rfl)

theorem Value.RowIsReadable.isExact {s : Store} {last : Datum} : ∀ {vs : List Value},
    Value.RowIsReadable s vs → last.IsExact → (s.rowDatum vs last).IsExact
  | [], _, h => h
  | _ :: _, ⟨hv, hvs⟩, h => ⟨hv.isExact, Value.RowIsReadable.isExact hvs h⟩

end

theorem Store.datum_cons (s : Store) (id : ObjectId) (head tail : Value) :
    s.datum (.cons id head tail) = .pair (s.datum head) (s.datum tail) := by
  rw [Value.cons, Store.datum_list]
  cases tail with
  | atom a => rfl
  | nil => rfl
  | list _ _ _ _ => rw [Store.datum_list]; rfl

/-- The external form of the value that a datum is made into: a NaN has no sign left, and what nothing
spells is made into the unspecified value. -/
def Datum.made : Datum → Datum
  | .nan _ => .float (0.0 / 0.0)
  | .unreadable _ => .unreadable "#<void>"
  | .pair head tail => .pair head.made tail.made
  | d => d

theorem Datum.IsExact.made_eq {d : Datum} (h : d.IsExact) : d.made = d := by
  induction d with
  | pair head tail ih ih' => rw [Datum.made, ih h.1, ih' h.2]
  | nan | unreadable => exact h.elim
  | _ => rfl

/-- The values that a datum may be made into, in a store that holds the strings: floats and lists have any
identities, but the two NaNs with a name are one object each. -/
inductive Store.Makes (s : Store) : Datum → Value → Prop
  | int (n : Int) : Makes s (.int n) (.int n)
  | float (x : Float) (id : ObjectId) : Makes s (.float x) (.atom (.float x id))
  | nan (negative : Bool) : Makes s (.nan negative)
      (.atom (.float (0.0 / 0.0) (if negative then negativeNan else positiveNan)))
  | bool (b : Bool) : Makes s (.bool b) (.bool b)
  | char (c : CodePoint) : Makes s (.char c) (.char c)
  | str {buffer : BufferId} {t : Text} : s.content buffer = t → Makes s (.str t) (.str buffer)
  | sym (name : Text) : Makes s (.sym name) (.sym name)
  | nil : Makes s .nil .nil
  | pair {head tail : Datum} {v w : Value} (id : ObjectId) : Makes s head v → Makes s tail w →
      Makes s (.pair head tail) (.cons id v w)
  | unreadable (shown : Text) : Makes s (.unreadable shown) .void

/-- The external form of a value that is made of a datum. -/
theorem Store.Makes.datum_eq {s : Store} {d : Datum} {v : Value} (h : s.Makes d v) :
    s.datum v = d.made := by
  induction h with
  | str hcontent => exact congrArg Datum.str hcontent
  | pair id _ _ ih ih' => rw [Store.datum_cons, ih, ih', Datum.made]
  | _ => rfl

namespace Action

theorem newString_adds (t : Text) (s : Store) :
    ∃ s', newString t s = .ok (.str s.buffers.size) s' ∧ s.Adds s' ∧
      ∀ s'' : Store, s'.Keeps s'' → s''.content s.buffers.size = t := by
  refine ⟨_, rfl, ⟨#[t], s.nextObject, by simp⟩, ?_⟩
  rintro s'' ⟨more, he⟩
  rw [Store.content, he]
  simp [Array.getElem?_append]

/-- A new identity is one more. -/
theorem adds_nextObject (s : Store) : s.Adds { s with nextObject := s.nextObject + 1 } :=
  ⟨#[], s.nextObject + 1, by simp⟩

/-- Making a value of a datum adds strings and changes nothing else but the next identity. The value stays
one that the datum may be made into when more strings are added. -/
theorem instantiate_makes (d : Datum) (s : Store) :
    ∃ w s', instantiate d s = .ok w s' ∧ s.Adds s' ∧ ∀ s'' : Store, s'.Keeps s'' → s''.Makes d w := by
  induction d generalizing s with
  | int n => exact ⟨_, s, rfl, .refl s, fun _ _ => .int n⟩
  | float x => exact ⟨_, _, rfl, adds_nextObject s, fun _ _ => .float x s.nextObject⟩
  | nan negative => exact ⟨_, s, rfl, .refl s, fun _ _ => .nan negative⟩
  | bool b => exact ⟨_, s, rfl, .refl s, fun _ _ => .bool b⟩
  | char c => exact ⟨_, s, rfl, .refl s, fun _ _ => .char c⟩
  | sym name => exact ⟨_, s, rfl, .refl s, fun _ _ => .sym name⟩
  | nil => exact ⟨_, s, rfl, .refl s, fun _ _ => .nil⟩
  | unreadable shown => exact ⟨_, s, rfl, .refl s, fun _ _ => .unreadable shown⟩
  | str t =>
    obtain ⟨s', hnew, hadds, hcontent⟩ := newString_adds t s
    exact ⟨_, s', hnew, hadds, fun s'' hkeeps => .str (hcontent s'' hkeeps)⟩
  | pair head tail ih ih' =>
    obtain ⟨v, s₁, hv, hadds, hmakes⟩ := ih s
    obtain ⟨w, s₂, hw, hadds', hmakes'⟩ := ih' s₁
    have hnext := adds_nextObject s₂
    refine ⟨.cons s₂.nextObject v w, _, ?_, (hadds.trans hadds').trans hnext, ?_⟩
    · rw [instantiate, bind_of_ok hv, bind_of_ok hw]
      rfl
    · intro s'' hkeeps
      -- Later strings keep what is made of the head and of the tail, in the order in which they are made.
      have hkeeps₂ := hnext.keeps.trans hkeeps
      exact .pair s₂.nextObject (hmakes s'' (hadds'.keeps.trans hkeeps₂)) (hmakes' s'' hkeeps₂)

/-- Making a value of a datum adds strings and changes nothing else but the next identity. The value keeps
that datum when more strings are added. -/
theorem instantiate_spec {d : Datum} (hd : d.IsExact) (s : Store) :
    ∃ w s', instantiate d s = .ok w s' ∧ s.Adds s' ∧
      ∀ s'' : Store, s'.Keeps s'' → s''.datum w = d := by
  obtain ⟨w, s', hw, hadds, hmakes⟩ := instantiate_makes d s
  exact ⟨w, s', hw, hadds, fun s'' hkeeps => (hmakes s'' hkeeps).datum_eq.trans hd.made_eq⟩

end Action

end Lisplet
