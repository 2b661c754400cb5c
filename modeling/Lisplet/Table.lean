import Lisplet.Text.CodePoint

/-!
# Tables by name

A table keeps entries in the order in which their names were first put. Putting a name again replaces
its entry in place.
-/

namespace Lisplet

/-- Equality of texts by the numbers of their code points. -/
def Text.same : Text → Text → Bool
  | [], [] => true
  | a :: s, b :: t => a.val == b.val && Text.same s t
  | _, _ => false

theorem Text.same_iff {s t : Text} : Text.same s t = true ↔ s = t := by
  induction s generalizing t with
  | nil => cases t <;> simp [same]
  | cons a s ih =>
    cases t with
    | nil => simp [same]
    | cons b t =>
      simp only [same, Bool.and_eq_true, beq_iff_eq, ih, List.cons.injEq]
      exact ⟨fun h => ⟨CodePoint.ext_val h.1, h.2⟩, fun h => ⟨by rw [h.1], h.2⟩⟩

theorem Text.same_self (t : Text) : Text.same t t = true := by rw [same_iff]

theorem Text.same_eq_false {s t : Text} (h : s ≠ t) : Text.same s t = false := by
  rw [Bool.eq_false_iff, ne_eq, same_iff]
  exact h

/-- Named entries in the order of their first definition. -/
abbrev Table (α : Type) := List (Text × α)

namespace Table

/-- The entry of a name. -/
def find? {α : Type} (name : Text) : Table α → Option α
  | [] => none
  | (n, a) :: more => if Text.same n name then some a else find? name more

/-- Replaces the entry of a name, or adds one at the end. -/
def put {α : Type} (name : Text) (a : α) : Table α → Table α
  | [] => [(name, a)]
  | (n, b) :: more => if Text.same n name then (n, a) :: more else (n, b) :: put name a more

/-- The names of a table in order. -/
def names {α : Type} (t : Table α) : List Text := t.map (·.1)

theorem find?_put_self {α : Type} (name : Text) (a : α) (t : Table α) :
    (t.put name a).find? name = some a := by
  induction t with
  | nil => simp [put, find?, Text.same_self]
  | cons e t ih =>
    simp only [put]
    split
    · next h => simp [find?, h]
    · next h => simpa [find?, h] using ih

theorem find?_put_of_ne {α : Type} {name other : Text} (h : other ≠ name) (a : α) (t : Table α) :
    (t.put name a).find? other = t.find? other := by
  have hne : Text.same name other = false := Text.same_eq_false h.symm
  induction t with
  | nil => simp [put, find?, hne]
  | cons e t ih =>
    simp only [put]
    split
    · next he =>
      rw [Text.same_iff] at he
      simp [find?, he, hne]
    · simp only [find?, ih]

/-- Putting keeps every name that is there. -/
theorem names_put {α : Type} (name : Text) (a : α) (t : Table α) :
    (t.put name a).names = if name ∈ t.names then t.names else t.names ++ [name] := by
  induction t with
  | nil => simp [put, names]
  | cons e t ih =>
    simp only [put]
    split
    · next he =>
      rw [Text.same_iff] at he
      simp [names, he]
    · next he =>
      rw [Text.same_iff] at he
      have hne : name ≠ e.1 := Ne.symm he
      simp only [names, List.map_cons, List.mem_cons] at ih ⊢
      rw [ih]
      simp only [hne, false_or]
      by_cases h : name ∈ List.map (fun x => x.1) t <;> simp [h]

theorem find?_cons_self {α : Type} (name : Text) (a : α) (t : Table α) :
    Table.find? name ((name, a) :: t) = some a := by
  rw [find?, if_pos (Text.same_self name)]

theorem find?_cons_of_ne {α : Type} {name other : Text} (h : other ≠ name) (a : α) (t : Table α) :
    Table.find? name ((other, a) :: t) = Table.find? name t := by
  rw [find?, Text.same_eq_false h, if_neg Bool.false_ne_true]

/-- A name that is found is one of the names. -/
theorem mem_names_of_find? {α : Type} {name : Text} {a : α} {t : Table α} (h : t.find? name = some a) :
    name ∈ t.names := by
  induction t with
  | nil => exact nomatch h
  | cons entry t ih =>
    obtain ⟨other, b⟩ := entry
    by_cases he : other = name
    · exact he ▸ List.mem_cons_self
    · rw [find?_cons_of_ne he] at h
      exact List.mem_cons_of_mem other (ih h)

/-- Where no name comes twice, every entry is found. -/
theorem find?_of_mem {α : Type} {name : Text} {a : α} {t : Table α} (hnodup : t.names.Nodup)
    (h : (name, a) ∈ t) : t.find? name = some a := by
  induction t with
  | nil => exact absurd h List.not_mem_nil
  | cons entry t ih =>
    obtain ⟨other, b⟩ := entry
    obtain ⟨hnotin, hnodup⟩ := List.nodup_cons.mp hnodup
    rcases List.mem_cons.mp h with he | h
    · obtain ⟨rfl, rfl⟩ := Prod.mk.inj he
      exact find?_cons_self name a t
    · have hmem : name ∈ Table.names t := List.mem_map.mpr ⟨(name, a), h, rfl⟩
      have hne : other ≠ name := by
        rintro rfl
        exact hnotin hmem
      rw [find?_cons_of_ne hne, ih hnodup h]

/-- What is put into a table is found, and otherwise what was there. -/
theorem find?_put_eq {α : Type} (name other : Text) (a : α) (t : Table α) :
    (t.put name a).find? other = if other = name then some a else t.find? other := by
  split
  next h => rw [h, find?_put_self]
  next h => exact find?_put_of_ne h a t

end Table

end Lisplet
