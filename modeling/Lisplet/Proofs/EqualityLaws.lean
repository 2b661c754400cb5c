import Lisplet.Proofs.Comparison
import Lisplet.Proofs.FloatEquality

/-!
# Laws of equality

Whatever tests a comparison makes of atoms and identities, it is reflexive, symmetric or transitive if they
are, and it follows from a comparison whose tests are narrower. Equivalence and equality are equivalence
relations for that reason, and equivalent values are equal. `Value.structurallyEqual` defines equality without
any list of pairs still to do. Strict equality of lists is a recursion of its own, cell by cell with a test of
classes; it is the comparison whose atoms agree strictly, and so it is equality as long as the lists hold no NaN.
-/

namespace Lisplet

namespace Value

/-! ### Comparisons by what they test -/

/-- Two lists compare as their identities, their first items, their rows and their endings. -/
theorem compareSpec_list_iff {c : Comparison} {i j : ObjectId} {v w : Value} {vs ws : List Value}
    {last last' : Option Atom} :
    compareSpec c (.list i v vs last) (.list j w ws last') = true ↔
      c.objects i j = true ∧ compareSpec c v w = true ∧ compareRow c vs ws = true ∧
        Option.Rel (fun a b => c.atoms a b = true) last last' := by
  cases last <;> cases last' <;> simp [compareSpec, and_assoc]

mutual

/-- A comparison whose tests accept everything with itself accepts every value with itself. -/
theorem compareSpec_refl {c : Comparison} (hatoms : ∀ a, c.atoms a a = true)
    (hobjects : ∀ i, c.objects i i = true) : ∀ v : Value, compareSpec c v v = true
  | .atom a => hatoms a
  | .nil => rfl
  | .list i head rest last => by
    have hlast : Option.Rel (fun a b => c.atoms a b = true) last last := by
      cases last with
      | none => exact .none
      | some a => exact .some (hatoms a)
    exact compareSpec_list_iff.mpr ⟨hobjects i, compareSpec_refl hatoms hobjects head,
      compareRow_refl hatoms hobjects rest, hlast⟩

theorem compareRow_refl {c : Comparison} (hatoms : ∀ a, c.atoms a a = true)
    (hobjects : ∀ i, c.objects i i = true) : ∀ vs : List Value, compareRow c vs vs = true
  | [] => rfl
  | v :: vs => by
    rw [compareRow, compareSpec_refl hatoms hobjects v, compareRow_refl hatoms hobjects vs]
    rfl

end

mutual

/-- A comparison whose tests do not mind the order does not either. -/
theorem compareSpec_symm {c : Comparison} (hatoms : ∀ {a b}, c.atoms a b = true → c.atoms b a = true)
    (hobjects : ∀ {i j}, c.objects i j = true → c.objects j i = true) : ∀ {v w : Value},
    compareSpec c v w = true → compareSpec c w v = true
  | .atom _, .atom _, h => hatoms h
  | .nil, .nil, _ => rfl
  | .list _ _ _ last, .list _ _ _ last', h => by
    obtain ⟨hid, hhead, hrest, hlast⟩ := compareSpec_list_iff.mp h
    have hlast' : Option.Rel (fun a b => c.atoms a b = true) last' last := by
      cases hlast with
      | none => exact .none
      | some hab => exact .some (hatoms hab)
    exact compareSpec_list_iff.mpr ⟨hobjects hid, compareSpec_symm hatoms hobjects hhead,
      compareRow_symm hatoms hobjects hrest, hlast'⟩
  | .atom _, .nil, h | .atom _, .list .., h | .nil, .atom _, h | .nil, .list .., h
  | .list .., .atom _, h | .list .., .nil, h => nomatch h

theorem compareRow_symm {c : Comparison} (hatoms : ∀ {a b}, c.atoms a b = true → c.atoms b a = true)
    (hobjects : ∀ {i j}, c.objects i j = true → c.objects j i = true) : ∀ {vs ws : List Value},
    compareRow c vs ws = true → compareRow c ws vs = true
  | [], [], _ => rfl
  | v :: vs, w :: ws, h => by
    rw [compareRow, Bool.and_eq_true] at h ⊢
    exact ⟨compareSpec_symm hatoms hobjects h.1, compareRow_symm hatoms hobjects h.2⟩
  | [], _ :: _, h | _ :: _, [], h => nomatch h

end

mutual

/-- A comparison whose tests may be chained may be chained. -/
theorem compareSpec_trans {c : Comparison}
    (hatoms : ∀ {a b d}, c.atoms a b = true → c.atoms b d = true → c.atoms a d = true)
    (hobjects : ∀ {i j k}, c.objects i j = true → c.objects j k = true → c.objects i k = true) :
    ∀ {u v w : Value}, compareSpec c u v = true → compareSpec c v w = true → compareSpec c u w = true
  | .atom _, .atom _, .atom _, h, h' => hatoms h h'
  | .nil, .nil, .nil, _, _ => rfl
  | .list _ _ _ last, .list _ _ _ last', .list _ _ _ last'', h, h' => by
    obtain ⟨hid, hhead, hrest, hlast⟩ := compareSpec_list_iff.mp h
    obtain ⟨hid', hhead', hrest', hlast'⟩ := compareSpec_list_iff.mp h'
    have hends : Option.Rel (fun a b => c.atoms a b = true) last last'' := by
      cases hlast with
      | none => exact hlast'
      | some hab =>
        cases hlast' with
        | some hbd => exact .some (hatoms hab hbd)
    exact compareSpec_list_iff.mpr ⟨hobjects hid hid', compareSpec_trans hatoms hobjects hhead hhead',
      compareRow_trans hatoms hobjects hrest hrest', hends⟩
  | .atom _, .nil, _, h, _ | .atom _, .list .., _, h, _ | .nil, .atom _, _, h, _
  | .nil, .list .., _, h, _ | .list .., .atom _, _, h, _ | .list .., .nil, _, h, _ => nomatch h
  | _, .atom _, .nil, _, h | _, .atom _, .list .., _, h | _, .nil, .atom _, _, h
  | _, .nil, .list .., _, h | _, .list .., .atom _, _, h | _, .list .., .nil, _, h => nomatch h

theorem compareRow_trans {c : Comparison}
    (hatoms : ∀ {a b d}, c.atoms a b = true → c.atoms b d = true → c.atoms a d = true)
    (hobjects : ∀ {i j k}, c.objects i j = true → c.objects j k = true → c.objects i k = true) :
    ∀ {us vs ws : List Value}, compareRow c us vs = true → compareRow c vs ws = true →
      compareRow c us ws = true
  | [], [], [], _, _ => rfl
  | u :: us, v :: vs, w :: ws, h, h' => by
    rw [compareRow, Bool.and_eq_true] at h h' ⊢
    exact ⟨compareSpec_trans hatoms hobjects h.1 h'.1, compareRow_trans hatoms hobjects h.2 h'.2⟩
  | [], _ :: _, _, h, _ | _ :: _, [], _, h, _ => nomatch h
  | _, [], _ :: _, _, h | _, _ :: _, [], _, h => nomatch h

end

mutual

/-- What a comparison accepts, every comparison accepts whose tests are wider on the atoms at hand. -/
theorem compareSpec_imp {c c' : Comparison} {p : Atom → Prop}
    (hatoms : ∀ {a b}, p a → c.atoms a b = true → c'.atoms a b = true)
    (hobjects : ∀ {i j}, c.objects i j = true → c'.objects i j = true) : ∀ {v w : Value},
    Everywhere p v → compareSpec c v w = true → compareSpec c' v w = true
  | .atom _, .atom _, hp, h => hatoms hp h
  | .nil, .nil, _, _ => rfl
  | .list _ _ _ last, .list _ _ _ last', ⟨hphead, hprest, hplast⟩, h => by
    obtain ⟨hid, hhead, hrest, hlast⟩ := compareSpec_list_iff.mp h
    have hlast' : Option.Rel (fun a b => c'.atoms a b = true) last last' := by
      cases hlast with
      | none => exact .none
      | some hab => exact .some (hatoms (hplast _ rfl) hab)
    exact compareSpec_list_iff.mpr ⟨hobjects hid, compareSpec_imp hatoms hobjects hphead hhead,
      compareRow_imp hatoms hobjects hprest hrest, hlast'⟩
  | .atom _, .nil, _, h | .atom _, .list .., _, h | .nil, .atom _, _, h | .nil, .list .., _, h
  | .list .., .atom _, _, h | .list .., .nil, _, h => nomatch h

theorem compareRow_imp {c c' : Comparison} {p : Atom → Prop}
    (hatoms : ∀ {a b}, p a → c.atoms a b = true → c'.atoms a b = true)
    (hobjects : ∀ {i j}, c.objects i j = true → c'.objects i j = true) : ∀ {vs ws : List Value},
    EverywhereInRow p vs → compareRow c vs ws = true → compareRow c' vs ws = true
  | [], [], _, _ => rfl
  | v :: vs, w :: ws, ⟨hpv, hpvs⟩, h => by
    rw [compareRow, Bool.and_eq_true] at h ⊢
    exact ⟨compareSpec_imp hatoms hobjects hpv h.1, compareRow_imp hatoms hobjects hpvs h.2⟩
  | [], _ :: _, _, h | _ :: _, [], _, h => nomatch h

end

/-- Comparing one pair is comparing by recursion. -/
theorem comparePending_single (c : Comparison) (v w : Value) :
    comparePending c [(v, w)] = compareSpec c v w := by
  simp [comparePending_eq_all]

end Value

/-! ### The tests of atoms -/

namespace Atom

theorem equivalent_refl (a : Atom) : a.equivalent a = true := by
  cases a <;> simp [equivalent, floatEquivalent_refl]

/-- Equivalent atoms are two floats, or one and the same atom. -/
theorem equivalent_cases {a b : Atom} (h : a.equivalent b = true) :
    a = b ∨ ∃ x i y j, a = .float x i ∧ b = .float y j ∧ floatEquivalent x i y j = true := by
  unfold equivalent at h
  split at h
  case h_2 x i y j => exact Or.inr ⟨x, i, y, j, rfl, rfl, h⟩
  all_goals simp_all

theorem equivalent_symm {a b : Atom} (h : a.equivalent b = true) : b.equivalent a = true := by
  rcases equivalent_cases h with rfl | ⟨x, i, y, j, rfl, rfl, hxy⟩
  · exact h
  · exact floatEquivalent_symm hxy

/-- Two atoms are one object only if they are the same atom. -/
theorem same_iff {a b : Atom} : a.same b = true ↔ a = b := by
  constructor
  · intro h
    unfold same at h
    split at h
    · simp_all [Float.toBits_inj]
    · rename_i hfloat
      rcases equivalent_cases h with rfl | ⟨x, i, y, j, rfl, rfl, -⟩
      · rfl
      · exact (hfloat x i y j rfl rfl).elim
  · rintro rfl
    cases a <;> simp [same, equivalent_refl]

theorem equivalent_trans {a b c : Atom} (h : a.equivalent b = true) (h' : b.equivalent c = true) :
    a.equivalent c = true := by
  rcases equivalent_cases h with rfl | ⟨x, i, y, j, rfl, rfl, hxy⟩
  · exact h'
  · rcases equivalent_cases h' with rfl | ⟨x', i', z, k, hy, rfl, hyz⟩
    · exact h
    · cases hy
      exact floatEquivalent_trans hxy hyz

/-- Equal atoms are strings of the same content, or equivalent atoms. -/
theorem equal_cases {content : BufferId → Text} {a b : Atom} (h : a.equal content b = true) :
    (∃ i j, a = .str i ∧ b = .str j ∧ content i = content j) ∨ a.equivalent b = true := by
  unfold equal at h
  split at h
  · exact Or.inl ⟨_, _, rfl, rfl, of_decide_eq_true h⟩
  · exact Or.inr h

/-- Equivalent atoms are equal. -/
theorem equal_of_equivalent {content : BufferId → Text} {a b : Atom} (h : a.equivalent b = true) :
    a.equal content b = true := by
  unfold equal
  split
  · exact decide_eq_true (congrArg content (beq_iff_eq.mp h))
  · exact h

theorem equal_refl (content : BufferId → Text) (a : Atom) : a.equal content a = true :=
  equal_of_equivalent a.equivalent_refl

theorem equal_symm {content : BufferId → Text} {a b : Atom} (h : a.equal content b = true) :
    b.equal content a = true := by
  rcases equal_cases h with ⟨i, j, rfl, rfl, hij⟩ | h
  · exact decide_eq_true hij.symm
  · exact equal_of_equivalent (equivalent_symm h)

theorem equal_trans {content : BufferId → Text} {a b c : Atom} (h : a.equal content b = true)
    (h' : b.equal content c = true) : a.equal content c = true := by
  rcases equal_cases h with ⟨i, j, rfl, rfl, hij⟩ | h
  · rcases equal_cases h' with ⟨j', k, hj, rfl, hjk⟩ | h'
    · cases hj
      exact decide_eq_true (hij.trans hjk)
    · rcases equivalent_cases h' with rfl | ⟨_, _, _, _, hj, -, -⟩
      · exact decide_eq_true hij
      · cases hj
  · rcases equivalent_cases h with rfl | ⟨x, i, y, j, rfl, rfl, hxy⟩
    · exact h'
    · rcases equal_cases h' with ⟨_, _, hy, -, -⟩ | h'
      · cases hy
      · exact equal_of_equivalent (equivalent_trans h h')

/-- Whether an atom is a NaN. -/
def isNaN : Atom → Bool
  | .float x _ => x.isNaN
  | _ => false

/-- Equal atoms are of one class. -/
theorem classOf_eq_of_equal {content : BufferId → Text} {a b : Atom} (h : a.equal content b = true) :
    a.classOf = b.classOf := by
  rcases equal_cases h with ⟨_, _, rfl, rfl, -⟩ | h
  · rfl
  · rcases equivalent_cases h with rfl | ⟨_, _, _, _, rfl, rfl, -⟩ <;> rfl

/-- Two floats are strictly equal as numbers, and not as objects. -/
theorem strictlyEqual_float (content : BufferId → Text) (x y : Float) (i j : ObjectId) :
    (float x i).strictlyEqual content (.float y j) = (x == y) := rfl

/-- In a class of its own, agreement in value is equality, except among floats. -/
theorem strictlyEqual_eq_equal {content : BufferId → Text} {a b : Atom}
    (hfloat : ∀ x i y j, a = .float x i → b ≠ .float y j) :
    a.strictlyEqual content b = a.equal content b := by
  by_cases hclass : a.classOf = b.classOf
  · rw [strictlyEqual, decide_eq_true hclass, Bool.true_and]
    cases a <;> cases b <;> first | (cases hclass; done) | rfl | skip
    case float x i y j => exact absurd rfl (hfloat x i y j rfl)
    case bool a b => cases a <;> cases b <;> rfl
  · have hne : a.equal content b = false := Bool.eq_false_iff.mpr fun h => hclass (classOf_eq_of_equal h)
    rw [strictlyEqual, decide_eq_false hclass, Bool.false_and, hne]

/-- Strictly equal atoms are equal. -/
theorem equal_of_strictlyEqual {content : BufferId → Text} {a b : Atom}
    (h : a.strictlyEqual content b = true) : a.equal content b = true := by
  by_cases hfloat : ∃ x i y j, a = .float x i ∧ b = .float y j
  · obtain ⟨x, i, y, j, rfl, rfl⟩ := hfloat
    rw [strictlyEqual_float] at h
    exact Bool.or_eq_true_iff.mpr (Or.inl h)
  · rwa [strictlyEqual_eq_equal fun x i y j ha hb => hfloat ⟨x, i, y, j, ha, hb⟩] at h

/-- Equal atoms are strictly equal unless they are NaNs. -/
theorem strictlyEqual_of_equal {content : BufferId → Text} {a b : Atom} (ha : a.isNaN = false)
    (h : a.equal content b = true) : a.strictlyEqual content b = true := by
  by_cases hfloat : ∃ x i y j, a = .float x i ∧ b = .float y j
  · obtain ⟨x, i, y, j, rfl, rfl⟩ := hfloat
    rw [strictlyEqual_float]
    exact float_beq_of_floatEquivalent ha h
  · rwa [strictlyEqual_eq_equal fun x i y j ha hb => hfloat ⟨x, i, y, j, ha, hb⟩]

end Atom

/-! ### Equality without a list of pairs still to do -/

namespace Value

/-- A recursion that runs over the members of a row of pairs agrees with a comparison that runs over the row. -/
theorem all_attach_eq {pairs : List (Value × Value)} {f : {p // p ∈ pairs} → Bool} {c : Comparison}
    (h : ∀ p, f p = compareSpec c p.1.1 p.1.2) : pairs.attach.all f = pairs.all fun p => compareSpec c p.1 p.2 := by
  rw [Bool.eq_iff_iff, List.all_eq_true, List.all_eq_true]
  constructor
  · intro hall p hp
    rw [← h ⟨p, hp⟩]
    exact hall ⟨p, hp⟩ (List.mem_attach _ _)
  · intro hall p _
    rw [h p]
    exact hall p.1 p.2

/-- Equality by recursion: lists of the same length and ending cell by cell, strings by their content,
anything else by equivalence. -/
def structurallyEqual (content : BufferId → Text) (v w : Value) : Bool :=
  if v.isList && w.isList then
    v.length == w.length && v.isProper == w.isProper &&
      (v.cells.zip w.cells).attach.all fun p => structurallyEqual content p.1.1 p.1.2
  else
    match v, w with
    | .atom (.str i), .atom (.str j) => decide (content i = content j)
    | v, w => v.equivalent w
termination_by v.weight
decreasing_by
  exact Nat.lt_of_le_of_lt (weight_le_pendingWeight p.2) (pendingWeight_cells_lt v w)

/-- Comparing all the pairs still to do comes to equality by recursion. -/
theorem equal_eq_structurallyEqual (content : BufferId → Text) (v w : Value) :
    equal content v w = structurallyEqual content v w := by
  rw [equal, comparePending_single]
  fun_induction structurallyEqual content v w with
  | case1 v w hlists ih =>
    rw [Bool.and_eq_true] at hlists
    have hidentities : (alike content).identities v w = true := by
      unfold Comparison.identities
      split <;> rfl
    rw [compareSpec_eq_cells _ hlists.1 hlists.2, hidentities, Bool.true_and, sameShape,
      all_attach_eq fun p => (ih p).symm]
  | case2 i j _ => rfl
  | case3 v w hstrings hlists =>
    cases v with
    | atom a =>
      cases w with
      | atom b =>
        change a.equal content b = a.equivalent b
        unfold Atom.equal
        split
        · exact (hstrings _ _ rfl rfl).elim
        · rfl
      | nil | list => simp [compareSpec, equivalent, same, comparePending]
    | nil | list =>
      cases w with
      | atom b => simp [compareSpec, equivalent, same, comparePending]
      | nil | list => exact absurd rfl hlists

mutual

/-- Values that agree in every identity and every atom are the same value. -/
theorem eq_of_compareSpec_identical : ∀ {v w : Value}, compareSpec identical v w = true → v = w
  | .atom _, .atom _, h => congrArg atom (Atom.same_iff.mp h)
  | .nil, .nil, _ => rfl
  | .list _ _ _ last, .list _ _ _ last', h => by
    obtain ⟨hid, hhead, hrest, hlast⟩ := compareSpec_list_iff.mp h
    have hends : last = last' := by
      cases hlast with
      | none => rfl
      | some hab => exact congrArg some (Atom.same_iff.mp hab)
    rw [beq_iff_eq.mp hid, eq_of_compareSpec_identical hhead, eq_of_compareRow_identical hrest, hends]
  | .atom _, .nil, h | .atom _, .list .., h | .nil, .atom _, h | .nil, .list .., h
  | .list .., .atom _, h | .list .., .nil, h => nomatch h

theorem eq_of_compareRow_identical : ∀ {vs ws : List Value}, compareRow identical vs ws = true →
    vs = ws
  | [], [], _ => rfl
  | v :: vs, w :: ws, h => by
    rw [compareRow, Bool.and_eq_true] at h
    rw [eq_of_compareSpec_identical h.1, eq_of_compareRow_identical h.2]
  | [], _ :: _, h | _ :: _, [], h => nomatch h

end

/-- Two values are one object only if they are the same value. -/
theorem same_iff {v w : Value} : same v w = true ↔ v = w := by
  rw [same, comparePending_single]
  constructor
  · exact eq_of_compareSpec_identical
  · rintro rfl
    exact compareSpec_refl (fun a => Atom.same_iff.mpr rfl) (fun i => beq_self_eq_true i) v

/-- Equivalent values are equivalent atoms, or one and the same value. -/
theorem equivalent_iff {v w : Value} : equivalent v w = true ↔
    v = w ∨ ∃ a b, v = .atom a ∧ w = .atom b ∧ a.equivalent b = true := by
  constructor
  · intro h
    unfold equivalent at h
    split at h
    · exact Or.inr ⟨_, _, rfl, rfl, h⟩
    · exact Or.inl (same_iff.mp h)
  · rintro (rfl | ⟨a, b, rfl, rfl, h⟩)
    · unfold equivalent
      split
      · exact (Atom.equivalent_refl _)
      · exact same_iff.mpr rfl
    · exact h

theorem equivalent_refl (v : Value) : equivalent v v = true := equivalent_iff.mpr (Or.inl rfl)

theorem equivalent_symm {v w : Value} (h : equivalent v w = true) : equivalent w v = true := by
  rcases equivalent_iff.mp h with rfl | ⟨a, b, rfl, rfl, hab⟩
  · exact h
  · exact Atom.equivalent_symm hab

theorem equivalent_trans {u v w : Value} (h : equivalent u v = true) (h' : equivalent v w = true) :
    equivalent u w = true := by
  rcases equivalent_iff.mp h with rfl | ⟨a, b, rfl, rfl, hab⟩
  · exact h'
  · rcases equivalent_iff.mp h' with rfl | ⟨b', c, hb, rfl, hbc⟩
    · exact h
    · cases hb
      exact Atom.equivalent_trans hab hbc

theorem equal_refl (content : BufferId → Text) (v : Value) : equal content v v = true := by
  rw [equal, comparePending_single]
  exact compareSpec_refl (Atom.equal_refl content) (fun _ => rfl) v

theorem equal_symm {content : BufferId → Text} {v w : Value} (h : equal content v w = true) :
    equal content w v = true := by
  rw [equal, comparePending_single] at h ⊢
  exact compareSpec_symm Atom.equal_symm (fun _ => rfl) h

theorem equal_trans {content : BufferId → Text} {u v w : Value} (h : equal content u v = true)
    (h' : equal content v w = true) : equal content u w = true := by
  rw [equal, comparePending_single] at h h' ⊢
  exact compareSpec_trans Atom.equal_trans (fun _ _ => rfl) h h'

/-- Equivalent values are equal. -/
theorem equal_of_equivalent {content : BufferId → Text} {v w : Value} (h : equivalent v w = true) :
    equal content v w = true := by
  rcases equivalent_iff.mp h with rfl | ⟨a, b, rfl, rfl, hab⟩
  · exact equal_refl content v
  · rw [equal, comparePending_single]
    exact Atom.equal_of_equivalent hab

/-- Equality of shape and contents, with no NaN equal to itself. -/
def strictlyAlike (content : BufferId → Text) : Comparison :=
  ⟨Atom.strictlyEqual content, fun _ _ => true⟩

/-- Strict equality is a comparison by recursion. -/
theorem strictlyEqual_eq_compareSpec (content : BufferId → Text) (v w : Value) :
    strictlyEqual content v w = compareSpec (strictlyAlike content) v w := by
  fun_induction strictlyEqual content v w with
  | case1 a b => rfl
  | case2 w a hw =>
    cases w with
    | atom b => exact absurd rfl (hw b)
    | nil | list => rfl
  | case3 v b hv =>
    cases v with
    | atom a => exact absurd rfl (hv a)
    | nil | list => rfl
  | case4 v w _ hv hw ih =>
    have hidentities : (strictlyAlike content).identities v w = true := by
      unfold Comparison.identities
      split <;> rfl
    rw [compareSpec_eq_cells _ (isList_of_ne_atom hv) (isList_of_ne_atom hw), hidentities, Bool.true_and,
      all_attach_eq ih]

/-- Strictly equal values are equal. -/
theorem equal_of_strictlyEqual {content : BufferId → Text} {v w : Value}
    (h : strictlyEqual content v w = true) : equal content v w = true := by
  rw [strictlyEqual_eq_compareSpec] at h
  rw [equal, comparePending_single]
  exact compareSpec_imp (fun (_ : True) => Atom.equal_of_strictlyEqual) (fun _ => rfl)
    (everywhere_of_forall (fun _ => trivial) v) h

/-- Whether no NaN occurs in a value. -/
def HasNoNaN (v : Value) : Prop := v.Everywhere fun a => a.isNaN = false

/-- Equal values are strictly equal if no NaN occurs in them. -/
theorem strictlyEqual_of_equal {content : BufferId → Text} {v w : Value} (hv : v.HasNoNaN)
    (h : equal content v w = true) : strictlyEqual content v w = true := by
  rw [equal, comparePending_single] at h
  rw [strictlyEqual_eq_compareSpec]
  exact compareSpec_imp Atom.strictlyEqual_of_equal (fun _ => rfl) hv h

/-- What the notions of equality promise, and how they are related. -/
structure EqualityLaws (content : BufferId → Text) : Prop where
  /-- Equivalence is an equivalence relation. -/
  equivalence : Equivalence fun v w => equivalent v w = true
  /-- Equality is an equivalence relation. -/
  equality : Equivalence fun v w => equal content v w = true
  /-- Equivalent values are equal. -/
  equal_of_equivalent : ∀ v w, equivalent v w = true → equal content v w = true
  /-- Keeping a list of pairs still to do computes equality by recursion. -/
  equal_eq : ∀ v w, equal content v w = structurallyEqual content v w
  /-- Strictly equal lists are equal. -/
  equal_of_strictlyEqual : ∀ v w, v.isList = true → w.isList = true →
    strictlyEqual content v w = true → equal content v w = true
  /-- Equal lists are strictly equal if no NaN occurs in them. -/
  strictlyEqual_of_equal : ∀ v w, v.isList = true → w.isList = true → v.HasNoNaN → w.HasNoNaN →
    equal content v w = true → strictlyEqual content v w = true

/-- Equivalence, equality and strict equality agree as their laws say, whatever the strings hold. -/
theorem equalityLaws (content : BufferId → Text) : EqualityLaws content where
  equivalence := ⟨equivalent_refl, equivalent_symm, equivalent_trans⟩
  equality := ⟨equal_refl content, equal_symm, equal_trans⟩
  equal_of_equivalent _ _ := equal_of_equivalent
  equal_eq := equal_eq_structurallyEqual content
  equal_of_strictlyEqual _ _ _ _ := equal_of_strictlyEqual
  strictlyEqual_of_equal _ _ _ _ hv _ := strictlyEqual_of_equal hv

end Value

end Lisplet
