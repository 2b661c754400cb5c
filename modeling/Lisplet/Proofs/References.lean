import Lisplet.Proofs.Comparison
import Lisplet.Proofs.Faults

/-!
# References that are held

Closures and ports are referred to by identities. A value is held by a store when the closures and ports that
it refers to are in it; a store is whole when all values in it are held: those that names are bound to, the
transformers, the expressions in the bodies of closures.

An action keeps references if it leaves a whole store whole, gives up no closure and no port, and ends in no
fault of access.
-/

namespace Lisplet

/-- The faults of reaching for a place that is not there, or of making a list that cannot be. -/
def Fault.IsOutOfRange : Fault → Prop
  | .operandMissing | .indexOutOfRange | .tailWithoutItems => True
  | _ => False

/-- An atom that refers to nothing. -/
def Atom.IsPlain : Atom → Prop
  | .closure _ | .port _ => False
  | _ => True

/-- The closure or port that an atom refers to is in a store. -/
def Atom.IsHeld (s : Store) : Atom → Prop
  | .closure id => id < s.closures.size
  | .port id => id < s.ports.size
  | _ => True

namespace Value

/-- Nothing in a value refers to anything. -/
def IsPlain (v : Value) : Prop := v.Everywhere Atom.IsPlain

/-- All that a value refers to is in a store. -/
def IsHeld (s : Store) (v : Value) : Prop := v.Everywhere (Atom.IsHeld s)

/-- A value is put together from others: whatever holds of plain atoms and of all atoms of theirs holds of its
atoms. -/
def IsMadeOf (parts : List Value) (v : Value) : Prop :=
  ∀ p : Atom → Prop, (∀ a, a.IsPlain → p a) → (∀ w ∈ parts, w.Everywhere p) → v.Everywhere p

variable {p : Atom → Prop} {v w : Value} {vs ws parts : List Value} {last : Option Atom}

theorem everywhereInRow_iff : EverywhereInRow p vs ↔ ∀ v ∈ vs, v.Everywhere p := by
  induction vs with
  | nil => exact ⟨fun _ v hv => absurd hv List.not_mem_nil, fun _ => trivial⟩
  | cons v vs ih => rw [EverywhereInRow, ih, List.forall_mem_cons]

/-- A property of all atoms is one of those in the items and of the ending. -/
theorem everywhere_iff : v.Everywhere p ↔ (∀ w ∈ v.items, w.Everywhere p) ∧ ∀ a ∈ v.ending, p a := by
  cases v with
  | atom a =>
    refine ⟨fun h => ⟨fun w hw => absurd hw List.not_mem_nil, fun b hb => ?_⟩, fun h => h.2 a rfl⟩
    cases hb
    exact h
  | nil =>
    refine ⟨fun _ => ⟨fun w hw => absurd hw List.not_mem_nil, fun b hb => ?_⟩, fun _ => trivial⟩
    cases hb
  | list id head rest last =>
    rw [Everywhere, everywhereInRow_iff, items, List.forall_mem_cons, and_assoc, ending]

theorem everywhere_assemble_iff {id : ObjectId} :
    (assemble id vs last).Everywhere p ↔ (∀ w ∈ vs, w.Everywhere p) ∧ ∀ a ∈ last, p a := by
  rw [everywhere_iff, items_assemble, ending_assemble]

theorem everywhere_append_iff {id : ObjectId} :
    (append id vs v).Everywhere p ↔ (∀ w ∈ vs, w.Everywhere p) ∧ v.Everywhere p := by
  rw [append, everywhere_assemble_iff, List.forall_mem_append, and_assoc, ← everywhere_iff]

theorem everywhere_cons_iff {id : ObjectId} :
    (cons id v w).Everywhere p ↔ v.Everywhere p ∧ w.Everywhere p := by
  rw [everywhere_iff, items_cons, ending_cons, List.forall_mem_cons, and_assoc, ← everywhere_iff]

theorem everywhere_ofList_iff {id : ObjectId} :
    (ofList id vs).Everywhere p ↔ ∀ w ∈ vs, w.Everywhere p := by
  rw [ofList, everywhere_assemble_iff]
  exact and_iff_left fun a ha => by cases ha

theorem IsPlain.isMadeOf (h : v.IsPlain) (parts : List Value) : v.IsMadeOf parts :=
  fun _ hplain _ => h.imp hplain

theorem isMadeOf_of_mem (h : v ∈ parts) : v.IsMadeOf parts := fun _ _ hparts => hparts v h

end Value

/-! ### Whole stores -/

namespace Store

/-- No closure and no port has been given up. -/
structure Grows (s s' : Store) : Prop where
  closures : s.closures.size ≤ s'.closures.size
  ports : s.ports.size ≤ s'.ports.size

/-- All values in a row are held by a store. -/
def HoldsAll (s : Store) (vs : List Value) : Prop := ∀ v ∈ vs, v.IsHeld s

/-- All values in a store are held by it. -/
structure IsWhole (s : Store) : Prop where
  bindings : ∀ scope ∈ s.scopes, ∀ entry ∈ scope.bindings, entry.2.IsHeld s
  transformers : ∀ scope ∈ s.scopes, ∀ entry ∈ scope.transformers, entry.2 < s.closures.size
  bodies : ∀ c ∈ s.closures, s.HoldsAll c.body

variable {s s' s'' : Store}

theorem Grows.refl (s : Store) : s.Grows s := ⟨Nat.le_refl _, Nat.le_refl _⟩

theorem Grows.trans (h : s.Grows s') (h' : s'.Grows s'') : s.Grows s'' :=
  ⟨Nat.le_trans h.closures h'.closures, Nat.le_trans h.ports h'.ports⟩

theorem Grows.atom (h : s.Grows s') {a : Atom} (ha : a.IsHeld s) : a.IsHeld s' := by
  cases a with
  | closure id => exact Nat.lt_of_lt_of_le ha h.closures
  | port id => exact Nat.lt_of_lt_of_le ha h.ports
  | _ => trivial

/-- What is held stays held. -/
theorem Grows.value (h : s.Grows s') {v : Value} (hv : v.IsHeld s) : v.IsHeld s' :=
  Value.Everywhere.imp (fun _ => h.atom) hv

end Store

theorem Atom.IsPlain.isHeld {a : Atom} (h : a.IsPlain) (s : Store) : a.IsHeld s := by
  cases a with
  | closure id => cases h
  | port id => cases h
  | _ => trivial

/-! ### Changes of a whole store -/

namespace Store.IsWhole

variable {s s' : Store}

/-- Nothing that is held changes with the scopes and the closures left alone. -/
theorem of_eq (h : s.IsWhole) (hgrows : s.Grows s') (hscopes : s'.scopes = s.scopes)
    (hclosures : s'.closures = s.closures) : s'.IsWhole where
  bindings := by
    rw [hscopes]
    exact fun scope hscope entry hentry => hgrows.value (h.bindings scope hscope entry hentry)
  transformers := by
    rw [hscopes, hclosures]
    exact h.transformers
  bodies := by
    rw [hclosures]
    exact fun c hc expr hexpr => hgrows.value (h.bodies c hc expr hexpr)

/-- A new closure with a body that is held. -/
theorem pushClosure (h : s.IsWhole) {c : Closure} (hc : s.HoldsAll c.body) :
    s.Grows { s with closures := s.closures.push c } ∧
      Store.IsWhole { s with closures := s.closures.push c } := by
  have hgrows : s.Grows { s with closures := s.closures.push c } :=
    ⟨by rw [Array.size_push]; exact Nat.le_succ _, Nat.le_refl _⟩
  refine ⟨hgrows, fun scope hscope entry hentry => hgrows.value (h.bindings scope hscope entry hentry),
    fun scope hscope entry hentry =>
      Nat.lt_of_lt_of_le (h.transformers scope hscope entry hentry) hgrows.closures,
    fun c' hc' expr hexpr => ?_⟩
  rcases Array.mem_push.mp hc' with hc' | rfl
  · exact hgrows.value (h.bodies c' hc' expr hexpr)
  · exact hgrows.value (hc expr hexpr)

/-- Other scopes in which all values are held and all transformers are there. -/
theorem withScopes (h : s.IsWhole) {scopes : Scopes}
    (hscopes : ∀ scope ∈ scopes, (∀ entry ∈ scope.bindings, entry.2.IsHeld s) ∧
      ∀ entry ∈ scope.transformers, entry.2 < s.closures.size) :
    s.Grows { s with scopes := scopes } ∧ Store.IsWhole { s with scopes := scopes } := by
  have hgrows : s.Grows { s with scopes := scopes } := ⟨Nat.le_refl _, Nat.le_refl _⟩
  exact ⟨hgrows, fun scope hscope entry hentry => hgrows.value ((hscopes scope hscope).1 entry hentry),
    fun scope hscope => (hscopes scope hscope).2,
    fun c hc expr hexpr => hgrows.value (h.bodies c hc expr hexpr)⟩

end Store.IsWhole

/-- The entries of a table in which something has been put. -/
theorem Table.mem_put {α : Type} {name : Text} {a : α} {t : Table α} {entry : Text × α}
    (h : entry ∈ t.put name a) : entry ∈ t ∨ entry.2 = a := by
  induction t with
  | nil =>
    rw [List.mem_singleton.mp h]
    exact .inr rfl
  | cons other t ih =>
    rw [put] at h
    split at h
    · rcases List.mem_cons.mp h with rfl | h
      · exact .inr rfl
      · exact .inl (List.mem_cons_of_mem _ h)
    · rcases List.mem_cons.mp h with rfl | h
      · exact .inl List.mem_cons_self
      · exact (ih h).imp_left (List.mem_cons_of_mem _)

/-- The entries of a table into which others have been put are among both. -/
theorem Table.mem_foldl_put {α : Type} {entries t : Table α} {entry : Text × α}
    (h : entry ∈ entries.foldl (fun t entry => Table.put entry.1 entry.2 t) t) :
    entry ∈ t ∨ ∃ other ∈ entries, entry.2 = other.2 := by
  induction entries generalizing t with
  | nil => exact .inl h
  | cons other entries ih =>
    rcases ih h with h | ⟨found, hmem, heq⟩
    · rcases Table.mem_put h with h | heq
      · exact .inl h
      · exact .inr ⟨other, List.mem_cons_self, heq⟩
    · exact .inr ⟨found, List.mem_cons_of_mem other hmem, heq⟩

/-- The scopes of an array one of which has been changed. -/
theorem Scopes.mem_modify {scopes : Scopes} {id : ScopeId} {change : Scope → Scope} {scope : Scope}
    (h : scope ∈ scopes.modify id change) : scope ∈ scopes ∨ ∃ old ∈ scopes, scope = change old := by
  obtain ⟨i, hi⟩ := Array.mem_iff_getElem?.mp h
  rw [Array.getElem?_modify] at hi
  split at hi
  · obtain ⟨old, hold, rfl⟩ := Option.map_eq_some_iff.mp hi
    exact .inr ⟨old, Array.mem_iff_getElem?.mpr ⟨i, hold⟩, rfl⟩
  · exact .inl (Array.mem_iff_getElem?.mpr ⟨i, hi⟩)

/-! ### Actions that keep references -/

/-- A signal other than a fault of access. -/
def Signal.IsInRange (e : Signal) : Prop := ∀ f, e = .failure (.fault f) → ¬ f.IsOutOfRange

theorem Signal.isInRange_failure {e : Failure} (h : ∀ f, e ≠ .fault f) : (Signal.failure e).IsInRange := by
  intro f hf
  cases hf
  exact absurd rfl (h f)

theorem Signal.isInRange_fault {f : Fault} (h : ¬ f.IsOutOfRange) : (Signal.failure (.fault f)).IsInRange := by
  intro g hg
  cases hg
  exact h

/-- What an outcome leaves is whole, with all closures and ports of the store before; a value fits it, and a
signal is no fault of access. -/
inductive Store.Continues {α : Type} (s : Store) (post : α → Store → Prop) :
    EStateM.Result Signal Store α → Prop
  | ok {a : α} {s' : Store} (hgrows : s.Grows s') (hwhole : s'.IsWhole) (hpost : post a s') :
      Continues s post (.ok a s')
  | error {e : Signal} {s' : Store} (hgrows : s.Grows s') (hwhole : s'.IsWhole) (he : e.IsInRange) :
      Continues s post (.error e s')

/-- A step on the way grows the store as well. -/
theorem Store.Continues.of_grows {α : Type} {s s' : Store} {post : α → Store → Prop}
    {outcome : EStateM.Result Signal Store α} (hgrows : s.Grows s') (h : s'.Continues post outcome) :
    s.Continues post outcome := by
  cases h with
  | ok hgrows' hwhole hpost => exact .ok (hgrows.trans hgrows') hwhole hpost
  | error hgrows' hwhole he => exact .error (hgrows.trans hgrows') hwhole he

namespace Action

variable {α β : Type} {act : Action α} {s : Store} {post : α → Store → Prop} {post' : β → Store → Prop}

/-- From a whole store on an action keeps references. -/
def Keeps (act : Action α) (s : Store) (post : α → Store → Prop) : Prop :=
  s.IsWhole → s.Continues post (act s)

namespace Keeps

/-- An action that gives a value. -/
theorem ok {a : α} {s' : Store} (hact : act s = .ok a s')
    (h : s.IsWhole → s.Grows s' ∧ s'.IsWhole ∧ post a s') : act.Keeps s post := by
  intro hs
  rw [hact]
  exact .ok (h hs).1 (h hs).2.1 (h hs).2.2

theorem of_ok {a : α} (hact : act s = .ok a s) (h : post a s) : act.Keeps s post :=
  ok hact fun hs => ⟨.refl s, hs, h⟩

/-- An action that is refused at once. -/
theorem of_error {e : Signal} (h : act s = .error e s) (he : e.IsInRange) : act.Keeps s post := by
  intro hs
  rw [h]
  exact .error (.refl s) hs he

theorem imp {post' : α → Store → Prop} (h : act.Keeps s post) (himp : ∀ a s', post a s' → post' a s') :
    act.Keeps s post' := by
  intro hs
  have hcontinues := h hs
  generalize act s = outcome at hcontinues
  cases hcontinues with
  | ok hgrows hwhole hpost => exact .ok hgrows hwhole (himp _ _ hpost)
  | error hgrows hwhole he => exact .error hgrows hwhole he

theorem bind {next : α → Action β} (h : act.Keeps s post)
    (hnext : ∀ a s', s.Grows s' → post a s' → (next a).Keeps s' post') : (act >>= next).Keeps s post' := by
  intro hs
  have hcontinues := h hs
  cases hact : act s with
  | ok a s' =>
    rw [hact] at hcontinues
    rw [bind_of_ok hact]
    cases hcontinues with
    | ok hgrows hwhole hpost => exact (hnext a s' hgrows hpost hwhole).of_grows hgrows
  | error e s' =>
    rw [hact] at hcontinues
    rw [bind_of_error hact]
    cases hcontinues with
    | error hgrows hwhole he => exact .error hgrows hwhole he

theorem get_bind {next : Store → Action β} (h : (next s).Keeps s post') :
    ((get : Action Store) >>= next).Keeps s post' := h

/-- A change to a whole store. -/
theorem modifyGet {change : Store → α × Store}
    (h : s.IsWhole → s.Grows (change s).2 ∧ (change s).2.IsWhole ∧ post (change s).1 (change s).2) :
    (MonadStateOf.modifyGet change : Action α).Keeps s post := ok rfl h

theorem limited (h : act.Keeps s post) : (Action.limited act).Keeps s post := by
  intro hs
  have hcontinues := h hs
  rcases limited_cases act s with heq | ⟨s', hact, heq⟩
  · rw [heq]
    exact hcontinues
  · rw [hact] at hcontinues
    rw [heq]
    cases hcontinues with
    | error hgrows hwhole _ => exact .error hgrows hwhole (Signal.isInRange_failure fun f hf => by cases hf)

/-- What is done at the end of an action, however it ends. -/
theorem ensuring {restore : Store → Store} (h : act.Keeps s post)
    (hrestore : ∀ s', s'.IsWhole → s'.Grows (restore s') ∧ (restore s').IsWhole)
    (hpost : ∀ a s', s'.IsWhole → post a s' → post a (restore s')) :
    (Action.ensuring act restore).Keeps s post := by
  intro hs
  have hcontinues := h hs
  rw [Action.ensuring]
  generalize act s = outcome at hcontinues
  cases hcontinues with
  | ok hgrows hwhole hvalue =>
    exact .ok (hgrows.trans (hrestore _ hwhole).1) (hrestore _ hwhole).2 (hpost _ _ hwhole hvalue)
  | error hgrows hwhole he => exact .error (hgrows.trans (hrestore _ hwhole).1) (hrestore _ hwhole).2 he

/-- A name is bound to a value that is held. -/
theorem define (scope : ScopeId) (name : Text) {v : Value} (hv : v.IsHeld s) :
    (Action.define scope name v).Keeps s fun _ _ => True := by
  refine modifyGet fun hs => ?_
  have hscopes : ∀ sc ∈ s.scopes.define scope name v, (∀ entry ∈ sc.bindings, entry.2.IsHeld s) ∧
      ∀ entry ∈ sc.transformers, entry.2 < s.closures.size := by
    intro sc hsc
    rcases Scopes.mem_modify hsc with hsc | ⟨old, hold, rfl⟩
    · exact ⟨hs.bindings sc hsc, hs.transformers sc hsc⟩
    · refine ⟨fun entry hentry => ?_, hs.transformers old hold⟩
      rcases Table.mem_put hentry with hentry | hvalue
      · exact hs.bindings old hold entry hentry
      · rw [hvalue]
        exact hv
  exact ⟨(hs.withScopes hscopes).1, (hs.withScopes hscopes).2, trivial⟩

theorem defineTransformer (scope : ScopeId) (name : Text) {c : ClosureId} (hc : c < s.closures.size) :
    (Action.defineTransformer scope name c).Keeps s fun _ _ => True := by
  refine modifyGet fun hs => ?_
  have hscopes : ∀ sc ∈ s.scopes.defineTransformer scope name c, (∀ entry ∈ sc.bindings, entry.2.IsHeld s) ∧
      ∀ entry ∈ sc.transformers, entry.2 < s.closures.size := by
    intro sc hsc
    rcases Scopes.mem_modify hsc with hsc | ⟨old, hold, rfl⟩
    · exact ⟨hs.bindings sc hsc, hs.transformers sc hsc⟩
    · refine ⟨hs.bindings old hold, fun entry hentry => ?_⟩
      rcases Table.mem_put hentry with hentry | hvalue
      · exact hs.transformers old hold entry hentry
      · rw [hvalue]
        exact hc
  exact ⟨(hs.withScopes hscopes).1, (hs.withScopes hscopes).2, trivial⟩

/-- A new scope with values that are held. -/
theorem newScope (parent : ScopeId) {t : Table Value} (ht : ∀ entry ∈ t, entry.2.IsHeld s) :
    (Action.newScope parent t).Keeps s fun _ _ => True := by
  refine modifyGet fun hs => ?_
  have hscopes : ∀ sc ∈ s.scopes.push ⟨t, [], some parent⟩, (∀ entry ∈ sc.bindings, entry.2.IsHeld s) ∧
      ∀ entry ∈ sc.transformers, entry.2 < s.closures.size := by
    intro sc hsc
    rcases Array.mem_push.mp hsc with hsc | rfl
    · exact ⟨hs.bindings sc hsc, hs.transformers sc hsc⟩
    · exact ⟨ht, fun entry hentry => absurd hentry List.not_mem_nil⟩
  exact ⟨(hs.withScopes hscopes).1, (hs.withScopes hscopes).2, trivial⟩

/-- A new closure with a body that is held. -/
theorem newClosure {c : Closure} (hc : s.HoldsAll c.body) :
    (Action.newClosure c).Keeps s fun id s' => id < s'.closures.size := by
  refine modifyGet fun hs => ⟨(hs.pushClosure hc).1, (hs.pushClosure hc).2, ?_⟩
  show s.closures.size < (s.closures.push c).size
  rw [Array.size_push]
  exact Nat.lt_succ_self _

theorem assign (scope : ScopeId) (name : Text) {v : Value} (hv : v.IsHeld s) :
    (Action.assign scope name v).Keeps s fun _ _ => True := by
  refine get_bind ?_
  cases s.scopes.binder? scope name with
  | none => exact of_error rfl (Signal.isInRange_failure fun f hf => by cases hf)
  | some binder => exact define binder name hv

end Keeps

end Action

/-! ### Looking names up -/

theorem Table.mem_of_find? {α : Type} {name : Text} {a : α} {t : Table α} (h : t.find? name = some a) :
    (name, a) ∈ t := by
  induction t with
  | nil => cases h
  | cons entry t ih =>
    by_cases he : entry.1 = name
    · subst he
      rw [find?_cons_self] at h
      cases h
      exact List.mem_cons_self
    · rw [find?_cons_of_ne he] at h
      exact List.mem_cons_of_mem _ (ih h)

/-- What a search along a chain of scopes finds is the answer of one of them. -/
theorem Scopes.exists_of_searchFrom {α : Type} {scopes : Scopes} {answer : ScopeId → Scope → Option α}
    {fuel : Nat} {id : ScopeId} {a : α} (h : scopes.searchFrom answer fuel id = some a) :
    ∃ i, ∃ scope ∈ scopes, answer i scope = some a := by
  induction fuel generalizing id with
  | zero => cases h
  | succ fuel ih =>
    rw [searchFrom] at h
    split at h
    · cases h
    · next scope hscope =>
      split at h
      · next answered =>
        cases h
        exact ⟨id, scope, Array.mem_iff_getElem?.mpr ⟨id, hscope⟩, answered⟩
      · split at h
        · cases h
        · exact ih h

namespace Action.Keeps

variable {s : Store}

/-- The value of a name is held. -/
theorem lookup (scope : ScopeId) (name : Text) :
    (Action.lookup scope name).Keeps s fun v s' => v.IsHeld s' := by
  intro hs
  refine get_bind ?_ hs
  cases hv : s.scopes.lookup? scope name with
  | none => exact of_error rfl (Signal.isInRange_failure fun f hf => by cases hf)
  | some v =>
    obtain ⟨i, sc, hsc, hfind⟩ := Scopes.exists_of_searchFrom hv
    exact of_ok rfl (hs.bindings sc hsc _ (Table.mem_of_find? hfind))

/-- The transformer of a name is there. -/
theorem transformer? (scope : ScopeId) (name : Text) :
    (Action.transformer? scope name).Keeps s fun c s' => ∀ id ∈ c, id < s'.closures.size := by
  intro hs
  refine get_bind (of_ok rfl fun id hid => ?_) hs
  obtain ⟨i, sc, hsc, hfind⟩ := Scopes.exists_of_searchFrom hid
  exact hs.transformers sc hsc _ (Table.mem_of_find? hfind)

end Action.Keeps

end Lisplet
