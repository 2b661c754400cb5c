import Lisplet.Port.Operations
import Lisplet.Proofs.Outcomes
import Lisplet.Proofs.ScopeChains

/-!
# Changes of the store

Whatever a program does to the store is made of few changes: something new is added, a name is bound, a
string is overwritten by one of the same length, a stream moves on, a port is closed. `Store.Change` lists
them, and `Store.Evolves` is what any number of them lead to, with the redirections of the current ports
balanced.

Two things follow from the list alone. A store stays well formed: its scopes make one tree, and closures are
made in scopes that exist. And what exists survives: scopes keep their parents and their names, strings keep
their lengths, closed ports stay closed.
-/

namespace Lisplet

namespace Store

/-- One change that a program makes. -/
inductive Change (s : Store) : Store → Prop
  | object : Change s { s with nextObject := s.nextObject + 1 }
  | freshName : Change s { s with nextFresh := s.nextFresh + 1 }
  | string (t : Text) : Change s { s with buffers := s.buffers.push t }
  | content (buffer : BufferId) (t : Text) (h : t.length = (s.content buffer).length) :
      Change s { s with buffers := s.buffers.set! buffer t }
  | closure (c : Closure) (h : c.scope < s.scopes.size) :
      Change s { s with closures := s.closures.push c }
  | scope (parent : ScopeId) (bindings : Table Value) (h : parent < s.scopes.size) :
      Change s { s with scopes := s.scopes.push ⟨bindings, [], some parent⟩ }
  | binding (scope : ScopeId) (name : Text) (v : Value) :
      Change s { s with scopes := s.scopes.define scope name v }
  | transformer (scope : ScopeId) (name : Text) (c : ClosureId) :
      Change s { s with scopes := s.scopes.defineTransformer scope name c }
  | port (p : Port) : Change s { s with ports := s.ports.push p }
  | newStream (stream : Stream) : Change s { s with streams := s.streams.push stream }
  | stream (id : StreamId) (after : Stream) (files : FileTree) :
      Change s { s with streams := s.streams.set! id after, files := files }
  | files (files : FileTree) : Change s { s with files := files }
  | closing (id : PortId) : Change s (s.closePort id)

/-- The stream of the current port of a direction. -/
def current (s : Store) : Direction → StreamId
  | .input => s.input
  | .output => s.output

/-- Makes a stream the current one of a direction. -/
def redirect (s : Store) (direction : Direction) (stream : StreamId) : Store :=
  match direction with
  | .input => { s with input := stream }
  | .output => { s with output := stream }

/-- Any number of changes, some of them while a current port is redirected. -/
inductive Evolves : Store → Store → Prop
  | refl (s : Store) : Evolves s s
  | change {s s' : Store} (h : s.Change s') : Evolves s s'
  | input {s s' : Store} (stream : StreamId) (h : Evolves { s with input := stream } s') :
      Evolves s { s' with input := s.input }
  | output {s s' : Store} (stream : StreamId) (h : Evolves { s with output := stream } s') :
      Evolves s { s' with output := s.output }
  | trans {s s' s'' : Store} (h : Evolves s s') (h' : Evolves s' s'') : Evolves s s''

/-- Closing a port changes ports, streams and files only. -/
theorem closePort_cases (s : Store) (id : PortId) : s.closePort id = s ∨
    ∃ p, s.ports[id]? = some p ∧ ∃ streams files, s.closePort id =
      { s with ports := s.ports.set! id { p with isClosed := true }, streams := streams, files := files } := by
  unfold closePort
  cases hp : s.ports[id]? with
  | none => exact Or.inl rfl
  | some p =>
    dsimp only
    split
    next => exact Or.inl rfl
    next =>
      right
      refine ⟨p, rfl, ?_⟩
      split
      next => exact ⟨_, _, rfl⟩
      next => exact ⟨_, _, rfl⟩

theorem scopes_closePort (s : Store) (id : PortId) : (s.closePort id).scopes = s.scopes := by
  rcases closePort_cases s id with h | ⟨p, _, streams, files, h⟩
  · rw [h]
  · rw [h]

theorem ports_redirect (s : Store) (direction : Direction) (stream : StreamId) :
    (s.redirect direction stream).ports = s.ports := by
  cases direction with
  | input => rfl
  | output => rfl

theorem scopes_redirect (s : Store) (direction : Direction) (stream : StreamId) :
    (s.redirect direction stream).scopes = s.scopes := by
  cases direction with
  | input => rfl
  | output => rfl

theorem closures_redirect (s : Store) (direction : Direction) (stream : StreamId) :
    (s.redirect direction stream).closures = s.closures := by
  cases direction with
  | input => rfl
  | output => rfl

theorem nextFresh_redirect (s : Store) (direction : Direction) (stream : StreamId) :
    (s.redirect direction stream).nextFresh = s.nextFresh := by
  cases direction with
  | input => rfl
  | output => rfl

/-- What happens under a redirection that is undone. -/
theorem Evolves.redirect {s s' : Store} {direction : Direction} {stream : StreamId}
    (h : (s.redirect direction stream).Evolves s') : s.Evolves (s'.redirect direction (s.current direction)) := by
  cases direction with
  | input => exact .input stream h
  | output => exact .output stream h

/-! ### Well-formed stores -/

/-- The scopes make one tree, and every closure is made in one of them. -/
structure WellFormed (s : Store) : Prop where
  scopes : s.scopes.IsTree
  closures : ∀ (id : ClosureId) (c : Closure), s.closures[id]? = some c → c.scope < s.scopes.size

theorem WellFormed.root_lt {s : Store} (h : s.WellFormed) : rootScope < s.scopes.size := by
  obtain ⟨_, hroot, _⟩ := h.scopes.root
  exact Scopes.lt_size hroot

theorem Change.size_le {s s' : Store} (h : s.Change s') : s.scopes.size ≤ s'.scopes.size := by
  cases h with
  | scope parent bindings h =>
    show s.scopes.size ≤ (s.scopes.push _).size
    rw [Array.size_push]
    exact Nat.le_succ _
  | binding scope name v => exact Nat.le_of_eq (Scopes.size_define s.scopes scope name v).symm
  | transformer scope name c =>
    exact Nat.le_of_eq (Scopes.size_defineTransformer s.scopes scope name c).symm
  | closing id => exact Nat.le_of_eq (congrArg Array.size (scopes_closePort s id)).symm
  | _ => exact Nat.le_refl _

theorem Evolves.size_le {s s' : Store} (h : s.Evolves s') : s.scopes.size ≤ s'.scopes.size := by
  induction h with
  | refl s => exact Nat.le_refl _
  | change h => exact h.size_le
  | input stream h ih => exact ih
  | output stream h ih => exact ih
  | trans h h' ih ih' => exact Nat.le_trans ih ih'

/-- A scope that exists stays. -/
theorem Evolves.exists_of_exists {s s' : Store} (h : s.Evolves s') {scope : ScopeId}
    (hscope : scope < s.scopes.size) : scope < s'.scopes.size := Nat.lt_of_lt_of_le hscope h.size_le

theorem Change.wellFormed {s s' : Store} (h : s.Change s') (hs : s.WellFormed) : s'.WellFormed := by
  have hclosures : ∀ (id : ClosureId) (c : Closure), s.closures[id]? = some c →
      c.scope < s'.scopes.size := fun id c hc => Nat.lt_of_lt_of_le (hs.closures id c hc) h.size_le
  cases h with
  | closure c h =>
    refine ⟨hs.scopes, fun id c' hc' => ?_⟩
    rw [Array.getElem?_push] at hc'
    split at hc'
    next => exact Option.some.inj hc' ▸ h
    next => exact hs.closures id c' hc'
  | scope parent bindings h => exact ⟨hs.scopes.push rfl h, hclosures⟩
  | binding scope name v => exact ⟨hs.scopes.define scope name v, hclosures⟩
  | transformer scope name c => exact ⟨hs.scopes.defineTransformer scope name c, hclosures⟩
  | closing id =>
    rcases closePort_cases s id with h | ⟨p, _, streams, files, h⟩
    · rw [h]
      exact hs
    · rw [h]
      exact ⟨hs.scopes, hs.closures⟩
  | _ => exact ⟨hs.scopes, hclosures⟩

theorem WellFormed.redirect {s : Store} (hs : s.WellFormed) (direction : Direction) (stream : StreamId) :
    (s.redirect direction stream).WellFormed := by
  cases direction with
  | input => exact ⟨hs.scopes, hs.closures⟩
  | output => exact ⟨hs.scopes, hs.closures⟩

theorem Evolves.wellFormed {s s' : Store} (h : s.Evolves s') (hs : s.WellFormed) : s'.WellFormed := by
  induction h with
  | refl s => exact hs
  | change h => exact h.wellFormed hs
  | input stream h ih =>
    obtain ⟨hscopes, hclosures⟩ := ih ⟨hs.scopes, hs.closures⟩
    exact ⟨hscopes, hclosures⟩
  | output stream h ih =>
    obtain ⟨hscopes, hclosures⟩ := ih ⟨hs.scopes, hs.closures⟩
    exact ⟨hscopes, hclosures⟩
  | trans h h' ih ih' => exact ih' (ih hs)

/-! ### What survives -/

end Store

/-- A scope keeps its parent and its names; the values may differ. -/
structure Scope.Survives (scope scope' : Scope) : Prop where
  parent : scope'.parent = scope.parent
  bindings : scope.bindings.names ⊆ scope'.bindings.names
  transformers : scope.transformers.names ⊆ scope'.transformers.names

namespace Store

/-- What exists in one store exists in another one: scopes with their parents and names, strings with their
lengths, closed ports as closed ones, and no number of a fresh symbol is given out again. -/
structure Survives (s s' : Store) : Prop where
  scopes : ∀ (id : ScopeId) (scope : Scope), s.scopes[id]? = some scope →
    ∃ scope', s'.scopes[id]? = some scope' ∧ scope.Survives scope'
  buffers : ∀ (id : BufferId) (t : Text), s.buffers[id]? = some t →
    ∃ t', s'.buffers[id]? = some t' ∧ t'.length = t.length
  ports : ∀ (id : PortId) (p : Port), s.ports[id]? = some p →
    ∃ p', s'.ports[id]? = some p' ∧ (p.isClosed = true → p'.isClosed = true)
  fresh : s.nextFresh ≤ s'.nextFresh

end Store

theorem Scope.Survives.refl (scope : Scope) : scope.Survives scope :=
  ⟨rfl, List.Subset.refl _, List.Subset.refl _⟩

theorem Scope.Survives.trans {scope scope' scope'' : Scope} (h : scope.Survives scope')
    (h' : scope'.Survives scope'') : scope.Survives scope'' :=
  ⟨h'.parent.trans h.parent, List.Subset.trans h.bindings h'.bindings,
    List.Subset.trans h.transformers h'.transformers⟩

theorem Table.names_subset_put {α : Type} (name : Text) (a : α) (t : Table α) :
    t.names ⊆ (t.put name a).names := by
  rw [names_put]
  split
  next => exact List.Subset.refl _
  next => exact List.subset_append_left _ _

namespace Store

theorem Survives.refl (s : Store) : s.Survives s where
  scopes _ scope h := ⟨scope, h, .refl scope⟩
  buffers _ t h := ⟨t, h, rfl⟩
  ports _ p h := ⟨p, h, id⟩
  fresh := Nat.le_refl _

theorem Survives.trans {s s' s'' : Store} (h : s.Survives s') (h' : s'.Survives s'') :
    s.Survives s'' where
  scopes id scope hscope := by
    obtain ⟨scope', hscope', hkept⟩ := h.scopes id scope hscope
    obtain ⟨scope'', hscope'', hkept'⟩ := h'.scopes id scope' hscope'
    exact ⟨scope'', hscope'', hkept.trans hkept'⟩
  buffers id t ht := by
    obtain ⟨t', ht', hlength⟩ := h.buffers id t ht
    obtain ⟨t'', ht'', hlength'⟩ := h'.buffers id t' ht'
    exact ⟨t'', ht'', hlength'.trans hlength⟩
  ports id p hp := by
    obtain ⟨p', hp', hclosed⟩ := h.ports id p hp
    obtain ⟨p'', hp'', hclosed'⟩ := h'.ports id p' hp'
    exact ⟨p'', hp'', fun hc => hclosed' (hclosed hc)⟩
  fresh := Nat.le_trans h.fresh h'.fresh

end Store

/-- What stands in an array stays where it is when something is added. -/
theorem getElem?_push_of_some {α : Type} {xs : Array α} {i : Nat} {a : α} (h : xs[i]? = some a) (b : α) :
    (xs.push b)[i]? = some a := by
  obtain ⟨hlt, _⟩ := Array.getElem?_eq_some_iff.mp h
  rw [Array.getElem?_push, if_neg (Nat.ne_of_lt hlt)]
  exact h

/-- A change of one scope that keeps its parent and its names lets all scopes survive. -/
theorem Scopes.survives_modify {scopes : Scopes} (id : ScopeId) {change : Scope → Scope}
    (hchange : ∀ scope : Scope, scope.Survives (change scope)) (id' : ScopeId) (scope : Scope)
    (h : scopes[id']? = some scope) :
    ∃ scope', (scopes.modify id change)[id']? = some scope' ∧ scope.Survives scope' := by
  rw [Array.getElem?_modify, h]
  split
  next => exact ⟨change scope, rfl, hchange scope⟩
  next => exact ⟨scope, rfl, .refl scope⟩

theorem Store.Change.survives {s s' : Store} (h : s.Change s') : s.Survives s' := by
  have hrefl := Store.Survives.refl s
  -- A change touches one part of the store; the other parts survive as they do in a store that stays.
  cases h with
  | freshName => exact { hrefl with fresh := Nat.le_succ _ }
  | string t => exact { hrefl with buffers := fun id t h => ⟨t, getElem?_push_of_some h _, rfl⟩ }
  | content buffer t h =>
    -- A buffer is written over, not resized: the new content has the length of the old one.
    refine { hrefl with buffers := fun id old hold => ?_ }
    rw [Array.set!_eq_setIfInBounds, Array.getElem?_setIfInBounds]
    split
    next heq =>
      subst heq
      obtain ⟨hlt, _⟩ := Array.getElem?_eq_some_iff.mp hold
      rw [if_pos hlt]
      rw [Store.content, hold] at h
      exact ⟨t, rfl, h⟩
    next => exact ⟨old, hold, rfl⟩
  | scope parent bindings h =>
    exact { hrefl with
      scopes := fun id scope h => ⟨scope, getElem?_push_of_some h _, .refl scope⟩ }
  | binding scope name v =>
    exact { hrefl with
      scopes := Scopes.survives_modify scope fun _ =>
        ⟨rfl, Table.names_subset_put name v _, List.Subset.refl _⟩ }
  | transformer scope name c =>
    exact { hrefl with
      scopes := Scopes.survives_modify scope fun _ =>
        ⟨rfl, List.Subset.refl _, Table.names_subset_put name c _⟩ }
  | port p => exact { hrefl with ports := fun id p h => ⟨p, getElem?_push_of_some h _, fun h => h⟩ }
  | closing id =>
    rcases closePort_cases s id with h | ⟨p, hp, streams, files, h⟩
    · rw [h]
      exact hrefl
    · rw [h]
      refine { hrefl with ports := fun id' old hold => ?_ }
      show ∃ p', (s.ports.set! id { p with isClosed := true })[id']? = some p' ∧ _
      rw [Array.set!_eq_setIfInBounds, Array.getElem?_setIfInBounds]
      split
      next heq =>
        subst heq
        obtain ⟨hlt, _⟩ := Array.getElem?_eq_some_iff.mp hold
        rw [if_pos hlt]
        exact ⟨_, rfl, fun _ => rfl⟩
      next => exact ⟨old, hold, fun h => h⟩
  | _ => exact { hrefl with }

/-- Whatever exists survives. -/
theorem Store.Evolves.survives {s s' : Store} (h : s.Evolves s') : s.Survives s' := by
  induction h with
  | refl s => exact .refl s
  | change h => exact h.survives
  | input stream h ih => exact ⟨ih.scopes, ih.buffers, ih.ports, ih.fresh⟩
  | output stream h ih => exact ⟨ih.scopes, ih.buffers, ih.ports, ih.fresh⟩
  | trans h h' ih ih' => exact ih.trans ih'

namespace Store

variable {s s' : Store} {id : ClosureId} {c : Closure}

theorem Change.closure_stays (h : s.Change s') (hc : s.closures[id]? = some c) :
    s'.closures[id]? = some c := by
  cases h with
  | closure c' h => exact getElem?_push_of_some hc c'
  | closing port =>
    rcases closePort_cases s port with h | ⟨p, _, streams, files, h⟩
    · rw [h]
      exact hc
    · rw [h]
      exact hc
  | _ => exact hc

/-- A closure stays what it is. -/
theorem Evolves.closure_stays (h : s.Evolves s') (hc : s.closures[id]? = some c) :
    s'.closures[id]? = some c := by
  induction h with
  | refl s => exact hc
  | change h => exact h.closure_stays hc
  | input stream h ih => exact ih hc
  | output stream h ih => exact ih hc
  | trans h h' ih ih' => exact ih' (ih hc)

end Store

end Lisplet
