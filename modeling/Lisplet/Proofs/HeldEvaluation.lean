import Lisplet.Proofs.Leaks
import Lisplet.Proofs.PolicyEvaluation

/-!
# Evaluation keeps references

Expressions and values that are handed on are held by the store. So no closure is missing where it is looked for,
and a fault of access could only come from operands that are not there. Procedures that are given as many
arguments as they take find what they reach for or refuse their kinds; the ports that they open are there
afterwards, and closing and redirecting gives none up. So keeping references is a policy, and by that every nested
evaluation keeps them, and every session that begins with the registered procedures and forms.
-/

namespace Lisplet

open Lisplet.Action

/-! ### Changes that give nothing up -/

namespace Store

variable {s s' : Store} {v : Value} {vs : List Value}

theorem holdsAll_nil : s.HoldsAll [] := fun _ hv => absurd hv List.not_mem_nil

theorem holdsAll_cons_iff : s.HoldsAll (v :: vs) ↔ v.IsHeld s ∧ s.HoldsAll vs := List.forall_mem_cons

theorem HoldsAll.holdsPorts (hvs : s.HoldsAll vs) : s.HoldsPorts vs := fun _ hid => hvs _ hid

theorem Drifts.grows (h : s.Drifts s') : s.Grows s' := ⟨Nat.le_of_eq (congrArg Array.size h.closures.symm), h.ports⟩

theorem IsWhole.of_drifts (hs : s.IsWhole) (h : s.Drifts s') : s'.IsWhole := hs.of_eq h.grows h.scopes h.closures

theorem grows_redirect (s : Store) (direction : Direction) (stream : StreamId) :
    s.Grows (s.redirect direction stream) :=
  ⟨Nat.le_of_eq (congrArg Array.size (s.closures_redirect direction stream).symm),
    Nat.le_of_eq (congrArg Array.size (s.ports_redirect direction stream).symm)⟩

theorem IsWhole.redirect (hs : s.IsWhole) (direction : Direction) (stream : StreamId) :
    (s.redirect direction stream).IsWhole :=
  hs.of_eq (s.grows_redirect direction stream) (s.scopes_redirect direction stream)
    (s.closures_redirect direction stream)

/-- A new port is there. -/
theorem IsWhole.pushPort (hs : s.IsWhole) (port : Port) :
    s.Grows { s with ports := s.ports.push port } ∧ Store.IsWhole { s with ports := s.ports.push port } ∧
      Atom.IsHeld { s with ports := s.ports.push port } (.port s.ports.size) := by
  have hsize : s.ports.size < (s.ports.push port).size := by
    rw [Array.size_push]
    exact Nat.lt_succ_self _
  have hgrows : s.Grows { s with ports := s.ports.push port } := ⟨Nat.le_refl _, Nat.le_of_lt hsize⟩
  exact ⟨hgrows, hs.of_eq hgrows rfl rfl, hsize⟩

end Store

/-- The faults that a quiet procedure ends in are none of access. -/
theorem Primitive.Leaks.not_isOutOfRange {p : Primitive} {ev : Evaluator} {scope : ScopeId} {s : Store}
    {args : List Value} {f : Fault} (h : p.Leaks ev scope s args f) (hp : p.IsQuiet) : ¬ f.IsOutOfRange := by
  cases h with
  | numbers hnums hoverflows => exact id
  | strings hfiller hexceeds => rcases hexceeds with ⟨-, rfl⟩ | ⟨-, -, rfl⟩ <;> exact id
  | control h => exact hp.elim
  | system h => exact hp.elim
  | output h =>
    obtain ⟨p, text, -, hfails⟩ := h
    cases hfails <;> exact id
  | input h =>
    obtain ⟨p, demand, -, hfails | ⟨-, -, rfl⟩⟩ := h
    · cases hfails <;> exact id
    · exact id
  | @ports op args f h =>
    have hopens := h.isSome_opens?
    cases op <;> first | exact hp.elim | cases hopens

/-- Given what is there, a quiet procedure reaches for nothing else. -/
theorem Primitive.run_not_isOutOfRange {p : Primitive} (hp : p.IsQuiet) {args : List Value} {s : Store}
    (hcount : p.arity.accepts args.length = true) (hargs : s.HoldsAll args) (ev : Evaluator) (scope : ScopeId)
    (f : Fault) (hrun : (p.run ev args scope).EndsInFault s f) : ¬ f.IsOutOfRange := by
  by_cases hf : f = .numeralTooLong
  · rw [hf]
    exact id
  · exact ((run_endsInFault_iff hcount hargs.holdsPorts hf).mp hrun).not_isOutOfRange hp

/-! ### The policy -/

namespace Action.Keeps

variable {α : Type} {act : Action α} {s : Store}

theorem of_drifts {good : α → Prop} (h : act.Drifts good) (hfault : ∀ f, act.EndsInFault s f → ¬ f.IsOutOfRange) :
    act.Keeps s fun a _ => good a := by
  intro hs
  obtain ⟨hdrifts, hgood⟩ := h s
  cases hact : act s with
  | ok a s' =>
    rw [after_of_ok hact] at hdrifts
    exact .ok hdrifts.grows (hs.of_drifts hdrifts) (hgood a s' hact)
  | error e s' =>
    rw [after_of_error hact] at hdrifts
    refine .error hdrifts.grows (hs.of_drifts hdrifts) fun f hf => hfault f ⟨s', ?_⟩
    rw [hact, hf]

end Action.Keeps

/-- By this policy references are kept. Code may only be handed what is held; it may run and bind names
everywhere. -/
def Policy.references : Policy where
  Obeys := Keeps
  Good := Store.IsWhole
  Later := Store.Grows
  AdmitsAtom a s := a.IsHeld s
  Opens _ _ := True
  Binds _ := True
  Yields _ _ := True
  IsStrict := True
  of_ok := .of_ok
  of_error h he := .of_error h (he trivial)
  bind := .bind
  of_good h hs := h hs hs
  limited := .limited
  drifts h hfault := .of_drifts h (hfault trivial)
  strict _ := ⟨id, Primitive.run_not_isOutOfRange⟩
  gensym hstart ev scope := .ok (ControlOp.run_gensym hstart ev scope) fun hs =>
    ⟨⟨Nat.le_refl _, Nat.le_refl _⟩, hs.of_eq ⟨Nat.le_refl _, Nat.le_refl _⟩ rfl rfl, trivial⟩
  newPort port s := .modifyGet fun hs =>
    ⟨(hs.pushPort port).1, (hs.pushPort port).2.1, _, rfl, (hs.pushPort port).2.2⟩
  closing port h := by
    have hclose := fun s' : Store => s'.closePort_drifts port
    exact h.ensuring (fun s' hs' => ⟨(hclose s').grows, hs'.of_drifts (hclose s')⟩)
      fun _ s' _ hv => (hclose s').grows.value hv
  redirecting {act s} direction stream port h := by
    have henter : (modify (·.redirect direction stream) : Action Unit).Keeps s
        fun _ s' => s' = s.redirect direction stream :=
      .modifyGet fun hs => ⟨s.grows_redirect direction stream, hs.redirect direction stream, rfl⟩
    have hleave : ∀ s' : Store, s'.Grows ((s'.redirect direction (s.current direction)).closePort port) :=
      fun s' => (s'.grows_redirect direction _).trans (Store.closePort_drifts _ port).grows
    refine henter.bind fun _ s1 _ hs1 => hs1 ▸ h.ensuring (fun s' hs' => ⟨hleave s', ?_⟩) fun v s' _ hv =>
      (hleave s').value hv
    exact (hs'.redirect direction _).of_drifts (Store.closePort_drifts _ port)
  later_redirect := Store.grows_redirect
  later_atom ha hgrows := hgrows.atom ha
  later_opens _ _ := trivial
  later_yields _ _ _ _ := trivial
  plain h s := h.isHeld s
  binds _ _ := trivial
  root _ := trivial
  closure hs _ hc := ⟨trivial, hs.bodies _ (Array.mem_of_getElem? hc)⟩
  newScope _ ht := (Keeps.newScope _ ht).imp fun _ _ _ => ⟨trivial, trivial⟩
  newClosure _ hbody := .newClosure hbody
  define _ name hv := .define _ name hv
  defineTransformer _ name hc := .defineTransformer _ name hc
  assign _ name hv := .assign _ name hv
  lookup _ name := .lookup _ name
  transformer? _ name := .transformer? _ name

/-- Any number of nested evaluations. -/
theorem Evaluator.nested_keeping (rounds nesting depth : Nat) :
    Policy.references.Governs (nested rounds nesting depth) :=
  nested_governed (fun _ _ => trivial) rounds nesting depth

/-! ### Sessions -/

theorem Session.initialStore_isWhole (input : Text) (files : FileTree) (directory : Path) (loadRoots : List Path) :
    (initialStore input files directory loadRoots).IsWhole where
  bindings := by
    intro scope hscope entry hentry
    rw [Array.mem_singleton.mp hscope] at hentry
    rcases List.mem_append.mp hentry with hentry | hentry
    · obtain ⟨form, -, rfl⟩ := List.mem_map.mp hentry
      trivial
    · obtain ⟨p, -, rfl⟩ := List.mem_map.mp hentry
      trivial
  transformers := by
    intro scope hscope entry hentry
    rw [Array.mem_singleton.mp hscope] at hentry
    cases hentry
  bodies := by
    intro c hc
    cases Array.not_mem_empty c hc

end Lisplet
