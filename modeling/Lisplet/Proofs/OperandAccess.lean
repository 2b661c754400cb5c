import Lisplet.Proofs.HeldEvaluation
import Lisplet.Proofs.Portions

/-!
# Access to operands

Every special form and primitive procedure is registered with the numbers of operands that it takes. Another
number of them is refused before anything is done. With a number that it takes, none of them reaches for an
operand that is not there, whatever the operands are: operands, the parts of clauses, bindings and templates,
and the elements of calls are all found, or their shape is refused. Nor is a list built that the constructor
of lists would refuse, nor a character of anything but one code point.
-/

namespace Lisplet

open Lisplet.Action

/-! ### Lists and characters -/

namespace Value

/-- The items in front of a tail; a tail that is no list stays bare where there is no item before it. -/
def join? (id : ObjectId) (vs : List Value) (tail : Value) : Option Value :=
  if vs.isEmpty && !tail.isList then some tail else construct? id vs (some tail)

theorem join?_eq (id : ObjectId) (vs : List Value) (tail : Value) :
    join? id vs tail = some (append id vs tail) := by
  rw [join?, construct?]
  split
  · next h =>
    obtain ⟨hempty, hlist⟩ := Bool.and_eq_true_iff.mp h
    cases tail with
    | atom a => rw [List.isEmpty_iff.mp hempty]; rfl
    | _ => cases hlist
  · rfl

theorem join?_atom (id : ObjectId) (vs : List Value) (a : Atom) :
    join? id vs (.atom a) = some (assemble id vs (some a)) := by
  rw [join?_eq, append, items, List.append_nil, ending]

end Value

/-- The character that a text is, if it is a single code point. -/
def CodePoint.ofText? : Text → Option CodePoint
  | [c] => some c
  | _ => none

/-- A case mapping of several code points leaves the character alone. -/
theorem CodePoint.ofText?_recase (c : CodePoint) (t : Text) :
    ofText? (if t.length = 1 then t else [c]) = some (c.recase t) := by
  split
  · next h =>
    obtain ⟨d, rfl⟩ := List.length_eq_one_iff.mp h
    rfl
  · next h =>
    rw [recase.eq_def]
    split
    · exact absurd rfl h
    · rfl

/-- Reading from a file hands out no more code points than are asked for. -/
theorem FileReader.length_le_of_read {content : Bytes} {r : FileReader} {count : Nat} {pieces : List Text}
    {t : Text} (h : (r.read content (.points count) pieces).outcome = .ok t) :
    t.length ≤ (Text.gathered pieces).length + count := by
  -- By what is left of the content; what is ready counts towards the demand.
  induction hleft : r.left content using Nat.strongRecOn generalizing r count pieces with
  | ind n ih =>
    have hgathered : (Text.gathered (r.ready.take count :: pieces)).length =
        (Text.gathered pieces).length + (r.ready.take count).length := by
      simp [Text.gathered]
    have hout := List.length_take_le count r.ready
    cases hafter : (Demand.points count).after? (r.ready.take count) with
    | none =>
      rw [read_of_met content pieces hafter] at h
      cases h
      rw [Demand.split, hgathered]
      omega
    | some rest =>
      obtain rfl : Demand.points (count - (r.ready.take count).length) = rest :=
        Option.some.inj (Option.ite_none_left_eq_some.mp hafter).2
      rw [read_of_unmet content pieces hafter] at h
      split at h
      · next next hportion =>
        have hless : next.left content < ({ r with ready := r.ready.drop count } : FileReader).left content :=
          left_lt_of_portion hportion
        have hle := ih _ (hleft ▸ hless) h rfl
        rw [Demand.split, hgathered] at hle
        omega
      · cases h
        rw [Demand.split, hgathered]
        omega
      · cases h

theorem Stream.length_le_of_read {tree : FileTree} {stream : Stream} {count : Nat} {t : Text}
    (h : (stream.read tree (.points count)).outcome = .ok t) : t.length ≤ count := by
  cases stream with
  | source rest =>
    cases h
    exact List.length_take_le count rest
  | fileSource r =>
    have hle := FileReader.length_le_of_read h
    rwa [Text.gathered, List.reverse_nil, List.flatten_nil, List.length_nil, Nat.zero_add] at hle
  | _ => cases h

/-- A port gives some code points, but no more than are asked for. -/
theorem Port.length_of_read {p : Port} {count : Nat} {s s' : Store} {t : Text}
    (h : p.read count s = .ok (some t) s') : t ≠ [] ∧ t.length ≤ count := by
  cases hclosed : p.isClosed with
  | true =>
    have hrefused := checkOpen_finds p s
    rw [hclosed, if_pos rfl] at hrefused
    cases hrefused with
    | refused hcheck =>
      rw [read, bind_of_error hcheck] at h
      cases h
  | false =>
    have hopen := checkOpen_finds p s
    rw [hclosed, if_neg Bool.false_ne_true] at hopen
    cases hopen with
    | found hcheck =>
      rw [read, bind_of_ok hcheck, readBy, modifyGet_bind] at h
      dsimp only at h
      cases hread : ((s.streams[p.stream]?.getD .closed).read s.files (.points count)).outcome with
      | ok u =>
        rw [hread] at h
        have hu : (if u.isEmpty then none else some u) = some t := by
          injection h
        obtain ⟨hempty, heq⟩ := Option.ite_none_left_eq_some.mp hu
        cases heq
        exact ⟨fun hnil => hempty (List.isEmpty_iff.mpr hnil), Stream.length_le_of_read hread⟩
      | error fault =>
        rw [hread] at h
        cases h

/-- Lists and characters are made of what their constructors take. A list has an item in front of a tail that is
no list, and the text of a character is a single code point. -/
structure ConstructorsAreMet : Prop where
  cons : ∀ id head tail, Value.construct? id [head] (some tail) = some (.cons id head tail)
  proper : ∀ id vs, Value.construct? id vs none = some (.ofList id vs)
  joined : ∀ id vs tail, Value.join? id vs tail = some (.append id vs tail)
  ended : ∀ id vs a, Value.join? id vs (.atom a) = some (.assemble id vs (some a))
  recased : ∀ c t, CodePoint.ofText? (if t.length = 1 then t else [c]) = some (c.recase t)
  read : ∀ (p : Port) s t s', p.read 1 s = .ok (some t) s' → (CodePoint.ofText? t).isSome = true

theorem constructorsAreMet : ConstructorsAreMet where
  cons _ _ _ := rfl
  proper _ _ := rfl
  joined := Value.join?_eq
  ended := Value.join?_atom
  recased := CodePoint.ofText?_recase
  read p s t s' h := by
    obtain ⟨hne, hle⟩ := p.length_of_read h
    obtain ⟨c, rfl⟩ := List.length_eq_one_iff.mp (Nat.le_antisymm hle (List.length_pos_iff.mpr hne))
    rfl

/-! ### Registered procedures and forms -/

/-- What is bound at first: every special form and every primitive procedure, under its name. -/
theorem mem_initialBindings_iff {name : Text} {v : Value} :
    (name, v) ∈ initialBindings ↔ (∃ f : SpecialForm, name = f.name ∧ v = .atom (.form f)) ∨
      ∃ p : Primitive, name = p.name ∧ v = .atom (.primitive p) := by
  constructor
  · intro h
    rcases List.mem_append.mp h with h | h
    · obtain ⟨f, -, heq⟩ := List.mem_map.mp h
      cases heq
      exact .inl ⟨f, rfl, rfl⟩
    · obtain ⟨p, -, heq⟩ := List.mem_map.mp h
      cases heq
      exact .inr ⟨p, rfl, rfl⟩
  · rintro (⟨f, rfl, rfl⟩ | ⟨p, rfl, rfl⟩)
    · exact List.mem_append.mpr (.inl (List.mem_map.mpr ⟨f, f.mem_all, rfl⟩))
    · exact List.mem_append.mpr (.inr (List.mem_map.mpr ⟨p, p.mem_all, rfl⟩))

/-- What is registered refuses another number of operands than it takes, whatever evaluates expressions. -/
theorem applyStep_of_not_accepts {name : Text} {proc : Atom}
    (hbound : (name, Value.atom proc) ∈ initialBindings) {s : Store} {args : List Value}
    (hcount : ¬ (s.procedureArity proc).accepts args.length = true) (ev : Evaluator) (scope : ScopeId) :
    ev.applyStep (.atom proc) args scope s =
      .error (.failure (.arity (s.procedureArity proc) name args.length)) s := by
  rcases mem_initialBindings_iff.mp hbound with ⟨f, rfl, heq⟩ | ⟨p, rfl, heq⟩
  · cases heq
    exact congrFun (if_neg hcount) s
  · cases heq
    exact congrFun (if_neg hcount) s

/-- What a procedure or a form does with operands, however many there are. -/
def Evaluator.handle (ev : Evaluator) (proc : Atom) (args : List Value) (scope : ScopeId) : Action Step :=
  match proc with
  | .primitive p => p.run ev args scope
  | .form f => f.run ev args scope
  | _ => Action.typeError .notApplicable (.atom proc)

/-- With a number of operands that it takes, what is registered gets to handle them, and each that it reaches
for is there. -/
theorem handle_keeps {name : Text} {proc : Atom} (hbound : (name, Value.atom proc) ∈ initialBindings)
    {ev : Evaluator} (h : Policy.references.Governs ev) {s : Store} {args : List Value}
    (hcount : (s.procedureArity proc).accepts args.length = true) (hargs : s.HoldsAll args) (scope : ScopeId) :
    ev.applyStep (.atom proc) args scope = ev.handle proc args scope ∧
      (ev.handle proc args scope).Keeps s Policy.references.AdmitsStep := by
  rcases mem_initialBindings_iff.mp hbound with ⟨f, -, heq⟩ | ⟨p, -, heq⟩
  · cases heq
    exact ⟨if_pos hcount, f.run_obeys h hcount hargs trivial fun _ => trivial⟩
  · cases heq
    exact ⟨if_pos hcount, p.run_obeys h hcount hargs trivial⟩

/-- Registered procedures and forms refuse a number of operands that they do not take, and leave the store as
it is. A number that they take is handled, from every whole store on, without reaching for an operand or for a
part of one that is not there; so is what is left over to be evaluated. Evaluation goes through whole stores
only, and sessions begin with one. -/
theorem operand_access_is_safe {name : Text} {proc : Atom} (hbound : (name, Value.atom proc) ∈ initialBindings)
    (b : Bounds) (scope : ScopeId) (s : Store) :
    (∀ args : List Value, (s.procedureArity proc).accepts args.length = false → ∀ ev : Evaluator,
      ev.applyStep (.atom proc) args scope s =
        .error (.failure (.arity (s.procedureArity proc) name args.length)) s) ∧
    (∀ args : List Value, (s.procedureArity proc).accepts args.length = true → s.HoldsAll args →
      b.evaluator.applyStep (.atom proc) args scope = b.evaluator.handle proc args scope ∧
      (b.evaluator.handle proc args scope >>= b.evaluator.finish).Keeps s fun v s' => v.IsHeld s') ∧
    (∀ expr : Value, expr.IsHeld s → (b.evaluator.eval expr scope).Keeps s fun v s' => v.IsHeld s') ∧
    (∀ source : Text, (Session.evaluate b.evaluator source).Keeps s fun v s' => v.IsHeld s') ∧
    (∀ input files directory loadRoots, (Session.initialStore input files directory loadRoots).IsWhole) ∧
    ConstructorsAreMet := by
  have h : Policy.references.Governs b.evaluator := Evaluator.nested_keeping b.rounds b.nesting b.depth
  refine ⟨fun args hcount ev => ?_, fun args hcount hargs => ?_, fun expr hexpr => h.eval hexpr trivial,
    fun source => Session.evaluate_obeys h source s, Session.initialStore_isWhole, constructorsAreMet⟩
  · exact applyStep_of_not_accepts hbound (Bool.eq_false_iff.mp hcount) ev scope
  · obtain ⟨hrun, hkeeps⟩ := handle_keeps hbound h hcount hargs scope
    exact ⟨hrun, hkeeps.bind fun step s1 _ hstep => h.finish hstep⟩

/-- A conditional is refused with one operand, and with two it finds that it has no third. -/
theorem operand_access_is_safe_conditional :
    let s : Store := Session.initialStore [] ⟨[], [], ⟨[], []⟩, []⟩ ⟨[], []⟩ []
    let act : Action Value :=
      Bounds.standard.evaluator.handle (.form .conditional) [.bool false, .str 0] rootScope >>=
        Bounds.standard.evaluator.finish
    (SpecialForm.conditional.name, Value.atom (.form .conditional)) ∈ initialBindings ∧
      s.HoldsAll [.bool false, .str 0] ∧
      Bounds.standard.evaluator.applyStep (.atom (.form .conditional)) [.bool false] rootScope s =
        .error (.failure (.arity (.range 2 3) SpecialForm.conditional.name 1)) s ∧
      s.Continues (fun v s' => v.IsHeld s') (act s) := by
  intro s act
  have hbound : (SpecialForm.conditional.name, Value.atom (.form .conditional)) ∈ initialBindings :=
    mem_initialBindings_iff.mpr (.inl ⟨.conditional, rfl, rfl⟩)
  have hargs : s.HoldsAll [.bool false, .str 0] :=
    Store.holdsAll_cons_iff.mpr ⟨trivial, Store.holdsAll_cons_iff.mpr ⟨trivial, Store.holdsAll_nil⟩⟩
  obtain ⟨hrefused, htaken, -⟩ := operand_access_is_safe hbound .standard rootScope s
  exact ⟨hbound, hargs, hrefused [.bool false] rfl Bounds.standard.evaluator,
    (htaken [.bool false, .str 0] rfl hargs).2 (Session.initialStore_isWhole _ _ _ _)⟩

end Lisplet
