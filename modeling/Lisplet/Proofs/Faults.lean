import Lisplet.Proofs.Effects
import Mathlib.Data.List.Basic

/-!
# Faults of actions

A fault is a failure below the language. A check of an argument finds what it asks for or is refused by the
language, so a fault behind a check is one of what follows. A guarded action ends in no fault but that of an
integer that has too many digits to be read or written; most primitive procedures are guarded when they are
given as many arguments as they take.
-/

namespace Lisplet

namespace Action

variable {α β γ : Type}

/-- From a store an action ends in a fault. -/
def EndsInFault (act : Action α) (s : Store) (f : Fault) : Prop :=
  ∃ s', act s = .error (.failure (.fault f)) s'

/-- From a store an action ends with a value. -/
def Succeeds (act : Action α) (s : Store) : Prop := ∃ a s', act s = .ok a s'

/-- In a store an action gives what is to be found, or else it is refused by the language; the store stays. -/
inductive Finds (act : Action α) (s : Store) : Option α → Prop
  | found {a : α} (h : act s = .ok a s) : Finds act s (some a)
  | refused {e : Failure} (h : act s = .error (.failure e) s) (he : ∀ f, e ≠ .fault f) : Finds act s none

/-- An action ends in no fault but that of an integer of too many digits. -/
def Guarded (act : Action α) : Prop := ∀ s f, act.EndsInFault s f → f = .numeralTooLong

/-! ### Where a fault comes from -/

theorem endsInFault_fault_iff {f g : Fault} {s : Store} :
    (fault g : Action α).EndsInFault s f ↔ f = g := by
  constructor
  · rintro ⟨_, h⟩
    cases h
    rfl
  · rintro rfl
    exact ⟨s, rfl⟩

/-- A sequence ends in a fault of its first part, or in one of what follows its value. -/
theorem endsInFault_bind_iff {act : Action α} {next : α → Action β} {s : Store} {f : Fault} :
    (act >>= next).EndsInFault s f ↔
      act.EndsInFault s f ∨ ∃ a s', act s = .ok a s' ∧ (next a).EndsInFault s' f := by
  cases hact : act s with
  | ok a s' =>
    have hnot : ¬act.EndsInFault s f := by
      rintro ⟨_, h⟩
      rw [hact] at h
      cases h
    rw [EndsInFault, bind_of_ok hact]
    constructor
    · exact fun h => Or.inr ⟨a, s', rfl, h⟩
    · rintro (h | ⟨_, _, heq, h⟩)
      · exact absurd h hnot
      · cases heq
        exact h
  | error e s' =>
    rw [EndsInFault, bind_of_error hact]
    constructor
    · rintro ⟨_, heq⟩
      cases heq
      exact Or.inl ⟨s', hact⟩
    · rintro (⟨s'', h⟩ | ⟨_, _, heq, _⟩)
      · rw [hact] at h
        cases h
        exact ⟨s', rfl⟩
      · cases heq

/-- Mapping the value of an action leaves its faults. -/
theorem endsInFault_map_iff {act : Action α} (g : α → β) {s : Store} {f : Fault} :
    (g <$> act).EndsInFault s f ↔ act.EndsInFault s f := by
  rw [map_eq_pure_bind, endsInFault_bind_iff]
  refine or_iff_left ?_
  rintro ⟨_, _, _, _, h⟩
  cases h

/-- What is restored at the end of an action leaves its faults. -/
theorem endsInFault_ensuring_iff {act : Action α} {restore : Store → Store} {s : Store} {f : Fault} :
    (ensuring act restore).EndsInFault s f ↔ act.EndsInFault s f := by
  rw [EndsInFault, EndsInFault, ensuring]
  cases act s with
  | ok a s' =>
    refine iff_of_false ?_ ?_
    · rintro ⟨_, h⟩
      cases h
    · rintro ⟨_, h⟩
      cases h
  | error e s' =>
    constructor
    · rintro ⟨_, h⟩
      cases h
      exact ⟨s', rfl⟩
    · rintro ⟨_, h⟩
      cases h
      exact ⟨restore s', rfl⟩

/-- An action that begins with a look at the store. -/
theorem endsInFault_get_bind_iff {next : Store → Action β} {s : Store} {f : Fault} :
    ((get : Action Store) >>= next).EndsInFault s f ↔ (next s).EndsInFault s f := by
  rw [EndsInFault, EndsInFault, get_bind]

/-! ### Checks -/

namespace Finds

variable {act : Action α} {s : Store} {found : Option α}

theorem pure (a : α) (s : Store) : (Pure.pure a : Action α).Finds s (some a) := .found rfl

theorem ok_iff (h : act.Finds s found) {a : α} {s' : Store} : act s = .ok a s' ↔ found = some a ∧ s' = s := by
  cases h with
  | found h =>
    rw [h]
    exact ⟨fun heq => by cases heq; exact ⟨rfl, rfl⟩, fun ⟨heq, hs⟩ => by cases heq; cases hs; rfl⟩
  | refused h _ => exact ⟨fun heq => (nomatch h.symm.trans heq), fun heq => (nomatch heq.1)⟩

theorem succeeds_iff (h : act.Finds s found) : act.Succeeds s ↔ found.isSome = true := by
  simp only [Succeeds, h.ok_iff, Option.isSome_iff_exists, exists_and_left, exists_eq, and_true]

theorem not_endsInFault (h : act.Finds s found) (f : Fault) : ¬act.EndsInFault s f := by
  rintro ⟨_, hact⟩
  cases h with
  | found h =>
    rw [h] at hact
    cases hact
  | refused h he =>
    rw [h] at hact
    cases hact
    exact he f rfl

/-- A fault behind a check is one of what follows when the check has found something. -/
theorem endsInFault_bind_iff (h : act.Finds s found) {next : α → Action β} {f : Fault} :
    (act >>= next).EndsInFault s f ↔ ∃ a, found = some a ∧ (next a).EndsInFault s f := by
  have hnot := h.not_endsInFault f
  cases h with
  | @found a h =>
    rw [EndsInFault, bind_of_ok h]
    constructor
    · exact fun hnext => ⟨a, rfl, hnext⟩
    · rintro ⟨_, ⟨⟩, hnext⟩
      exact hnext
  | refused h =>
    rw [Action.endsInFault_bind_iff]
    constructor
    · rintro (hact | ⟨_, _, heq, _⟩)
      · exact absurd hact hnot
      · rw [h] at heq
        cases heq
    · rintro ⟨_, heq, _⟩
      cases heq

/-- Actions that do the same in a store find the same there. -/
theorem congr {act' : Action α} (h : act'.Finds s found) (heq : act s = act' s) : act.Finds s found := by
  cases h with
  | found h => exact .found (heq.trans h)
  | refused h he => exact .refused (heq.trans h) he

theorem bind (h : act.Finds s found) {next : α → Action β} (more : α → Option β)
    (hnext : ∀ a, found = some a → (next a).Finds s (more a)) :
    (act >>= next).Finds s (found.bind more) := by
  cases h with
  | @found a h => exact (hnext a rfl).congr (bind_of_ok h)
  | refused h he => exact .refused (bind_of_error h) he

theorem bind_none (h : act.Finds s none) {next : α → Action β} : (act >>= next).Finds s none :=
  h.bind (fun _ => none) nofun

theorem mapM {check : γ → Action α} {find : γ → Option α} (h : ∀ c, (check c).Finds s (find c))
    (cs : List γ) : (cs.mapM check).Finds s (cs.mapM find) := by
  induction cs with
  | nil => exact pure [] s
  | cons c cs ih =>
    rw [List.mapM_cons, List.mapM_cons]
    exact (h c).bind _ fun a _ => ih.bind _ fun as _ => pure (a :: as) s

end Finds

section

variable (who : Option Text) (v : Value) (s : Store)

theorem typeError_finds (e : TypeError) : (typeError e v : Action α).Finds s none := .refused rfl nofun

theorem evaluationError_finds (e : EvaluationError) : (evaluationError e : Action α).Finds s none :=
  .refused rfl nofun

theorem mismatch_finds (what : Expected) : (mismatch what who v : Action α).Finds s none :=
  typeError_finds v s _

end

end Action

/-! ### Typed arguments -/

namespace Value

/-- The integer that a value is. -/
def integer? : Value → Option Int
  | .atom (.int n) => some n
  | _ => none

/-- The character that a value is. -/
def char? : Value → Option CodePoint
  | .atom (.char c) => some c
  | _ => none

/-- The buffer of the string that a value is. -/
def buffer? : Value → Option BufferId
  | .atom (.str buffer) => some buffer
  | _ => none

/-- The port that a value is. -/
def port? : Value → Option PortId
  | .atom (.port id) => some id
  | _ => none

/-- The number that a value is. -/
def number? : Value → Option Number
  | .atom (.int n) => some (.int n)
  | .atom (.float x _) => some (.float x)
  | _ => none

theorem integer?_eq_some_iff {v : Value} {n : Int} : v.integer? = some n ↔ v = .int n := by
  unfold integer?
  split <;> simp_all

theorem buffer?_eq_some_iff {v : Value} {buffer : BufferId} :
    v.buffer? = some buffer ↔ v = .str buffer := by
  unfold buffer?
  split <;> simp_all

theorem char?_eq_some_iff {v : Value} {c : CodePoint} : v.char? = some c ↔ v = .char c := by
  unfold char?
  split <;> simp_all

theorem port?_eq_some_iff {v : Value} {id : PortId} : v.port? = some id ↔ v = .atom (.port id) := by
  unfold port?
  split <;> simp_all

end Value

namespace Action

section

variable (who : Option Text) (v : Value) (s : Store)

theorem asList_finds : (asList who v).Finds s (if v.isList then some v else none) := by
  unfold asList
  split
  · exact .pure v s
  · exact mismatch_finds who v s _

theorem asItems_finds : (asItems who v).Finds s (if v.isProper then some v.items else none) := by
  unfold asItems
  split
  · exact .pure _ s
  · exact mismatch_finds who v s _

theorem asProcedure_finds : (asProcedure who v).Finds s (if v.isProcedure then some v else none) := by
  unfold asProcedure
  split
  · exact .pure v s
  · exact mismatch_finds who v s _

theorem asString_finds : (asString who v).Finds s v.buffer? := by
  cases v with
  | atom a =>
    cases a with
    | str => exact .pure _ s
    | _ => exact mismatch_finds who _ s _
  | _ => exact mismatch_finds who _ s _

theorem asChar_finds : (asChar who v).Finds s v.char? := by
  cases v with
  | atom a =>
    cases a with
    | char => exact .pure _ s
    | _ => exact mismatch_finds who _ s _
  | _ => exact mismatch_finds who _ s _

theorem asInteger_finds : (asInteger who v).Finds s v.integer? := by
  cases v with
  | atom a =>
    cases a with
    | int => exact .pure _ s
    | _ => exact mismatch_finds who _ s _
  | _ => exact mismatch_finds who _ s _

theorem asPort_finds : (asPort who v).Finds s v.port? := by
  cases v with
  | atom a =>
    cases a with
    | port => exact .pure _ s
    | _ => exact mismatch_finds who _ s _
  | _ => exact mismatch_finds who _ s _

theorem asText_finds : (asText who v).Finds s (v.buffer?.map s.content) := by
  rw [Option.map_eq_bind]
  exact (asString_finds who v s).bind _ fun buffer _ => .found rfl

theorem asNumber_finds : (asNumber who v).Finds s (if v.number?.isSome then some v else none) := by
  cases v with
  | atom a =>
    cases a with
    | int | float => exact .pure _ s
    | _ => exact mismatch_finds who _ s _
  | _ => exact mismatch_finds who _ s _

theorem number_finds (who : Text) : (Primitive.number who v).Finds s v.number? := by
  cases v with
  | atom a =>
    cases a with
    | int | float => exact .pure _ s
    | _ => exact (mismatch_finds (some who) _ s .number).bind_none
  | _ => exact (mismatch_finds (some who) _ s .number).bind_none

end

/-! ### Guarded actions -/

namespace Guarded

theorem of_finds {act : Action α} {found : Store → Option α} (h : ∀ s, act.Finds s (found s)) :
    act.Guarded :=
  fun s f hf => ((h s).not_endsInFault f hf).elim

theorem pure (a : α) : (Pure.pure a : Action α).Guarded := .of_finds (.pure a)

theorem fail {e : Failure} (he : ∀ f, e ≠ .fault f) : (Action.fail e : Action α).Guarded :=
  .of_finds fun _ => .refused rfl he

theorem bind {act : Action α} {next : α → Action β} (h : act.Guarded) (hnext : ∀ a, (next a).Guarded) :
    (act >>= next).Guarded := by
  intro s f hf
  rcases endsInFault_bind_iff.mp hf with hf | ⟨a, s', -, hf⟩
  · exact h s f hf
  · exact hnext a s' f hf

/-- What follows a check is guarded if it is for what the check may find. -/
theorem finds_bind {act : Action α} {found : Store → Option α} {next : α → Action β}
    (h : ∀ s, act.Finds s (found s)) (hnext : ∀ s a, found s = some a → (next a).Guarded) :
    (act >>= next).Guarded := by
  intro s f hf
  obtain ⟨a, ha, hf⟩ := (h s).endsInFault_bind_iff.mp hf
  exact hnext s a ha s f hf

theorem mapM {act : γ → Action α} (h : ∀ c, (act c).Guarded) (cs : List γ) : (cs.mapM act).Guarded := by
  induction cs with
  | nil => exact pure []
  | cons c cs ih =>
    rw [List.mapM_cons]
    exact (h c).bind fun a => ih.bind fun as => pure (a :: as)

theorem modifyGet (change : Store → α × Store) : (MonadStateOf.modifyGet change : Action α).Guarded := by
  rintro s f ⟨_, h⟩
  cases h

theorem get : (MonadState.get : Action Store).Guarded := by
  have hfinds : ∀ s, (MonadState.get : Action Store).Finds s (some s) := fun _ => .found rfl
  exact .of_finds hfinds

end Guarded

/-- What follows an action does not end in a fault when it is guarded. -/
theorem endsInFault_bind_guarded_iff {α β : Type} {act : Action α} {next : α → Action β} {s : Store}
    {f : Fault} (hf : f ≠ .numeralTooLong) (hnext : ∀ a, (next a).Guarded) :
    (act >>= next).EndsInFault s f ↔ act.EndsInFault s f := by
  rw [endsInFault_bind_iff]
  refine or_iff_left ?_
  rintro ⟨a, s', -, h⟩
  exact hf (hnext a s' f h)

attribute [grind ←] Guarded.pure Guarded.bind Guarded.mapM Guarded.get

section

variable (who : Option Text) (v : Value)

@[grind ←] theorem typeError_guarded (e : TypeError) : (typeError e v : Action α).Guarded := .fail nofun

@[grind ←] theorem evaluationError_guarded (e : EvaluationError) :
    (evaluationError e : Action α).Guarded := .fail nofun

@[grind ←] theorem emptyList_guarded (e : EmptyListError) : (fail (.emptyList e) : Action α).Guarded :=
  .fail nofun

@[grind ←] theorem numeralTooLong_guarded : (fault .numeralTooLong : Action α).Guarded :=
  fun _ _ h => endsInFault_fault_iff.mp h

@[grind ←] theorem asSymbol_guarded : (asSymbol who v).Guarded := by
  unfold asSymbol
  split <;> grind [mismatch]

@[grind ←] theorem asList_guarded : (asList who v).Guarded := .of_finds (asList_finds who v)

@[grind ←] theorem asItems_guarded : (asItems who v).Guarded := .of_finds (asItems_finds who v)

@[grind ←] theorem asString_guarded : (asString who v).Guarded := .of_finds (asString_finds who v)

@[grind ←] theorem asChar_guarded : (asChar who v).Guarded := .of_finds (asChar_finds who v)

@[grind ←] theorem asInteger_guarded : (asInteger who v).Guarded := .of_finds (asInteger_finds who v)

@[grind ←] theorem asText_guarded : (asText who v).Guarded := .of_finds (asText_finds who v)

@[grind ←] theorem freshObject_guarded : freshObject.Guarded := .modifyGet _

@[grind ←] theorem newList_guarded (vs : List Value) : (newList vs).Guarded := by
  grind [newList]

@[grind ←] theorem newFloat_guarded (x : Float) : (newFloat x).Guarded := by
  grind [newFloat]

@[grind ←] theorem newString_guarded (t : Text) : (newString t).Guarded := .modifyGet _

@[grind ←] theorem freshSymbol_guarded (start : Text) : (freshSymbol start).Guarded := .modifyGet _

@[grind ←] theorem content_guarded (buffer : BufferId) : (content buffer).Guarded := by
  grind [content]

@[grind ←] theorem setContent_guarded (buffer : BufferId) (t : Text) : (setContent buffer t).Guarded :=
  .modifyGet _

@[grind ←] theorem newStream_guarded (stream : Stream) : (newStream stream).Guarded := .modifyGet _

@[grind ←] theorem newPort_guarded (p : Port) : (newPort p).Guarded := .modifyGet _

@[grind ←] theorem instantiate_guarded (d : Datum) : (instantiate d).Guarded := by
  induction d with
  | pair head tail ihead itail => grind [instantiate]
  | _ => grind [instantiate]

end

end Action

open Lisplet.Action

/-! ### Rows of so many arguments -/

namespace Arity

variable {args : List Value}

theorem exists_one (h : (exact 1).accepts args.length = true) : ∃ v, args = [v] :=
  List.length_eq_one_iff.mp (by exact_mod_cast (accepts_exact _ _).mp h)

theorem exists_two (h : (exact 2).accepts args.length = true) : ∃ v w, args = [v, w] :=
  List.length_eq_two.mp (by exact_mod_cast (accepts_exact _ _).mp h)

theorem exists_three (h : (exact 3).accepts args.length = true) : ∃ u v w, args = [u, v, w] :=
  List.length_eq_three.mp (by exact_mod_cast (accepts_exact _ _).mp h)

theorem accepts_range (least most count : Int) :
    (range least most).accepts count = true ↔ least ≤ count ∧ count ≤ most := by
  have h : (range least most).accepts count = (decide (least ≤ count) && decide (count ≤ most)) := rfl
  rw [h, Bool.and_eq_true, decide_eq_true_eq, decide_eq_true_eq]

/-- Two arguments at least. -/
theorem exists_cons_cons (h : (atLeast 2).accepts args.length = true) :
    ∃ v w more, args = v :: w :: more := by
  rw [accepts_atLeast] at h
  cases args with
  | nil => cases h
  | cons v more =>
    cases more with
    | nil =>
      rw [List.length_singleton] at h
      exact absurd h (by decide)
    | cons w more => exact ⟨v, w, more, rfl⟩

end Arity

/-! ### Guarded primitive procedures -/

namespace ListOp

@[grind ←] theorem head_guarded (who : Text) (v : Value) : (head who v).Guarded := by
  refine .bind (by grind) fun l => ?_
  split <;> grind

@[grind ←] theorem rest_guarded (l : Value) : (rest l).Guarded := by
  refine .bind (by grind) fun id => ?_
  split <;> grind

@[grind ←] theorem tail_guarded (who : Text) (v : Value) : (tail who v).Guarded :=
  .bind (by grind) rest_guarded

@[grind ←] theorem allItems_guarded (who : Text) (vs : List Value) : (allItems who vs).Guarded := by
  induction vs with
  | nil => grind [allItems]
  | cons v vs ih => grind [allItems]

@[grind ←] theorem appendAll_guarded (who : Text) (args : List Value) : (appendAll who args).Guarded := by
  unfold appendAll
  split <;> grind

@[grind ←] theorem dropTimes_guarded (who : Text) (index : Int) (k : Nat) (v : Value) :
    (dropTimes who index k v).Guarded := by
  induction k generalizing v with
  | zero => exact .pure v
  | succ k ih =>
    rw [dropTimes]
    split
    · exact .bind (rest_guarded v) ih
    · exact evaluationError_guarded _

@[grind ←] theorem dropPlaces_guarded (who : Text) (v : Value) (k : Int) :
    (dropPlaces who v k).Guarded := by
  grind [dropPlaces]

@[grind ←] theorem itemAt_guarded (who : Text) (v : Value) (k : Int) : (itemAt who v k).Guarded := by
  unfold itemAt
  split <;> grind

theorem run_guarded (op : ListOp) {args : List Value} (h : op.arity.accepts args.length = true) :
    (op.run args).Guarded := by
  cases op
  case list | append => grind [run]
  case cons | listTail | listRef =>
    obtain ⟨a, b, rfl⟩ := Arity.exists_two h
    grind [run]
  all_goals
    obtain ⟨v, rfl⟩ := Arity.exists_one h
    grind [run]

end ListOp

theorem TestOp.run_guarded (op : TestOp) {args : List Value} (h : op.arity.accepts args.length = true) :
    (op.run args).Guarded := by
  cases op
  case same | equivalent | equal =>
    obtain ⟨a, b, rfl⟩ := Arity.exists_two h
    grind [TestOp.run]
  all_goals
    obtain ⟨v, rfl⟩ := Arity.exists_one h
    grind [TestOp.run]

theorem CharOp.run_guarded (op : CharOp) {args : List Value} (h : op.arity.accepts args.length = true) :
    (op.run args).Guarded := by
  have hone : op.arity = .exact 1 := by cases op <;> rfl
  obtain ⟨v, rfl⟩ := Arity.exists_one (hone ▸ h)
  grind [CharOp.run]

namespace StringOp

@[grind ←] theorem index_guarded (who : Text) (limit : Int) (v : Value) :
    (index who limit v).Guarded := by
  grind [index]

@[grind ←] theorem range_guarded (who : Text) (size : Nat) (args : List Value) :
    (range who size args).Guarded := by
  match args with
  | [] => grind [range]
  | [_] => grind [range]
  | _ :: _ :: _ => grind [range]

@[grind ←] theorem part_guarded (who : Text) (v : Value) (bounds : List Value) :
    (part who v bounds).Guarded := by
  grind [part]

@[grind ←] theorem setPlace_guarded (who : Text) (v k c : Value) : (setPlace who v k c).Guarded := by
  grind [setPlace]

@[grind ←] theorem copyPart_guarded (who : Text) (target position source : Value) (bounds : List Value) :
    (copyPart who target position source bounds).Guarded := by
  grind [copyPart]

@[grind ←] theorem compareTexts_guarded (who : Text) (holds : Text → Text → Bool) (a b : Value) :
    (compareTexts who holds a b).Guarded := by
  grind [compareTexts]

/-- An index below the length of a text is a place in it. -/
theorem ref_guarded (who : Text) (v k : Value) : (do
    let t ← asText (some who) v
    let k ← index who ((t.length : Int) - 1) k
    match t[k]? with
    | some c => pure (Value.char c)
    | none => fault .operandMissing : Action Value).Guarded := by
  refine .bind (by grind) fun t s f hf => ?_
  rcases endsInFault_bind_iff.mp hf with hf | ⟨place, s', hplace, hf⟩
  · exact index_guarded who _ k s f hf
  · have hle := index_le hplace
    have hsome : t[place]? = some t[place] := List.getElem?_eq_getElem (by omega)
    rw [hsome] at hf
    exact Guarded.pure _ s' f hf

theorem run_guarded (op : StringOp) (hop : op ≠ .make) {args : List Value}
    (h : op.arity.accepts args.length = true) : (op.run args).Guarded := by
  cases op
  case make => exact absurd rfl hop
  case ref =>
    obtain ⟨v, k, rfl⟩ := Arity.exists_two h
    exact ref_guarded _ v k
  case ofChars | append => grind [run]
  case substring | copy =>
    cases args with
    | nil => exact absurd h (by decide)
    | cons v bounds => grind [run]
  case copyInto =>
    match args, h with
    | target :: position :: source :: bounds, _ => grind [run]
  case set =>
    obtain ⟨u, v, w, rfl⟩ := Arity.exists_three h
    grind [run]
  case fill | equal | less | greater | lessEqual | greaterEqual =>
    obtain ⟨a, b, rfl⟩ := Arity.exists_two h
    grind [run]
  all_goals
    obtain ⟨v, rfl⟩ := Arity.exists_one h
    grind [run]

end StringOp

namespace ConversionOp

@[grind ←] theorem radix_guarded (who : Text) (args : List Value) : (radix who args).Guarded := by
  cases args <;> grind [radix]

@[grind ←] theorem readNumber_guarded (r : Nat) (t : Text) : (readNumber r t).Guarded := by
  unfold readNumber
  split
  · split <;> grind [ofNumeral]
  · split <;> grind

/-- A number is not nested. -/
theorem print_number_ne {v : Value} (h : v.number?.isSome = true) (s : Store) (mode : PrintMode) (room : Nat) :
    s.print mode v room ≠ .error .nestedTooDeeply := by
  unfold Value.number? at h
  split at h
  next n =>
    rw [Store.print, Value.obstacle?, Atom.obstacle?]
    by_cases hfits : fitsDecimal n.natAbs = true
    · rw [if_pos hfits]
      intro hprint
      cases hprint
    · rw [if_neg hfits]
      intro hprint
      cases hprint
  next =>
    intro hprint
    cases hprint
  next => cases h

/-- A number has a text unless it is an integer of too many digits. -/
theorem print_number_guarded {v : Value} (h : v.number?.isSome = true) (room : Nat) :
    (Action.print .display v room).Guarded := by
  refine .bind .get fun s => ?_
  split
  next => exact .pure _
  next hprint => exact absurd hprint (print_number_ne h s _ room)
  next => exact numeralTooLong_guarded

theorem writeNumber_guarded (r : Nat) {v : Value} (h : v.number?.isSome = true) :
    (writeNumber r v).Guarded := by
  unfold writeNumber
  split
  · exact print_number_guarded h 0
  · split <;> grind

theorem run_guarded (op : ConversionOp) {args : List Value} (h : op.arity.accepts args.length = true) :
    (op.run args).Guarded := by
  cases op
  case integerToChar =>
    obtain ⟨v, rfl⟩ := Arity.exists_one h
    refine .bind (by grind) fun n => ?_
    split <;> grind
  case numberToString =>
    cases args with
    | nil => exact absurd h (by decide)
    | cons v more =>
      refine .finds_bind (asNumber_finds _ v) fun s w hw => ?_
      obtain ⟨hnumber, hw⟩ := Option.ite_none_right_eq_some.mp hw
      cases hw
      exact .bind (radix_guarded _ more) fun r =>
        .bind (writeNumber_guarded r hnumber) fun t => newString_guarded t
  case stringToNumber =>
    cases args with
    | nil => exact absurd h (by decide)
    | cons v more => grind [run]
  all_goals
    obtain ⟨v, rfl⟩ := Arity.exists_one h
    grind [run]

end ConversionOp

end Lisplet
