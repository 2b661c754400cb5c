import Lisplet.Proofs.Faults

/-!
# Faults of size

An integer that has no float cannot be combined with one, and a string has a largest length. Arithmetic
combines numbers from left to right, so it ends in a fault exactly when an integer without a float meets a
float on the way; making a string does when the length is beyond the largest.
-/

namespace Lisplet

open Lisplet.Action

/-! ### Arithmetic -/

namespace Number

/-- One of two numbers is an integer that has no float, and the other one is a float. -/
def Clashes : Number → Number → Prop
  | .int n, .float _ | .float _, .int n => floatOfInt? n = none
  | _, _ => False

theorem toFloat_int (n : Int) :
    (int n).toFloat = match floatOfInt? n with
      | some x => .ok x
      | none => .error .integerTooLarge := rfl

/-- A step on two numbers that are not both integers takes them as floats first, and that fails when they
clash. -/
theorem asFloats_eq_tooLarge_iff {a b : Number} (hmixed : ∀ m n, a = .int m → b ≠ .int n)
    {next : Float → Float → Except ArithmeticError Number}
    (hnext : ∀ x y, next x y ≠ .error .integerTooLarge) :
    (do
      let x ← a.toFloat
      let y ← b.toFloat
      next x y) = .error .integerTooLarge ↔ a.Clashes b := by
  cases a with
  | int m =>
    cases b with
    | int n => exact absurd rfl (hmixed m n rfl)
    | float y =>
      rw [toFloat_int, Clashes]
      cases floatOfInt? m with
      | none => exact ⟨fun _ => rfl, fun _ => rfl⟩
      | some x => exact ⟨fun h => absurd h (hnext x y), nofun⟩
  | float x =>
    cases b with
    | int n =>
      rw [toFloat_int, Clashes]
      cases floatOfInt? n with
      | none => exact ⟨fun _ => rfl, fun _ => rfl⟩
      | some y => exact ⟨fun h => absurd h (hnext x y), nofun⟩
    | float y => exact ⟨fun h => absurd h (hnext x y), nofun⟩

theorem combine_eq_tooLarge_iff (ints : Int → Int → Int) (floats : Float → Float → Float) (a b : Number) :
    combine ints floats a b = .error .integerTooLarge ↔ a.Clashes b := by
  unfold combine
  split
  next => exact ⟨nofun, nofun⟩
  next hmixed => exact asFloats_eq_tooLarge_iff (fun m n ha hb => hmixed m n ha hb) fun _ _ => nofun

theorem div_eq_tooLarge_iff (a b : Number) : a.div b = .error .integerTooLarge ↔ a.Clashes b := by
  unfold div
  split
  next => split <;> exact ⟨nofun, nofun⟩
  next hmixed =>
    refine asFloats_eq_tooLarge_iff (fun m n ha hb => hmixed m n ha hb) fun x y => ?_
    split <;> exact nofun

end Number

/-- A combination from left to right fails where one of its steps does. -/
theorem foldlM_eq_error_iff {ε α β : Type} {op : α → β → Except ε α} {first : α} {more : List β} {e : ε} :
    more.foldlM op first = .error e ↔ ∃ before b after total, more = before ++ b :: after ∧
      before.foldlM op first = .ok total ∧ op total b = .error e := by
  induction more generalizing first with
  | nil =>
    constructor
    · exact nofun
    · rintro ⟨before, _, _, _, h, -⟩
      exact absurd h (by simp)
  | cons b more ih =>
    rw [List.foldlM_cons]
    constructor
    · intro h
      cases hb : op first b with
      | error e' =>
        rw [hb] at h
        cases h
        exact ⟨[], b, more, first, rfl, rfl, hb⟩
      | ok total =>
        rw [hb] at h
        obtain ⟨before, c, after, total', rfl, hbefore, hc⟩ := ih.mp h
        refine ⟨b :: before, c, after, total', rfl, ?_, hc⟩
        rw [List.foldlM_cons, hb]
        exact hbefore
    · rintro ⟨before, c, after, total, h, hbefore, hc⟩
      cases before with
      | nil =>
        cases h
        cases hbefore
        rw [hc]
        rfl
      | cons b' before =>
        cases h
        rw [List.foldlM_cons] at hbefore
        cases hb : op first b with
        | error e' =>
          rw [hb] at hbefore
          cases hbefore
        | ok total' =>
          rw [hb] at hbefore
          exact ih.mpr ⟨before, c, after, total, rfl, hbefore, hc⟩

namespace NumberOp

/-- How an arithmetic procedure combines numbers from left to right: by which operation, from which number
on, and which numbers. -/
inductive Combines : NumberOp → List Number → (Number → Number → Except ArithmeticError Number) → Number →
    List Number → Prop
  | sum (nums : List Number) : Combines .add nums Number.add (.int 0) nums
  | product (nums : List Number) : Combines .mul nums Number.mul (.int 1) nums
  | difference (a b : Number) (more : List Number) :
      Combines .sub (a :: b :: more) Number.sub a (b :: more)
  | inverse (a : Number) : Combines .div [a] Number.div (.int 1) [a]
  | quotient (a b : Number) (more : List Number) :
      Combines .div (a :: b :: more) Number.div a (b :: more)

/-- On the way an integer that has no float is combined with a float. -/
def Overflows (op : NumberOp) (nums : List Number) : Prop :=
  ∃ operation first more, op.Combines nums operation first more ∧
    ∃ before a after total, more = before ++ a :: after ∧
      before.foldlM operation first = .ok total ∧ total.Clashes a

/-- Combining numbers ends in a fault for their size only. -/
theorem accumulate_endsInFault_iff {operation : Number → Number → Except ArithmeticError Number}
    {first : Number} {more : List Number} {s : Store} {f : Fault} :
    (Primitive.accumulate operation first more).EndsInFault s f ↔
      more.foldlM operation first = .error .integerTooLarge ∧ f = .integerTooLarge := by
  rw [Primitive.accumulate]
  cases more.foldlM operation first with
  | ok total =>
    refine ⟨?_, fun h => nomatch h.1⟩
    rintro ⟨_, h⟩
    cases total <;> cases h
  | error e =>
    cases e with
    | integerTooLarge =>
      refine ⟨?_, ?_⟩
      · rintro ⟨_, h⟩
        cases h
        exact ⟨rfl, rfl⟩
      · rintro ⟨-, rfl⟩
        exact ⟨s, rfl⟩
    | divisionByZero =>
      refine ⟨?_, fun h => nomatch h.1⟩
      rintro ⟨_, h⟩
      cases h

/-- What a procedure makes of its numbers ends in a fault when it is a combination that overflows. -/
theorem Combines.endsInFault_iff {op : NumberOp} {nums more : List Number}
    {operation : Number → Number → Except ArithmeticError Number} {first : Number}
    (h : op.Combines nums operation first more) {s : Store} {f : Fault} :
    (Primitive.accumulate operation first more).EndsInFault s f ↔
      op.Overflows nums ∧ f = .integerTooLarge := by
  have hclash : ∀ a b, operation a b = .error .integerTooLarge ↔ a.Clashes b := by
    cases h with
    | sum | product | difference => exact Number.combine_eq_tooLarge_iff _ _
    | inverse | quotient => exact Number.div_eq_tooLarge_iff
  rw [accumulate_endsInFault_iff, foldlM_eq_error_iff]
  simp only [hclash]
  refine and_congr_left fun _ => ⟨fun hmore => ⟨_, _, _, h, hmore⟩, ?_⟩
  rintro ⟨_, _, _, h', hmore⟩
  cases h <;> cases h' <;> exact hmore

theorem length_of_mapM_eq_some {α β : Type} {f : α → Option β} {l : List α} {bs : List β}
    (h : l.mapM f = some bs) : bs.length = l.length := by
  induction l generalizing bs with
  | nil =>
    cases h
    rfl
  | cons a l ih =>
    rw [List.mapM_cons] at h
    obtain ⟨b, -, h⟩ := Option.bind_eq_some_iff.mp h
    obtain ⟨cs, hcs, h⟩ := Option.bind_eq_some_iff.mp h
    cases h
    rw [List.length_cons, List.length_cons, ih hcs]

/-- The procedures that combine numbers from left to right. -/
def isArithmetic : NumberOp → Bool
  | .add | .sub | .mul | .div => true
  | _ => false

theorem Overflows.isArithmetic {op : NumberOp} {nums : List Number} (h : op.Overflows nums) :
    op.isArithmetic = true := by
  obtain ⟨_, _, _, h, -⟩ := h
  cases h <;> rfl

theorem ofNumber_guarded (n : Number) : (Primitive.ofNumber n).Guarded := by
  cases n <;> grind [Primitive.ofNumber]

/-- Numbers of arguments of which there is one at least. -/
theorem ne_nil_of_mapM_eq_some {args : List Value} {nums : List Number}
    (h : (Arity.atLeast 1).accepts args.length = true) (hnums : args.mapM Value.number? = some nums) :
    nums ≠ [] := by
  rintro rfl
  have hlength := length_of_mapM_eq_some hnums
  have hle := (Arity.accepts_atLeast _ _).mp h
  rw [← hlength] at hle
  exact absurd hle (by decide)

/-- Comparison, choice and division of integers combine no integer with a float. -/
theorem run_guarded {op : NumberOp} (hop : op.isArithmetic = false) {args : List Value}
    (h : op.arity.accepts args.length = true) : (op.run args).Guarded := by
  have hnumbers := fun s => Finds.mapM (fun v => number_finds v s op.name) args
  cases op
  case add | sub | mul | div => cases hop
  case quotient | remainder | modulo =>
    obtain ⟨a, b, rfl⟩ := Arity.exists_two h
    grind [run, Primitive.divisionArguments]
  case equal | less | lessEqual | greater | greaterEqual =>
    exact .finds_bind hnumbers fun s nums _ => .pure _
  case abs =>
    obtain ⟨v, rfl⟩ := Arity.exists_one h
    refine .finds_bind hnumbers fun s nums hnums => ?_
    obtain ⟨n, rfl⟩ := List.length_eq_one_iff.mp (length_of_mapM_eq_some hnums)
    exact ofNumber_guarded n.abs
  case min | max =>
    refine .finds_bind hnumbers fun s nums hnums => ?_
    cases nums with
    | nil => exact absurd rfl (ne_nil_of_mapM_eq_some h hnums)
    | cons n more => exact .pure _

/-- A number procedure ends in a fault when it combines numbers and an integer is too large for that. -/
theorem run_endsInFault_iff {op : NumberOp} {args : List Value} (h : op.arity.accepts args.length = true)
    {s : Store} {f : Fault} (hf : f ≠ .numeralTooLong) :
    (op.run args).EndsInFault s f ↔
      ∃ nums, args.mapM Value.number? = some nums ∧ op.Overflows nums ∧ f = .integerTooLarge := by
  cases hop : op.isArithmetic with
  | false =>
    refine iff_of_false (fun hrun => hf (run_guarded hop h s f hrun)) ?_
    rintro ⟨nums, -, hoverflows, -⟩
    rw [hoverflows.isArithmetic] at hop
    cases hop
  | true =>
    have hnumbers := Finds.mapM (fun v => number_finds v s op.name) args
    cases op
    case add =>
      refine hnumbers.endsInFault_bind_iff.trans (exists_congr fun nums => and_congr_right fun _ => ?_)
      exact (Combines.sum nums).endsInFault_iff
    case mul =>
      refine hnumbers.endsInFault_bind_iff.trans (exists_congr fun nums => and_congr_right fun _ => ?_)
      exact (Combines.product nums).endsInFault_iff
    case sub =>
      refine hnumbers.endsInFault_bind_iff.trans
        (exists_congr fun nums => and_congr_right fun hnums => ?_)
      match nums with
      | [] => exact absurd rfl (ne_nil_of_mapM_eq_some h hnums)
      | [a] =>
        refine iff_of_false (fun hneg => hf (ofNumber_guarded a.neg s f hneg)) ?_
        rintro ⟨⟨_, _, _, hcombines, -⟩, -⟩
        cases hcombines
      | a :: b :: more => exact (Combines.difference a b more).endsInFault_iff
    case div =>
      refine hnumbers.endsInFault_bind_iff.trans
        (exists_congr fun nums => and_congr_right fun hnums => ?_)
      match nums with
      | [] => exact absurd rfl (ne_nil_of_mapM_eq_some h hnums)
      | [a] => exact (Combines.inverse a).endsInFault_iff
      | a :: b :: more => exact (Combines.quotient a b more).endsInFault_iff
    all_goals cases hop

end NumberOp

/-! ### Strings -/

namespace StringOp

/-- A length that ends the making of a string in a fault. -/
def Exceeds (k : Int) (f : Fault) : Prop :=
  maxCount < k ∧ f = .countTooLarge ∨ maxLength < k ∧ k ≤ maxCount ∧ f = .outOfMemory

theorem Exceeds.large {k : Int} {f : Fault} (h : Exceeds k f) : 4294967296 < k := by
  rcases h with ⟨hcount, -⟩ | ⟨hlength, -⟩
  · exact Int.lt_trans (by decide) hcount
  · exact hlength

theorem newString_replicate_endsInFault_iff {k : Int} {c : CodePoint} {s : Store} {f : Fault} :
    (if maxCount < k then fault .countTooLarge
      else if maxLength < k then fault .outOfMemory
      else newString (List.replicate k.toNat c) : Action Value).EndsInFault s f ↔ Exceeds k f := by
  unfold Exceeds
  by_cases hcount : maxCount < k
  · rw [if_pos hcount, endsInFault_fault_iff]
    simp [hcount, Int.not_le.mpr hcount]
  · rw [if_neg hcount]
    by_cases hlength : maxLength < k
    · rw [if_pos hlength, endsInFault_fault_iff]
      simp [hcount, hlength, Int.not_lt.mp hcount]
    · rw [if_neg hlength]
      refine iff_of_false ?_ (by simp [hcount, hlength])
      rintro ⟨_, h⟩
      cases h

/-- Making a string ends in a fault when it is to be longer than anything can be. -/
theorem makeString_endsInFault_iff {who : Text} {count : Value} {filler : List Value} {s : Store}
    {f : Fault} :
    (makeString who count filler).EndsInFault s f ↔
      ∃ k, count = .int k ∧ (∀ v ∈ filler.head?, v.char?.isSome = true) ∧ Exceeds k f := by
  refine (asInteger_finds _ count s).endsInFault_bind_iff.trans ?_
  simp only [Value.integer?_eq_some_iff]
  refine exists_congr fun k => and_congr_right fun _ => ?_
  by_cases hneg : k < 0
  · rw [if_pos hneg]
    refine iff_of_false ((typeError_finds _ s _).not_endsInFault f) fun h => ?_
    have hlarge := h.2.large
    omega
  · rw [if_neg hneg]
    cases filler with
    | nil =>
      refine Iff.trans ?_ (and_iff_right nofun).symm
      exact newString_replicate_endsInFault_iff
    | cons v more =>
      refine (asChar_finds _ v s).endsInFault_bind_iff.trans ?_
      simp only [newString_replicate_endsInFault_iff, List.head?_cons, Option.mem_some_iff,
        forall_eq', Option.isSome_iff_exists, exists_and_right]

end StringOp

end Lisplet
