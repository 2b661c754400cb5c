import Mathlib.Algebra.BigOperators.Group.List.Basic
import Mathlib.Algebra.BigOperators.Ring.List
import Mathlib.Algebra.Order.Group.Unbundled.Int
import Mathlib.Data.Int.ModEq
import Lisplet.Proofs.Leaks

/-!
# Division of integers

A quotient is that of the magnitudes with the sign that the two signs make, so it goes toward zero, and a remainder
is what is left of the dividend; `modulo` takes the quotient toward the floor instead, so that what is left has the
sign of the divisor. The four procedures divide integers of any
size, each by these rules, and fail only where a divisor is zero. Division in turn by some integers goes toward
zero after each of them, which comes to the same as one division by their product.
-/

namespace Lisplet

/-! ### Quotients and remainders -/

/-- The quotient of the magnitudes, with the sign that the two signs make, goes toward zero. -/
theorem truncateDiv_eq_tdiv (n d : Int) : truncateDiv n d = n.tdiv d := by
  have hmagnitudes : ((n.natAbs / d.natAbs : Nat) : Int) = (n.natAbs : Int).tdiv d.natAbs := Int.ofNat_tdiv _ _
  rw [truncateDiv, hmagnitudes]
  -- Each magnitude is the integer or its negation, and a negation on one side goes in front of the quotient.
  rcases lt_or_ge n 0 with hn | hn <;> rcases lt_or_ge d 0 with hd | hd
  · rw [if_pos (iff_of_true hn hd), Int.ofNat_natAbs_of_nonpos hn.le, Int.ofNat_natAbs_of_nonpos hd.le,
      Int.neg_tdiv_neg]
  · rw [if_neg (by omega), Int.ofNat_natAbs_of_nonpos hn.le, Int.natAbs_of_nonneg hd, Int.neg_tdiv, neg_neg]
  · rw [if_neg (by omega), Int.natAbs_of_nonneg hn, Int.ofNat_natAbs_of_nonpos hd.le, Int.tdiv_neg, neg_neg]
  · rw [if_pos (iff_of_false hn.not_gt hd.not_gt), Int.natAbs_of_nonneg hn, Int.natAbs_of_nonneg hd]

/-- What the quotient toward zero leaves of the dividend. -/
theorem sub_mul_truncateDiv (n d : Int) : n - d * truncateDiv n d = n.tmod d := by
  rw [truncateDiv_eq_tdiv, Int.tmod_def]

/-- Going toward zero twice is going toward zero once. -/
theorem tdiv_tdiv (n a b : Int) : (n.tdiv a).tdiv b = n.tdiv (a * b) := by
  have hnat : ∀ k i j : Nat, ((k : Int).tdiv i).tdiv j = (k : Int).tdiv (i * j) := by
    intro k i j
    exact_mod_cast congrArg Int.ofNat (Nat.div_div_eq_div_mul k i j)
  obtain ⟨k, rfl | rfl⟩ := n.eq_nat_or_neg <;> obtain ⟨i, rfl | rfl⟩ := a.eq_nat_or_neg <;>
    obtain ⟨j, rfl | rfl⟩ := b.eq_nat_or_neg <;>
    simp only [Int.neg_tdiv, Int.tdiv_neg, neg_mul, mul_neg, neg_neg, hnat]

/-- The remainder toward zero is smaller than the divisor and has the sign of the dividend. -/
theorem tmod_sign_and_abs (n : Int) {d : Int} (hd : d ≠ 0) :
    (n.tmod d = 0 ∨ (n.tmod d).sign = n.sign) ∧ |n.tmod d| < |d| := by
  constructor
  · by_cases hdvd : d ∣ n
    · exact .inl (Int.tmod_eq_zero_of_dvd hdvd)
    · rw [Int.sign_tmod, if_neg hdvd]
      exact .inr rfl
  · rw [Int.abs_eq_natAbs, Int.abs_eq_natAbs, Int.natAbs_tmod]
    exact_mod_cast Nat.mod_lt _ (Int.natAbs_pos.mpr hd)

/-- The remainder toward the floor is smaller than the divisor and has its sign. -/
theorem fmod_sign_and_abs (n : Int) {d : Int} (hd : d ≠ 0) :
    (n.fmod d = 0 ∨ (n.fmod d).sign = d.sign) ∧ |n.fmod d| < |d| := by
  have hnonneg := Int.emod_nonneg n hd
  have hlt := Int.emod_lt_abs n hd
  rw [Int.fmod_eq_emod]
  rcases lt_or_gt_of_ne hd with hneg | hpos
  · rw [abs_of_neg hneg] at hlt ⊢
    by_cases hdvd : d ∣ n
    · simp [hdvd, Int.emod_eq_zero_of_dvd hdvd, hneg]
    · have hne : n % d ≠ 0 := fun h => hdvd (Int.dvd_of_emod_eq_zero h)
      rw [if_neg (by omega), Int.sign_eq_neg_one_of_neg hneg, Int.sign_eq_neg_one_of_neg (by omega), abs_lt]
      omega
  · rw [if_pos (.inl hpos.le), add_zero, abs_of_nonneg hnonneg, Int.sign_eq_one_of_pos hpos]
    refine ⟨?_, hlt⟩
    rcases hnonneg.eq_or_lt with h | h
    · exact .inl h.symm
    · exact .inr (Int.sign_eq_one_of_pos h)

theorem fmod_modEq (n d : Int) : n.fmod d ≡ n [ZMOD d] := by
  rw [Int.modEq_iff_dvd, Int.fmod_def, sub_sub_cancel]
  exact dvd_mul_right d _

/-- The two remainders differ by the divisor where the one toward zero has the other sign. -/
theorem fmod_eq_of_sign (n : Int) {d : Int} (hd : d ≠ 0) :
    n.fmod d = if n.tmod d = 0 ∨ (n.tmod d).sign = d.sign then n.tmod d else n.tmod d + d := by
  rw [Int.fmod_eq_tmod]
  by_cases hdvd : d ∣ n
  · simp [hdvd, Int.tmod_eq_zero_of_dvd hdvd]
  have hne : n.tmod d ≠ 0 := fun h => hdvd (Int.dvd_of_tmod_eq_zero h)
  have hn : n ≠ 0 := by
    rintro rfl
    exact hdvd (dvd_zero d)
  -- The remainder has the sign of the dividend, so that the two signs decide.
  simp only [hne, false_or, Int.sign_tmod, hdvd, if_false]
  rcases lt_or_gt_of_ne hn with hn | hn <;> rcases lt_or_gt_of_ne hd with hd | hd
  · rw [Int.sign_eq_neg_one_of_neg hn, Int.sign_eq_neg_one_of_neg hd]
    (repeat' split) <;> omega
  · rw [Int.sign_eq_neg_one_of_neg hn, Int.sign_eq_one_of_pos hd]
    (repeat' split) <;> omega
  · rw [Int.sign_eq_one_of_pos hn, Int.sign_eq_neg_one_of_neg hd]
    (repeat' split) <;> omega
  · rw [Int.sign_eq_one_of_pos hn, Int.sign_eq_one_of_pos hd]
    (repeat' split) <;> omega

/-! ### Integers combined in turn -/

namespace Number

/-- Division in turn fails at a zero, and is division by the product otherwise. -/
theorem foldlM_div (n : Int) (ds : List Int) : (ds.map Number.int).foldlM div (.int n) =
    if 0 ∈ ds then .error .divisionByZero else .ok (.int (n.tdiv ds.prod)) := by
  induction ds generalizing n with
  | nil => simp [Int.tdiv_one, pure, Except.pure]
  | cons d ds ih =>
    rw [List.map_cons, List.foldlM_cons]
    by_cases hd : d = 0
    · simp [div, hd, bind, Except.bind]
    · have hdiv : div (.int n) (.int d) = .ok (.int (n.tdiv d)) := by
        rw [← truncateDiv_eq_tdiv]
        exact if_neg hd
      rw [hdiv]
      show (ds.map Number.int).foldlM div (.int (n.tdiv d)) = _
      rw [ih, List.prod_cons, tdiv_tdiv]
      simp [Ne.symm hd]

/-- Multiplication in turn is multiplication by the product. -/
theorem foldlM_mul (n : Int) (ds : List Int) :
    (ds.map Number.int).foldlM mul (.int n) = .ok (.int (n * ds.prod)) := by
  induction ds generalizing n with
  | nil => simp [pure, Except.pure]
  | cons d ds ih =>
    rw [List.map_cons, List.foldlM_cons]
    show (ds.map Number.int).foldlM mul (.int (n * d)) = _
    rw [ih, List.prod_cons, Int.mul_assoc]

end Number

namespace NumberOp

section

variable (ev : Evaluator) (scope : ScopeId) (s : Store)

/-- A call of a number procedure with integers. -/
def callOn (op : NumberOp) (ns : List Int) : Action Step :=
  (Primitive.numbers op).call ev (ns.map Value.int) scope

/-- A call with integers gives an integer and leaves the store alone. -/
def Gives (op : NumberOp) (ns : List Int) (m : Int) : Prop :=
  op.callOn ev scope ns s = .ok (.value (.int m)) s

/-- A call with integers fails since it divides by zero, and leaves the store alone. -/
def DividesByZero (op : NumberOp) (ns : List Int) : Prop :=
  ∃ who, op.callOn ev scope ns s = .error (.failure (.evaluation (.divisionByZero who))) s

/-- A procedure divides an integer by another one as a rule says, unless that is zero. -/
structure DividesBy (op : NumberOp) (rule : Int → Int → Int) : Prop where
  by_zero (n : Int) : op.DividesByZero ev scope s [n, 0]
  gives (n : Int) {d : Int} (hd : d ≠ 0) : op.Gives ev scope s [n, d] (rule n d)

variable {ev scope s}

theorem Gives.not_dividesByZero {op : NumberOp} {ns : List Int} {m : Int} (h : op.Gives ev scope s ns m) :
    ¬op.DividesByZero ev scope s ns := by
  rintro ⟨who, hfails⟩
  exact nomatch h.symm.trans hfails

theorem DividesBy.fails_iff {op : NumberOp} {rule : Int → Int → Int} (h : op.DividesBy ev scope s rule)
    (n d : Int) : op.DividesByZero ev scope s [n, d] ↔ d = 0 := by
  constructor
  · intro hfails
    by_contra hd
    exact (h.gives n hd).not_dividesByZero hfails
  · rintro rfl
    exact h.by_zero n

theorem DividesBy.congr {op : NumberOp} {rule rule' : Int → Int → Int} (h : op.DividesBy ev scope s rule)
    (hsame : ∀ n d, rule n d = rule' n d) : op.DividesBy ev scope s rule' where
  by_zero := h.by_zero
  gives n _ hd := hsame n _ ▸ h.gives n hd

variable (ev scope s)

/-- Integers are checked and taken as they are. -/
theorem mapM_number (who : Text) (ns : List Int) :
    (ns.map Value.int).mapM (Primitive.number who) s = .ok (ns.map Number.int) s := by
  induction ns with
  | nil => rfl
  | cons n ns ih =>
    have hnumber : Primitive.number who (.int n) s = .ok (.int n) s := rfl
    rw [List.map_cons, List.mapM_cons, bind_of_ok hnumber, bind_of_ok ih]
    rfl

/-- A call whose number of arguments is accepted does what the procedure does. -/
theorem callOn_of_run {op : NumberOp} (ns : List Int) (hcount : op.arity.accepts ns.length = true) :
    op.callOn ev scope ns s = (op.run (ns.map Value.int) >>= fun v => pure (Step.value v)) s := by
  have haccepts : (Primitive.numbers op).arity.accepts (ns.map Value.int).length = true := by
    rw [List.length_map]
    exact hcount
  rw [callOn, Primitive.call_of_accepts haccepts]
  rfl

/-- A divisor of zero is found before anything is divided. -/
theorem divisionArguments_eq (who : Text) (n d : Int) :
    Primitive.divisionArguments who [.int n, .int d] s =
      if d = 0 then .error (.failure (.evaluation (.divisionByZero (some who)))) s else .ok (n, d) s := by
  show (if d = 0 then Action.evaluationError (.divisionByZero (some who)) else pure (n, d) :
    Action (Int × Int)) s = _
  split <;> rfl

/-- A procedure that checks its two integers first and then divides them by a rule. -/
theorem dividesBy_of_run {op : NumberOp} {rule : Int → Int → Int} (hcount : op.arity.accepts 2 = true)
    (hrun : ∀ n d : Int, op.run [.int n, .int d] =
      Primitive.divisionArguments op.name [.int n, .int d] >>= fun p => pure (.int (rule p.1 p.2))) :
    op.DividesBy ev scope s rule where
  by_zero n := by
    have hargs := divisionArguments_eq s op.name n 0
    rw [if_pos rfl] at hargs
    refine ⟨some op.name, (callOn_of_run ev scope s [n, 0] hcount).trans (bind_of_error ?_)⟩
    simp only [List.map_cons, List.map_nil, hrun]
    exact bind_of_error hargs
  gives n d hd := by
    have hargs := divisionArguments_eq s op.name n d
    rw [if_neg hd] at hargs
    refine (callOn_of_run ev scope s [n, d] hcount).trans (bind_of_ok ?_)
    simp only [List.map_cons, List.map_nil, hrun]
    exact bind_of_ok hargs

theorem quotient_dividesBy : quotient.DividesBy ev scope s Int.tdiv :=
  (dividesBy_of_run ev scope s rfl fun _ _ => rfl).congr truncateDiv_eq_tdiv

theorem remainder_dividesBy : remainder.DividesBy ev scope s Int.tmod :=
  (dividesBy_of_run ev scope s rfl fun _ _ => rfl).congr sub_mul_truncateDiv

theorem modulo_dividesBy : modulo.DividesBy ev scope s Int.fmod :=
  dividesBy_of_run ev scope s rfl fun _ _ => rfl

/-- Numbers that are combined in turn without an error. -/
theorem accumulate_of_ok {op : Number → Number → Except ArithmeticError Number} {first : Number}
    {more : List Number} {m : Int} (h : more.foldlM op first = .ok (.int m)) :
    Primitive.accumulate op first more s = .ok (.int m) s := by
  rw [Primitive.accumulate, h]
  rfl

theorem accumulate_of_zero {op : Number → Number → Except ArithmeticError Number} {first : Number}
    {more : List Number} (h : more.foldlM op first = .error .divisionByZero) :
    Primitive.accumulate op first more s = .error (.failure (.evaluation (.divisionByZero none))) s := by
  rw [Primitive.accumulate, h]
  rfl

theorem mul_gives (ns : List Int) : mul.Gives ev scope s ns ns.prod := by
  have hproduct := Number.foldlM_mul 1 ns
  rw [Int.one_mul] at hproduct
  have hrun : mul.run (ns.map Value.int) s = .ok (.int ns.prod) s :=
    (bind_of_ok (mapM_number s mul.name ns)).trans (accumulate_of_ok s hproduct)
  exact (callOn_of_run ev scope s _ rfl).trans (bind_of_ok hrun)

/-- A number is divided by some integers in turn. -/
theorem div_in_turn (n : Int) {ds : List Int} (hne : ds ≠ []) :
    (0 ∈ ds → div.DividesByZero ev scope s (n :: ds)) ∧
      (0 ∉ ds → div.Gives ev scope s (n :: ds) (n.tdiv ds.prod)) := by
  obtain ⟨d, more, rfl⟩ := List.exists_cons_of_ne_nil hne
  have hcount : div.arity.accepts (n :: d :: more).length = true := by
    refine (Arity.accepts_atLeast 1 _).mpr ?_
    rw [List.length_cons]
    omega
  have hrun : div.run ((n :: d :: more).map Value.int) s =
      Primitive.accumulate Number.div (.int n) ((d :: more).map Number.int) s :=
    bind_of_ok (mapM_number s div.name (n :: d :: more))
  have hquotient := Number.foldlM_div n (d :: more)
  constructor
  · intro hzero
    rw [if_pos hzero] at hquotient
    have hfails := hrun.trans (accumulate_of_zero s hquotient)
    exact ⟨none, (callOn_of_run ev scope s _ hcount).trans (bind_of_error hfails)⟩
  · intro hzero
    rw [if_neg hzero] at hquotient
    have hgives := hrun.trans (accumulate_of_ok s hquotient)
    exact (callOn_of_run ev scope s _ hcount).trans (bind_of_ok hgives)

theorem div_fails_iff (n : Int) {ds : List Int} (hne : ds ≠ []) :
    div.DividesByZero ev scope s (n :: ds) ↔ 0 ∈ ds := by
  obtain ⟨hfails, hgives⟩ := div_in_turn ev scope s n hne
  refine ⟨fun h => ?_, hfails⟩
  by_contra hzero
  exact (hgives hzero).not_dividesByZero h

theorem div_dividesBy : div.DividesBy ev scope s Int.tdiv where
  by_zero n := (div_in_turn ev scope s n (List.cons_ne_nil 0 [])).1 List.mem_cons_self
  gives n d hd := by
    have hgives := (div_in_turn ev scope s n (List.cons_ne_nil d [])).2 (by simpa using Ne.symm hd)
    rwa [List.prod_singleton] at hgives

/-- One number is divided into one. -/
theorem div_one (d : Int) : div.callOn ev scope [d] s = div.callOn ev scope [1, d] s := by
  rw [callOn_of_run ev scope s _ rfl, callOn_of_run ev scope s _ rfl]
  rfl

end

/-- What the division of integers gives on behalf of code in a scope and a store. -/
structure DivisionLaws (ev : Evaluator) (scope : ScopeId) (s : Store) : Prop where
  /-- Two integers are divided unless the second one is zero. -/
  fails_iff {op : NumberOp} (hop : op ∈ [quotient, remainder, modulo, div]) (n d : Int) :
    op.DividesByZero ev scope s [n, d] ↔ d = 0
  /-- Quotient and remainder make up the dividend; the remainder is smaller than the divisor and has the sign
  of the dividend. -/
  remains (n : Int) {d : Int} (hd : d ≠ 0) : ∃ q r, quotient.Gives ev scope s [n, d] q ∧
    remainder.Gives ev scope s [n, d] r ∧ n = d * q + r ∧ |r| < |d| ∧ (r = 0 ∨ r.sign = n.sign)
  /-- The remainder of `modulo` has the sign of the divisor. -/
  modulo_congruent (n : Int) {d : Int} (hd : d ≠ 0) : ∃ m, modulo.Gives ev scope s [n, d] m ∧
    m ≡ n [ZMOD d] ∧ (m = 0 ∨ m.sign = d.sign) ∧ |m| < |d|
  modulo_remainder (n : Int) {d : Int} (hd : d ≠ 0) : ∃ r, remainder.Gives ev scope s [n, d] r ∧
    modulo.Gives ev scope s [n, d] (if r = 0 ∨ r.sign = d.sign then r else r + d)
  /-- Division of integers gives the quotient. -/
  div_quotient (n : Int) {d : Int} (hd : d ≠ 0) : ∃ q, quotient.Gives ev scope s [n, d] q ∧
    div.Gives ev scope s [n, d] q
  div_fails_iff (n : Int) {ds : List Int} (hne : ds ≠ []) : div.DividesByZero ev scope s (n :: ds) ↔ 0 ∈ ds
  /-- Division in turn gives the quotient by the product. -/
  div_product (n : Int) {ds : List Int} (hne : ds ≠ []) (hzero : 0 ∉ ds) : ∃ p q, mul.Gives ev scope s ds p ∧
    quotient.Gives ev scope s [n, p] q ∧ div.Gives ev scope s (n :: ds) q
  /-- Division of one integer divides one by it. -/
  reciprocal_fails_iff (d : Int) : div.DividesByZero ev scope s [d] ↔ d = 0
  reciprocal {d : Int} (hd : d ≠ 0) : ∃ q, quotient.Gives ev scope s [1, d] q ∧ div.Gives ev scope s [d] q

/-- Division of integers obeys its laws for all signs and sizes. -/
theorem divisionLaws (ev : Evaluator) (scope : ScopeId) (s : Store) : DivisionLaws ev scope s := by
  have hquotient := quotient_dividesBy ev scope s
  have hremainder := remainder_dividesBy ev scope s
  have hmodulo := modulo_dividesBy ev scope s
  have hdiv := div_dividesBy ev scope s
  have hone : ∀ d, div.DividesByZero ev scope s [d] ↔ div.DividesByZero ev scope s [1, d] := by
    intro d
    simp only [DividesByZero, div_one]
  constructor
  case fails_iff =>
    intro op hop n d
    simp only [List.mem_cons, List.not_mem_nil, or_false] at hop
    rcases hop with rfl | rfl | rfl | rfl
    · exact hquotient.fails_iff n d
    · exact hremainder.fails_iff n d
    · exact hmodulo.fails_iff n d
    · exact hdiv.fails_iff n d
  case remains =>
    intro n d hd
    obtain ⟨hsign, habs⟩ := tmod_sign_and_abs n hd
    exact ⟨_, _, hquotient.gives n hd, hremainder.gives n hd, (Int.mul_tdiv_add_tmod n d).symm, habs, hsign⟩
  case modulo_congruent =>
    intro n d hd
    obtain ⟨hsign, habs⟩ := fmod_sign_and_abs n hd
    exact ⟨_, hmodulo.gives n hd, fmod_modEq n d, hsign, habs⟩
  case modulo_remainder =>
    intro n d hd
    refine ⟨_, hremainder.gives n hd, ?_⟩
    rw [← fmod_eq_of_sign n hd]
    exact hmodulo.gives n hd
  case div_quotient =>
    intro n d hd
    exact ⟨_, hquotient.gives n hd, hdiv.gives n hd⟩
  case div_fails_iff =>
    intro n ds hne
    exact NumberOp.div_fails_iff ev scope s n hne
  case div_product =>
    intro n ds hne hzero
    have hproduct : ds.prod ≠ 0 := List.prod_ne_zero hzero
    exact ⟨_, _, mul_gives ev scope s ds, hquotient.gives n hproduct, (div_in_turn ev scope s n hne).2 hzero⟩
  case reciprocal_fails_iff =>
    intro d
    exact (hone d).trans (hdiv.fails_iff 1 d)
  case reciprocal =>
    intro d hd
    exact ⟨_, hquotient.gives 1 hd, (div_one ev scope s d).trans (hdiv.gives 1 hd)⟩

end NumberOp

end Lisplet
