import Lisplet.Text.CodePoint

/-!
# Ranges of code points

Tables of a character property are ascending lists of ranges or of runs with a step; the two
searches here stop at the first range that lies beyond the code point.
-/

namespace Lisplet

/-- Whether an ascending list of ranges covers a number. -/
def inRanges : List (Nat × Nat) → Nat → Bool
  | [], _ => false
  | (first, last) :: more, n => if n < first then false else n ≤ last || inRanges more n

/-- Whether an ascending list of runs reaches a number by whole steps. -/
def inRuns : List (Nat × Nat × Nat) → Nat → Bool
  | [], _ => false
  | (first, last, step) :: more, n =>
    if n < first then false
    else (n ≤ last && (n - first) % step == 0) || inRuns more n

/-- Moves a number by the distance of the run that reaches it. -/
def shifted : List (Nat × Nat × Nat × Int) → Nat → Nat
  | [], n => n
  | (first, last, step, distance) :: more, n =>
    if n < first then n
    else if n ≤ last && (n - first) % step == 0 then (n + distance).toNat
    else shifted more n

/-- A covered number lies in one of the ranges. -/
theorem exists_of_inRanges {ranges : List (Nat × Nat)} {n : Nat} (h : inRanges ranges n = true) :
    ∃ r ∈ ranges, r.1 ≤ n ∧ n ≤ r.2 := by
  induction ranges with
  | nil => simp [inRanges] at h
  | cons r more ih =>
    obtain ⟨first, last⟩ := r
    simp only [inRanges] at h
    split at h
    · simp at h
    · rename_i hlt
      rcases Bool.or_eq_true_iff.1 h with hle | hmore
      · exact ⟨_, List.mem_cons_self, by omega, of_decide_eq_true hle⟩
      · obtain ⟨r, hr, hb⟩ := ih hmore
        exact ⟨r, List.mem_cons_of_mem _ hr, hb⟩

end Lisplet
