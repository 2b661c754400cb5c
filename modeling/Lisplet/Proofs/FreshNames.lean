import Lisplet.Proofs.NumberTexts
import Lisplet.Proofs.PrimitiveValues

/-!
# Fresh symbols

A fresh symbol is named by a prefix, a dash and the number of the symbol. The number is what stands behind the
last dash, whatever dashes and digits the prefix has, so names with different numbers are different. A run is
described by the calls for fresh symbols that succeed in it, in order. The number of the next symbol grows by
one with each of them and with nothing else, so they are numbered one after another, and no two of them give
the same symbol.
-/

namespace Lisplet

/-! ### Names -/

/-- A number is known from its text. -/
theorem natText_injective : Function.Injective natText := by
  intro m n h
  have hm := digitsValue?_natDigits (by omega : 2 ≤ 10) (by omega) m
  have hn := digitsValue?_natDigits (by omega : 2 ≤ 10) (by omega) n
  rw [natText, natText] at h
  rw [h, hn] at hm
  exact (Option.some.inj hm).symm

/-- The text of a number is made of digits. -/
theorem isSome_radixDigit?_of_mem_natText {n : Nat} {c : CodePoint} (h : c ∈ natText n) :
    (radixDigit? 10 c).isSome = true := by
  have hvalue := digitsValue?_natDigits (by omega : 2 ≤ 10) (by omega) n
  exact (isSome_digitsValue?_iff.mp (Option.isSome_of_eq_some hvalue)).2 c h

theorem dash_not_mem_natText (n : Nat) : ('-' : CodePoint) ∉ natText n := by
  intro h
  have hdash : (radixDigit? 10 ('-' : CodePoint)).isSome = false := by decide
  exact absurd (hdash.symm.trans (isSome_radixDigit?_of_mem_natText h)) (by simp)

/-- What stands behind the last dash of a text. -/
def lastPart (t : Text) : Text := (t.reverse.takeWhile fun c => decide (c ≠ ('-' : CodePoint))).reverse

/-- Behind the last dash of a fresh name stands its number. -/
theorem lastPart_freshName (start : Text) (n : Nat) : lastPart (freshName start n) = natText n := by
  have hdigits : ∀ c ∈ (natText n).reverse, decide (c ≠ ('-' : CodePoint)) = true := by
    intro c hc
    refine decide_eq_true ?_
    rintro rfl
    exact dash_not_mem_natText n (List.mem_reverse.mp hc)
  have hdash : text "-" = [('-' : CodePoint)] := rfl
  have hreverse : (freshName start n).reverse = (natText n).reverse ++ ('-' : CodePoint) :: start.reverse := by
    simp [freshName, hdash]
  rw [lastPart, hreverse, List.takeWhile_append_of_pos hdigits, List.takeWhile_cons_of_neg (by simp),
    List.append_nil, List.reverse_reverse]

/-- Fresh names are the same just if their prefixes and their numbers are. -/
theorem freshName_inj {start start' : Text} {m n : Nat} :
    freshName start m = freshName start' n ↔ start = start' ∧ m = n := by
  constructor
  · intro h
    have hlast := congrArg lastPart h
    rw [lastPart_freshName, lastPart_freshName] at hlast
    obtain rfl := natText_injective hlast
    rw [freshName, freshName, List.append_left_inj, List.append_left_inj] at h
    exact ⟨h, rfl⟩
  · rintro ⟨rfl, rfl⟩
    rfl

/-- A prefix may be a fresh name. -/
example : freshName (freshName (text "gensym") 1) 2 = text "gensym-1-2" := rfl

/-! ### Calls for fresh symbols -/

/-- A successful call for a fresh symbol: the prefix that it asked for, and what it gave. -/
structure Issue where
  start : Text
  symbol : Value

namespace Action

/-- The calls for fresh symbols that succeed in the run of an action from a store on, in order. Without such a
call the number of the next symbol stays as it is; what is restored at the end of an action leaves it, too. -/
inductive Issues : {α : Type} → Action α → Store → List Issue → Prop
  | none {α : Type} {act : Action α} {s : Store} (h : (act.after s).nextFresh = s.nextFresh) : Issues act s []
  | call {ev : Evaluator} {args : List Value} {scope : ScopeId} {s s' : Store} {start : Text} {v : Value}
      (hstart : s.freshPrefix? args = some start) (h : ControlOp.gensym.run ev args scope s = .ok (.value v) s') :
      Issues (ControlOp.gensym.run ev args scope) s [⟨start, v⟩]
  | bind {α β : Type} {act : Action α} {next : α → Action β} {s s' : Store} {a : α} {issues more : List Issue}
      (h : Issues act s issues) (hact : act s = .ok a s') (hnext : Issues (next a) s' more) :
      Issues (act >>= next) s (issues ++ more)
  | bind_error {α β : Type} {act : Action α} {next : α → Action β} {s s' : Store} {e : Signal}
      {issues : List Issue} (h : Issues act s issues) (hact : act s = .error e s') : Issues (act >>= next) s issues
  | limited {α : Type} {act : Action α} {s : Store} {issues : List Issue} (h : Issues act s issues) :
      Issues (limited act) s issues
  | ensuring {α : Type} {act : Action α} {restore : Store → Store} {s : Store} {issues : List Issue}
      (h : Issues act s issues) (hrestore : ∀ s', (restore s').nextFresh = s'.nextFresh) :
      Issues (ensuring act restore) s issues

end Action

/-- Fresh symbols that are numbered one after another, from a number on. -/
def Numbered (n : Nat) (issues : List Issue) : Prop :=
  ∀ (k : Nat) (issue : Issue), issues[k]? = some issue → issue.symbol = .sym (freshName issue.start (n + k))

namespace Numbered

theorem nil (n : Nat) : Numbered n [] := fun k _ h => by simp at h

theorem append {n : Nat} {issues more : List Issue} (h : Numbered n issues)
    (hmore : Numbered (n + issues.length) more) : Numbered n (issues ++ more) := by
  intro k issue hk
  by_cases hlt : k < issues.length
  · rw [List.getElem?_append_left hlt] at hk
    exact h k issue hk
  · rw [List.getElem?_append_right (by omega)] at hk
    have hsymbol := hmore _ issue hk
    rwa [show n + issues.length + (k - issues.length) = n + k by omega] at hsymbol

end Numbered

namespace Action

variable {α β : Type}

/-- The calls for fresh symbols in a run use up the numbers of their symbols, one after another, and nothing else
does. By induction on the run. -/
theorem Issues.numbered {act : Action α} {s : Store} {issues : List Issue} (h : act.Issues s issues) :
    (act.after s).nextFresh = s.nextFresh + issues.length ∧ Numbered s.nextFresh issues := by
  induction h with
  | none h => exact ⟨h, .nil _⟩
  | @call ev args scope s s' start v hstart h =>
    rw [ControlOp.run_gensym hstart] at h
    obtain ⟨hv, rfl⟩ := EStateM.Result.ok.inj h
    refine ⟨?_, fun k issue hk => ?_⟩
    · rw [after_of_ok (ControlOp.run_gensym hstart ev scope)]
      rfl
    · have hzero : k = 0 := by
        have hlt := (List.getElem?_eq_some_iff.mp hk).1
        simpa using hlt
      subst hzero
      obtain rfl : Issue.mk start v = issue := by simpa using hk
      exact (Step.value.inj hv).symm
  | @bind α β act next s s' a issues more h hact hnext ih ihnext =>
    rw [after_of_ok hact] at ih
    -- The numbers of the second part begin where those of the first one end.
    rw [ih.1] at ihnext
    refine ⟨?_, ih.2.append ihnext.2⟩
    rw [after_bind_of_ok hact, ihnext.1, List.length_append]
    omega
  | bind_error h hact ih =>
    rw [after_of_error hact] at ih
    rwa [after_of_error (bind_of_error hact)]
  | limited h ih => rwa [after_limited]
  | ensuring h hrestore ih => rwa [after_ensuring, hrestore]

end Action

end Lisplet
