import Mathlib.Tactic.Common

/-!
# Outcomes of actions

An action that changes a state ends with a value or is refused, and gives the state in both cases. The
outcome of a sequence follows from the outcomes of its parts; so does that of an action whose value is
mapped.
-/

namespace Lisplet

variable {ε σ α β : Type}

/-- An action that goes on with the value of another one. -/
theorem bind_of_ok {act : EStateM ε σ α} {next : α → EStateM ε σ β} {s s' : σ} {a : α}
    (h : act s = .ok a s') : (act >>= next) s = next a s' := by
  show EStateM.bind act next s = next a s'
  rw [EStateM.bind, h]

/-- A refused action ends the sequence. -/
theorem bind_of_error {act : EStateM ε σ α} {next : α → EStateM ε σ β} {s s' : σ} {e : ε}
    (h : act s = .error e s') : (act >>= next) s = .error e s' := by
  show EStateM.bind act next s = .error e s'
  rw [EStateM.bind, h]

/-- Mapping the value of an action. -/
theorem map_of_ok {act : EStateM ε σ α} (f : α → β) {s s' : σ} {a : α} (h : act s = .ok a s') :
    (f <$> act) s = .ok (f a) s' := by
  show EStateM.map f act s = .ok (f a) s'
  rw [EStateM.map, h]

theorem map_of_error {act : EStateM ε σ α} (f : α → β) {s s' : σ} {e : ε} (h : act s = .error e s') :
    (f <$> act) s = .error e s' := by
  show EStateM.map f act s = .error e s'
  rw [EStateM.map, h]

/-- Actions with the same outcome have the same outcome when their values are mapped. -/
theorem map_of_eq {act act' : EStateM ε σ α} (f : α → β) {s s' : σ} (h : act s = act' s') :
    (f <$> act) s = (f <$> act') s' := by
  show EStateM.map f act s = EStateM.map f act' s'
  rw [EStateM.map, EStateM.map, h]

/-- What an action does that begins with a look at the state. -/
theorem get_bind (next : σ → EStateM ε σ β) (s : σ) :
    ((get : EStateM ε σ σ) >>= next) s = next s s := rfl

/-- What an action does that begins with a change of the state. -/
theorem modifyGet_bind (change : σ → α × σ) (next : α → EStateM ε σ β) (s : σ) :
    ((modifyGet change : EStateM ε σ α) >>= next) s = next (change s).1 (change s).2 := rfl

end Lisplet
