import Lisplet.Evaluation.Evaluator
import Lisplet.Proofs.Outcomes

/-!
# Arguments bound to parameters

A call makes its scope first, counts the arguments by a test of its own for each sort of parameters, and then binds
one name after another. The three tests are those of the arity that the parameters have, and what is bound in the
end is one table. So a call either ends with a new scope that holds the table, or is refused for its arity in a
store with one more empty scope.
-/

namespace Lisplet

/-- A definition in the newest scope. -/
theorem Scopes.define_push (scopes : Scopes) (t : Table Value) (m : Table ClosureId) (parent : Option ScopeId)
    (name : Text) (v : Value) : Scopes.define (scopes.push ⟨t, m, parent⟩) scopes.size name v =
      scopes.push ⟨t.put name v, m, parent⟩ := by
  apply Array.ext_getElem?
  intro i
  rw [define, Array.getElem?_modify, Array.getElem?_push, Array.getElem?_push]
  by_cases hi : i = scopes.size
  · rw [if_pos hi.symm, if_pos hi, if_pos hi]
    rfl
  · rw [if_neg (Ne.symm hi), if_neg hi, if_neg hi]

/-- The store with a new scope inside another one. -/
def Store.withScope (s : Store) (parent : ScopeId) (t : Table Value) : Store :=
  { s with scopes := s.scopes.push ⟨t, [], some parent⟩ }

/-- The store with one identity given out. -/
def Store.withObject (s : Store) : Store := { s with nextObject := s.nextObject + 1 }

namespace Action

theorem define_withScope (s : Store) (parent : ScopeId) (t : Table Value) (name : Text) (v : Value) :
    define s.scopes.size name v (s.withScope parent t) = .ok () (s.withScope parent (t.put name v)) := by
  have hscopes : Scopes.define (s.withScope parent t).scopes s.scopes.size name v =
      (s.withScope parent (t.put name v)).scopes := Scopes.define_push s.scopes t [] (some parent) name v
  show EStateM.Result.ok () { s.withScope parent t with
    scopes := Scopes.define (s.withScope parent t).scopes s.scopes.size name v } = _
  rw [hscopes]
  rfl

/-- Names bound one after another in a new scope are put into its table in this order. -/
theorem defineEach_withScope (s : Store) (parent : ScopeId) (entries : List (Text × Value)) (t : Table Value) :
    defineEach s.scopes.size entries (s.withScope parent t) =
      .ok () (s.withScope parent (entries.foldl (fun t entry => Table.put entry.1 entry.2 t) t)) := by
  induction entries generalizing t with
  | nil => rfl
  | cons entry entries ih =>
    rw [defineEach, bind_of_ok (define_withScope s parent t entry.1 entry.2), ih, List.foldl_cons]

end Action

/-- The bindings of a call: one for every parameter in order, a repeated name keeping its last value. The left-over
arguments become a new list. -/
def Params.bindings (p : Params) (restList : ObjectId) (args : List Value) : Table Value :=
  let single := (p.required.zip args).foldl (fun t entry => Table.put entry.1 entry.2 t) []
  match p.rest with
  | none => single
  | some name => Table.put name (Value.ofList restList (args.drop p.required.length)) single

namespace Closure

variable {c : Closure} {args : List Value} {s : Store}

/-- Every sort of parameters counts arguments as their arity does, and refuses them in its words. -/
theorem countArguments_eq (c : Closure) (provided : Nat) : c.countArguments provided =
    if c.params.arity.accepts provided then pure ()
    else Action.fail (.arity c.params.arity c.shownName provided) := by
  obtain ⟨name, ⟨required, rest⟩, body, scope⟩ := c
  cases rest with
  | none =>
    have haccepts := Arity.accepts_exact required.length provided
    show (if provided ≠ required.length then _ else _ : Action Unit) = if (Arity.exact _).accepts _ then _ else _
    by_cases hcount : provided = required.length
    · rw [if_neg (not_not.mpr hcount), if_pos (haccepts.mpr (congrArg Int.ofNat hcount))]
    · rw [if_pos hcount, if_neg fun h => hcount (Int.ofNat_inj.mp (haccepts.mp h))]
      rfl
  | some rest =>
    have haccepts := Arity.accepts_atLeast required.length provided
    cases required with
    | nil =>
      -- Without single parameters no number of arguments is too small.
      show (pure () : Action Unit) = if (Arity.atLeast _).accepts _ then _ else _
      rw [if_pos (haccepts.mpr (Int.natCast_nonneg provided))]
    | cons single required =>
      show (if provided < _ then _ else _ : Action Unit) = if (Arity.atLeast _).accepts _ then _ else _
      by_cases hcount : provided < (single :: required).length
      · rw [if_pos hcount, if_neg fun h => Nat.not_le.mpr hcount (Int.ofNat_le.mp (haccepts.mp h))]
        rfl
      · rw [if_neg hcount, if_pos (haccepts.mpr (Int.ofNat_le.mpr (Nat.not_lt.mp hcount)))]

/-- Arguments that the arity admits are bound in a new scope. -/
theorem bindArguments_of_accepts (h : c.params.arity.accepts args.length = true) :
    c.bindArguments args s =
      .ok s.scopes.size (s.withObject.withScope c.scope (c.params.bindings s.nextObject args)) := by
  have hscope : Action.newScope c.scope [] s = .ok s.scopes.size (s.withScope c.scope []) := rfl
  have hcount : c.countArguments args.length (s.withScope c.scope []) = .ok () (s.withScope c.scope []) := by
    rw [countArguments_eq, if_pos h]
    rfl
  rw [bindArguments, bind_of_ok hscope, bind_of_ok hcount, bind_of_ok (Action.defineEach_withScope ..),
    Params.bindings]
  have hfresh (t : Table Value) : Action.freshObject (s.withScope c.scope t) =
      .ok s.nextObject (s.withObject.withScope c.scope t) := rfl
  rw [bind_of_ok (hfresh _)]
  cases c.params.rest with
  | none => rfl
  | some name => exact (bind_of_ok (Action.define_withScope s.withObject c.scope _ name _)).trans rfl

/-- All others are refused, when the new scope is still empty. -/
theorem bindArguments_of_not_accepts (h : ¬ c.params.arity.accepts args.length = true) :
    c.bindArguments args s =
      .error (.failure (.arity c.params.arity c.shownName args.length)) (s.withScope c.scope []) := by
  have hscope : Action.newScope c.scope [] s = .ok s.scopes.size (s.withScope c.scope []) := rfl
  have hcount : c.countArguments args.length (s.withScope c.scope []) =
      .error (.failure (.arity c.params.arity c.shownName args.length)) (s.withScope c.scope []) := by
    rw [countArguments_eq, if_neg h]
    rfl
  rw [bindArguments, bind_of_ok hscope, bind_of_error hcount]

end Closure

namespace Evaluator

variable {ev : Evaluator} {id : ClosureId} {c : Closure} {args : List Value} {s : Store}

/-- A closure is entered in a new scope inside its own, where its parameters are bound. -/
theorem applyClosure_eq (hc : s.closures[id]? = some c) (harity : c.params.arity.accepts args.length = true) :
    ev.applyClosure id args s = ev.sequence s.scopes.size c.body
      (s.withObject.withScope c.scope (c.params.bindings s.nextObject args)) := by
  rw [applyClosure, get_bind, hc]
  exact bind_of_ok (Closure.bindArguments_of_accepts harity)

/-- A wrong number of arguments keeps a closure from being entered. -/
theorem applyClosure_of_not_accepts (hc : s.closures[id]? = some c)
    (harity : ¬ c.params.arity.accepts args.length = true) :
    ev.applyClosure id args s =
      .error (.failure (.arity c.params.arity c.shownName args.length)) (s.withScope c.scope []) := by
  rw [applyClosure, get_bind, hc]
  exact bind_of_error (Closure.bindArguments_of_not_accepts harity)

end Evaluator

end Lisplet
