import Lisplet.Proofs.FreshNames
import Lisplet.Proofs.PolicyEvaluation

/-!
# Calls for fresh symbols in evaluation

The successful calls for fresh symbols can be listed for every run of a session, wherever they stand: in
procedures and transformers, in operands and templates, in files that are loaded and sources that are evaluated,
before a failure, too. Every action of evaluation is put together from actions that leave the number of the next
symbol alone and from these calls, so their lists follow from those of its parts.
-/

namespace Lisplet

namespace Action

variable {α β : Type}

/-- What looks at the store issues none, so it can follow without a trace. -/
theorem Issues.bind_looks {act : Action α} {next : α → Action β} {s : Store} {issues : List Issue}
    (h : act.Issues s issues) (hnext : ∀ a, (next a).Looks) : (act >>= next).Issues s issues := by
  cases hact : act s with
  | ok a s' =>
    have hall := h.bind hact (.none (congrArg Store.nextFresh (hnext a s')))
    rwa [List.append_nil] at hall
  | error e s' => exact h.bind_error hact

/-- From a store on, the successful calls for fresh symbols in the run of an action can be listed, and its value
fits the store that it leaves. -/
def Lists (act : Action α) (s : Store) (post : α → Store → Prop) : Prop :=
  (∃ issues, act.Issues s issues) ∧ ∀ a s', act s = .ok a s' → post a s'

namespace Lists

variable {act : Action α} {s : Store} {post : α → Store → Prop} {post' : β → Store → Prop}

/-- What issues none. -/
theorem of_same (h : (act.after s).nextFresh = s.nextFresh) (hpost : ∀ a s', act s = .ok a s' → post a s') :
    act.Lists s post := ⟨⟨[], .none h⟩, hpost⟩

theorem of_drifts {good : α → Prop} (h : act.Drifts good) : act.Lists s fun a _ => good a :=
  of_same (h s).1.fresh (h s).2

theorem imp {post' : α → Store → Prop} (h : act.Lists s post) (himp : ∀ a s', post a s' → post' a s') :
    act.Lists s post' := ⟨h.1, fun a s' ha => himp a s' (h.2 a s' ha)⟩

theorem bind {next : α → Action β} (h : act.Lists s post) (hnext : ∀ a s', post a s' → (next a).Lists s' post') :
    (act >>= next).Lists s post' := by
  obtain ⟨⟨issues, hissues⟩, hpost⟩ := h
  cases hact : act s with
  | ok a s' =>
    obtain ⟨⟨more, hmore⟩, hpost'⟩ := hnext a s' (hpost a s' hact)
    exact ⟨⟨issues ++ more, hissues.bind hact hmore⟩, fun b s'' hb => hpost' b s'' ((bind_of_ok hact).symm.trans hb)⟩
  | error e s' =>
    exact ⟨⟨issues, hissues.bind_error hact⟩, fun b s'' hb => nomatch (bind_of_error hact).symm.trans hb⟩

theorem limited (h : act.Lists s post) : (Action.limited act).Lists s post := by
  obtain ⟨⟨issues, hissues⟩, hpost⟩ := h
  refine ⟨⟨issues, hissues.limited⟩, fun a s' ha => ?_⟩
  rcases limited_cases act s with heq | ⟨s'', -, heq⟩
  · exact hpost a s' (heq ▸ ha)
  · cases heq.symm.trans ha

/-- What is restored at the end of an action leaves the number of the next symbol alone. -/
theorem ensuring {restore : Store → Store} (h : act.Lists s post)
    (hrestore : ∀ s', (restore s').nextFresh = s'.nextFresh) (hpost : ∀ a s', post a s') :
    (Action.ensuring act restore).Lists s post := by
  obtain ⟨⟨issues, hissues⟩, -⟩ := h
  exact ⟨⟨issues, hissues.ensuring hrestore⟩, fun a s' _ => hpost a s'⟩

end Lists

end Action

open Lisplet.Action

/-- By this policy the calls for fresh symbols can be listed. Code may be handed everything, and it may run and
bind names everywhere. -/
def Policy.listing : Policy where
  Obeys := Lists
  Good _ := True
  Later _ _ := True
  AdmitsAtom _ _ := True
  Opens _ _ := True
  Binds _ := True
  Yields _ _ := True
  IsStrict := False
  of_ok h hpost := .of_same (by rw [after_of_ok h]) fun _ _ ha => by cases h.symm.trans ha; exact hpost
  of_error h _ := .of_same (by rw [after_of_error h]) fun _ _ ha => nomatch h.symm.trans ha
  bind h hnext := h.bind fun a s' ha => hnext a s' trivial ha
  of_good h := h trivial
  limited := .limited
  drifts h _ := .of_drifts h
  strict h := h.elim
  gensym hstart ev scope := by
    have hrun := ControlOp.run_gensym hstart ev scope
    refine ⟨⟨_, .call hstart hrun⟩, fun step s' hstep => ?_⟩
    cases hrun.symm.trans hstep
    trivial
  newPort port s := .of_same rfl fun v s' hv => by cases hv; exact ⟨_, rfl, trivial⟩
  closing port h := h.ensuring (fun s' => (s'.closePort_drifts port).fresh) fun v _ => v.everywhere_true
  redirecting {act s} direction stream port h := by
    have henter : (modify (·.redirect direction stream) : Action Unit).Lists s
        fun _ s' => s' = s.redirect direction stream :=
      .of_same (s.nextFresh_redirect direction stream) fun _ _ hrun => by cases hrun; rfl
    refine henter.bind fun _ s' hs' => hs' ▸ h.ensuring (fun s'' => ?_) fun v _ => v.everywhere_true
    exact (Store.closePort_drifts _ port).fresh.trans (Store.nextFresh_redirect s'' direction _)
  later_redirect _ _ _ := trivial
  later_atom _ _ := trivial
  later_opens _ _ := trivial
  later_yields _ _ _ _ := trivial
  plain _ _ := trivial
  binds _ _ := trivial
  root _ := trivial
  closure _ _ _ := ⟨trivial, fun v _ => v.everywhere_true⟩
  newScope _ _ := .of_same rfl fun _ _ _ => ⟨trivial, trivial⟩
  newClosure _ _ := .of_same rfl fun _ _ _ => trivial
  define _ _ _ := .of_same rfl fun _ _ _ => trivial
  defineTransformer _ _ _ := .of_same rfl fun _ _ _ => trivial
  assign {scope v s} _ name _ := by
    refine .of_same ?_ fun _ _ _ => trivial
    rw [after, Action.assign, get_bind]
    cases s.scopes.binder? scope name <;> rfl
  lookup _ name := (Lists.of_drifts (lookup_looks _ name).drifts).imp fun v _ _ => v.everywhere_true
  transformer? _ name := (Lists.of_drifts (transformer?_looks _ name).drifts).imp fun _ _ _ _ _ => trivial

theorem Session.Request.perform_listed (b : Bounds) (r : Request) (s : Store) :
    ∃ issues, (r.perform b).Issues s issues := by
  have h : Policy.listing.Governs b.evaluator :=
    Evaluator.nested_governed (fun _ _ => trivial) b.rounds b.nesting b.depth
  refine (r.perform_obeys h id fun expr _ _ => ⟨?_, trivial⟩).1
  exact expr.everywhere_true

end Lisplet
