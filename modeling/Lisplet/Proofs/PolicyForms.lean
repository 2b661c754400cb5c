import Lisplet.Proofs.Policies

/-!
# Forms obey policies

Forms evaluate their parts in scopes where code may run, or in new ones inside these. They bind names in scopes
that they have made themselves; only definitions and assignments bind names in scopes that were there before. So
a form obeys a policy whenever the evaluation of its parts does, if it is none of these or names may be bound
where it runs.

A form that is given as many operands as it takes finds all that it takes apart, or it refuses their shape: after
the checks of bindings, loops and clauses every part has its place, and an element of a template that is not
spliced gives one item.
-/

namespace Lisplet

open Lisplet.Action Policy.Terms

/-- The forms that bind names where others may have bound them. -/
def SpecialForm.writing : List SpecialForm := [.define, .assign, .defineTransformer]

variable {p : Policy} {s : Store} {scope : ScopeId} {ev : Evaluator}

section

variable (h : p.Governs ev)

include h

/-! ### Templates -/

namespace Template

omit h in
/-- The list of a hole has one operand, or the hole is refused. -/
theorem operand_obeys {name form : Text} {element : Value} (hheaded : isHeaded name element = true)
    (helement : p.Admits element s) : p.Obeys (operand form element) s p.Admits := by
  cases element with
  | list id head rest last =>
    rw [operand.eq_def]
    split
    · next e heq =>
      cases heq
      exact .pure (helement.items e (List.mem_cons_of_mem head List.mem_cons_self))
    · exact .shapeError _
    · next hother => exact absurd rfl (hother id head rest last)
  | _ => cases hheaded

theorem spliced_obeys {element : Value} (hheaded : isHeaded spliceName element = true)
    (helement : p.Admits element s) (hscope : p.Opens scope s) :
    p.Obeys (spliced ev scope element) s p.AdmitsAll := by
  refine (operand_obeys hheaded helement).bind fun e s1 h1 he => (h.eval he (hscope.later h1)).bind
    fun v s2 _ hv => ?_
  split
  · exact .pure hv.items
  · exact .typeError _ v

omit h in
/-- The expression of a hole in tail position is an item. -/
theorem mem_of_tailHole? {rest : List Value} {e : Value} (hhole : tailHole? rest = some e) : e ∈ rest := by
  unfold tailHole? at hhole
  split at hhole
  · next mark e' =>
    obtain ⟨-, heq⟩ := Option.ite_none_right_eq_some.mp hhole
    cases heq
    exact List.mem_cons_of_mem mark List.mem_cons_self
  · cases hhole

mutual

/-- An element that is not spliced contributes one item. -/
theorem fillElement_obeys (element : Value) {s : Store} (helement : p.Admits element s)
    (hscope : p.Opens scope s) : p.Obeys (fillElement ev scope element) s fun items s' =>
      p.AdmitsAll items s' ∧ (isHeaded spliceName element = false → ∃ v, items = [v]) := by
  cases element with
  | atom a => exact .pure ⟨admitsAll_singleton helement, fun _ => ⟨_, rfl⟩⟩
  | nil => exact .pure ⟨admitsAll_singleton (admits_of_isPlain trivial), fun _ => ⟨_, rfl⟩⟩
  | list id head rest last =>
    rw [fillElement]
    split
    · next hsplice =>
      refine (spliced_obeys h hsplice helement hscope).imp fun items s' _ hitems => ⟨hitems, fun hnot => ?_⟩
      rw [hsplice] at hnot
      cases hnot
    split
    · next hhole =>
      exact (operand_obeys hhole helement).bind fun e s1 h1 he => (h.eval he (hscope.later h1)).bind
        fun v s2 _ hv => .pure ⟨admitsAll_singleton hv, fun _ => ⟨v, rfl⟩⟩
    · obtain ⟨hitems, hending⟩ := Value.everywhere_iff.mp helement
      obtain ⟨hhead, hrest⟩ := List.forall_mem_cons.mp hitems
      refine (fillElement_obeys head hhead hscope).bind fun first s1 h1 hfirst =>
        (fillRest_obeys last.isNone rest (AdmitsAll.later hrest h1) (hscope.later h1)).bind
        fun filled s2 h2 hfilled => freshObject_obeys.bind fun newId s3 h3 _ => ?_
      obtain ⟨items, tail⟩ := filled
      have hfront : p.AdmitsAll (first ++ items) s3 :=
        List.forall_mem_append.mpr ⟨(hfirst.1.later h2).later h3, hfilled.1.later h3⟩
      cases tail with
      | some v =>
        have htail : p.Admits v s3 := (hfilled.2 v rfl).later h3
        exact .pure ⟨admitsAll_singleton (Value.everywhere_append_iff.mpr ⟨hfront, htail⟩), fun _ => ⟨_, rfl⟩⟩
      | none =>
        have hlast : ∀ a ∈ last, p.AdmitsAtom a s3 := fun a ha =>
          p.later_atom (p.later_atom (p.later_atom (hending a ha) h1) h2) h3
        exact .pure ⟨admitsAll_singleton (Value.everywhere_assemble_iff.mpr ⟨hfront, hlast⟩), fun _ => ⟨_, rfl⟩⟩

theorem fillRest_obeys (isProper : Bool) (rest : List Value) {s : Store} (hrest : p.AdmitsAll rest s)
    (hscope : p.Opens scope s) : p.Obeys (fillRest ev scope isProper rest) s fun filled s' =>
      p.AdmitsAll filled.1 s' ∧ ∀ v ∈ filled.2, p.Admits v s' := by
  cases rest with
  | nil => exact .pure ⟨admitsAll_nil, fun v hv => by cases hv⟩
  | cons element more =>
    obtain ⟨helement, hmore⟩ := admitsAll_cons_iff.mp hrest
    rw [fillRest]
    split
    · next e hhole =>
      have he : e ∈ element :: more := by
        obtain ⟨-, hhole⟩ := Option.ite_none_right_eq_some.mp hhole
        exact mem_of_tailHole? hhole
      refine (h.eval (hrest e he) hscope).bind fun v s1 _ hv => .pure ⟨admitsAll_nil, fun w hw => ?_⟩
      cases hw
      exact hv
    · exact (fillElement_obeys element helement hscope).bind fun first s1 h1 hfirst =>
        (fillRest_obeys isProper more (hmore.later h1) (hscope.later h1)).bind fun filled s2 h2 hfilled =>
        .pure ⟨List.forall_mem_append.mpr ⟨hfirst.1.later h2, hfilled.1⟩, hfilled.2⟩

end

/-- A template is filled to one value. -/
theorem fill_obeys {template : Value} (htemplate : p.Admits template s) (hscope : p.Opens scope s) :
    p.Obeys (fill ev scope template) s p.Admits := by
  unfold fill
  split
  · exact .shapeError _
  · next hsplice =>
    refine (fillElement_obeys h template htemplate hscope).bind fun items s1 _ hitems => ?_
    obtain ⟨v, rfl⟩ := hitems.2 (Bool.eq_false_iff.mpr hsplice)
    exact .pure (hitems.1 v List.mem_cons_self)

end Template

namespace Forms

/-! ### Conditions -/

theorem conditional_obeys {test yes : Value} {no : List Value} (hoperands : p.AdmitsAll (test :: yes :: no) s)
    (hscope : p.Opens scope s) : p.Obeys (conditional ev scope (test :: yes :: no)) s p.AdmitsStep := by
  obtain ⟨htest, hmore⟩ := admitsAll_cons_iff.mp hoperands
  obtain ⟨hyes, hno⟩ := admitsAll_cons_iff.mp hmore
  refine (h.eval htest hscope).bind fun t s1 h1 _ => ?_
  split
  · exact .pure ⟨hyes.later h1, hscope.later h1⟩
  · cases no with
    | nil => exact .pure (admits_of_isPlain trivial)
    | cons expr more => exact .pure ⟨(hno expr List.mem_cons_self).later h1, hscope.later h1⟩

theorem conjunction_obeys {operands : List Value} (hoperands : p.AdmitsAll operands s)
    (hscope : p.Opens scope s) : p.Obeys (conjunction ev scope operands) s p.AdmitsStep := by
  induction operands generalizing s with
  | nil => exact .pure (admits_of_isPlain trivial)
  | cons expr more ih =>
    obtain ⟨hexpr, hmore⟩ := admitsAll_cons_iff.mp hoperands
    cases more with
    | nil => exact .pure ⟨hexpr, hscope⟩
    | cons next more =>
      refine (h.eval hexpr hscope).bind fun v s1 h1 _ => ?_
      split
      · exact ih (hmore.later h1) (hscope.later h1)
      · exact .pure (admits_of_isPlain trivial)

theorem disjunction_obeys {operands : List Value} (hoperands : p.AdmitsAll operands s)
    (hscope : p.Opens scope s) : p.Obeys (disjunction ev scope operands) s p.AdmitsStep := by
  induction operands generalizing s with
  | nil => exact .pure (admits_of_isPlain trivial)
  | cons expr more ih =>
    obtain ⟨hexpr, hmore⟩ := admitsAll_cons_iff.mp hoperands
    cases more with
    | nil => exact .pure ⟨hexpr, hscope⟩
    | cons next more =>
      refine (h.eval hexpr hscope).bind fun v s1 h1 hv => ?_
      split
      · exact .pure hv
      · exact ih (hmore.later h1) (hscope.later h1)

/-- A receiver is applied to the value of the test, or it is refused. -/
theorem receive_obeys {receivers : List Value} {v : Value} (hreceivers : p.AdmitsAll receivers s)
    (hv : p.Admits v s) (hscope : p.Opens scope s) : p.Obeys (receive ev scope receivers v) s p.AdmitsStep := by
  rw [receive.eq_def]
  split
  · next expr =>
    refine (h.eval (hreceivers expr List.mem_cons_self) hscope).bind fun proc s1 h1 hproc => ?_
    refine asProcedure_bind_obeys fun hprocedure => .get_bind ?_
    cases proc with
    | atom a =>
      split
      · exact .shapeError _
      · split
        · exact h.apply hproc (admitsAll_singleton (hv.later h1)) (hscope.later h1)
        · exact .shapeError _
      · next hother => exact absurd rfl (hother a)
    | _ => cases hprocedure
  · exact .shapeError _

theorem conclude_obeys {body : List Value} {v : Value} (hbody : p.AdmitsAll body s) (hv : p.Admits v s)
    (hscope : p.Opens scope s) : p.Obeys (conclude ev scope v body) s p.AdmitsStep := by
  cases body with
  | nil => exact .pure hv
  | cons first rest =>
    rw [conclude]
    split
    · exact receive_obeys h (admitsAll_cons_iff.mp hbody).2 hv hscope
    · exact h.sequence hbody hscope

theorem tryClauses_obeys {clauses : List Value} (hclauses : p.AdmitsAll clauses s) (hscope : p.Opens scope s)
    (hshape : AreClauses clauses) : p.Obeys (tryClauses ev scope clauses) s p.AdmitsStep := by
  induction clauses generalizing s with
  | nil => exact .pure (admits_of_isPlain trivial)
  | cons clause more ih =>
    obtain ⟨id, test, body, rfl⟩ := hshape.shape clause List.mem_cons_self
    obtain ⟨hclause, hmore⟩ := admitsAll_cons_iff.mp hclauses
    obtain ⟨htest, hbody⟩ := admitsAll_cons_iff.mp hclause.items
    rw [tryClauses_list]
    split
    · exact h.sequence hbody hscope
    · refine (h.eval htest hscope).bind fun v s1 h1 hv => ?_
      split
      · exact conclude_obeys h (hbody.later h1) hv (hscope.later h1)
      · exact ih (hmore.later h1) (hscope.later h1) (areClauses_cons_iff.mp hshape).2

/-- Clauses of another shape are refused before they are taken apart. -/
theorem cond_obeys {clauses : List Value} (hclauses : p.AdmitsAll clauses s) (hscope : p.Opens scope s) :
    p.Obeys (cond ev scope clauses) s p.AdmitsStep := by
  rw [cond]
  by_cases hshape : AreClauses clauses
  · rw [hshape.check, pure_bind]
    exact tryClauses_obeys h hclauses hscope hshape
  · obtain ⟨e, he, hcheck⟩ := exists_check_eq_error hshape ev.nesting s
    exact p.of_error (bind_of_error hcheck) fun _ => he.isInRange

/-! ### Bindings -/

omit h in
/-- Names with values that may be handed to code. -/
theorem admits_of_mem_tableOf {names : List Text} {values : List Value} (hvalues : p.AdmitsAll values s) :
    ∀ entry ∈ tableOf names values, p.Admits entry.2 s :=
  fun _ hentry => hvalues _ (mem_of_mem_tableOf hentry)

omit h in
/-- What follows the reading of bindings obeys if it does for all whose inits may be handed to code; anything
else is refused. -/
theorem bindings_bind_obeys {nesting : Nat} {form : Text} {spec : Value} {next : List Binding → Action Step}
    (hspec : p.Admits spec s)
    (hnext : ∀ pairs, p.AdmitsAll (pairs.map (·.2)) s → p.Obeys (next pairs) s p.AdmitsStep) :
    p.Obeys (bindings nesting form spec >>= next) s p.AdmitsStep := by
  by_cases hrow : IsRowOf IsBinding spec
  · obtain ⟨pairs, hread, hpairs⟩ := bindings_of_isRowOf hrow nesting form
    rw [hread, pure_bind]
    refine hnext pairs fun init hinit => ?_
    obtain ⟨pair, hpair, rfl⟩ := List.mem_map.mp hinit
    obtain ⟨v, hv, hinit⟩ := hpairs pair hpair
    exact Admits.items (hspec.items v hv) pair.2 hinit
  · obtain ⟨e, he, hread⟩ := bindings_of_not_isRowOf hrow nesting form s
    exact p.of_error (bind_of_error hread) fun _ => he.isInRange

section

variable {spec : Value} {body : List Value}

theorem bindNamed_obeys (name : Text) (hspec : p.Admits spec s) (hbody : p.AdmitsAll body s)
    (hscope : p.Opens scope s) : p.Obeys (bindNamed ev scope name spec body) s p.AdmitsStep := by
  rw [bindNamed]
  split
  · exact .shapeError _
  refine bindings_bind_obeys hspec fun pairs hinits => ?_
  refine (p.newScope hscope fun _ hentry => absurd hentry List.not_mem_nil).bind fun own s1 h1 hown => ?_
  refine (p.newClosure hown.1 (hbody.later h1)).bind fun c s2 h2 hc => ?_
  have hproc : p.Admits (.atom (.closure c)) s2 := hc
  refine (p.define hown.2 name hproc).bind fun _ s3 h3 _ => ?_
  have hinits3 := ((hinits.later h1).later h2).later h3
  exact (h.operands hinits3 (((hscope.later h1).later h2).later h3)).bind fun args s4 h4 hargs =>
    h.applyClosure ((hproc.later h3).later h4) hargs

theorem bind_obeys (hspec : p.Admits spec s) (hbody : p.AdmitsAll body s) (hscope : p.Opens scope s) :
    p.Obeys (bind ev scope (spec :: body)) s p.AdmitsStep := by
  rw [bind.eq_def]
  split
  · next name spec' body' heq =>
    cases heq
    obtain ⟨hspec', hbody'⟩ := admitsAll_cons_iff.mp hbody
    exact bindNamed_obeys h name hspec' hbody' hscope
  · next heq =>
    cases heq
    refine bindings_bind_obeys hspec fun pairs hinits => ?_
    refine (h.operands hinits hscope).bind fun values s1 h1 hvalues => ?_
    exact (p.newScope (hscope.later h1) (admits_of_mem_tableOf hvalues)).bind fun inner s2 h2 hinner =>
      h.sequence ((hbody.later h1).later h2) hinner.1
  · next heq => cases heq

theorem nestBindings_obeys {pairs : List Binding} (hpairs : p.AdmitsAll (pairs.map (·.2)) s)
    (hscope : p.Opens scope s) : p.Obeys (nestBindings ev pairs scope) s p.Opens := by
  induction pairs generalizing scope s with
  | nil => exact .pure hscope
  | cons pair more ih =>
    obtain ⟨hinit, hmore⟩ := admitsAll_cons_iff.mp hpairs
    refine (h.eval hinit hscope).bind fun v s1 h1 hv => ?_
    have hentries : ∀ entry ∈ [(pair.1, v)], p.Admits entry.2 s1 := fun entry hentry =>
      (List.mem_singleton.mp hentry).symm ▸ hv
    exact (p.newScope (hscope.later h1) hentries).bind fun inner s2 h2 hinner =>
      ih ((AdmitsAll.later hmore h1).later h2) hinner.1

theorem bindSequentially_obeys (hspec : p.Admits spec s) (hbody : p.AdmitsAll body s) (hscope : p.Opens scope s) :
    p.Obeys (bindSequentially ev scope (spec :: body)) s p.AdmitsStep := by
  refine bindings_bind_obeys hspec fun pairs hinits => ?_
  refine (p.newScope hscope fun _ hentry => absurd hentry List.not_mem_nil).bind fun outer s1 h1 houter => ?_
  exact (nestBindings_obeys h (hinits.later h1) houter.1).bind fun inner s2 h2 hinner =>
    h.sequence ((hbody.later h1).later h2) hinner

/-- The scope of the bindings is a new one, so names may be bound there. -/
theorem fillBindings_obeys {pairs : List Binding} (hpairs : p.AdmitsAll (pairs.map (·.2)) s)
    (hscope : p.Opens scope s) (hbinds : p.Binds scope) :
    p.Obeys (fillBindings ev scope pairs) s fun _ _ => True := by
  induction pairs generalizing s with
  | nil => exact .pure trivial
  | cons pair more ih =>
    obtain ⟨hinit, hmore⟩ := admitsAll_cons_iff.mp hpairs
    exact (h.eval hinit hscope).bind fun v s1 h1 hv => (p.define hbinds pair.1 hv).bind
      fun _ s2 h2 _ => ih ((AdmitsAll.later hmore h1).later h2) ((hscope.later h1).later h2)

theorem bindRecursively_obeys (hspec : p.Admits spec s) (hbody : p.AdmitsAll body s) (hscope : p.Opens scope s) :
    p.Obeys (bindRecursively ev scope (spec :: body)) s p.AdmitsStep := by
  refine bindings_bind_obeys hspec fun pairs hinits => ?_
  have hvoids : p.AdmitsAll ((pairs.map (·.1)).map fun _ => .void) s := by
    intro v hv
    obtain ⟨_, -, rfl⟩ := List.mem_map.mp hv
    exact admits_of_isPlain trivial
  refine (p.newScope hscope (admits_of_mem_tableOf hvoids)).bind fun inner s1 h1 hinner => ?_
  exact (fillBindings_obeys h (hinits.later h1) hinner.1 hinner.2).bind fun _ s2 h2 _ =>
    h.sequence ((hbody.later h1).later h2) (hinner.1.later h2)

end

/-! ### Loops -/

omit h in
/-- The expressions of a loop may be handed to code. -/
structure Loop.IsAdmitted (p : Policy) (loop : Loop) (s : Store) : Prop where
  test : p.Admits loop.test s
  results : p.AdmitsAll loop.results s
  body : p.AdmitsAll loop.body s
  steps : ∀ x ∈ loop.vars, ∀ step ∈ x.step, p.Admits step s

omit h in
theorem Loop.IsAdmitted.later {loop : Loop} {s' : Store} (hloop : loop.IsAdmitted p s) (hlater : p.Later s s') :
    loop.IsAdmitted p s' where
  test := hloop.test.later hlater
  results := hloop.results.later hlater
  body := hloop.body.later hlater
  steps x hx step hstep := (hloop.steps x hx step hstep).later hlater

theorem nextValues_obeys {vars : List LoopVariable} (hvars : ∀ x ∈ vars, ∀ step ∈ x.step, p.Admits step s)
    (hscope : p.Opens scope s) : p.Obeys (nextValues ev scope vars) s p.AdmitsAll := by
  induction vars generalizing s with
  | nil => exact .pure admitsAll_nil
  | cons x more ih =>
    obtain ⟨hx, hmore⟩ := List.forall_mem_cons.mp hvars
    have hnext : ∀ v s1, p.Later s s1 → p.Admits v s1 →
        p.Obeys (nextValues ev scope more >>= fun vs => pure (v :: vs)) s1 p.AdmitsAll := fun v s1 h1 hv =>
      (ih (fun y hy step hstep => (hmore y hy step hstep).later h1) (hscope.later h1)).bind
        fun vs s2 h2 hvs => .pure (admitsAll_cons_iff.mpr ⟨hv.later h2, hvs⟩)
    rw [nextValues]
    split
    · exact (p.lookup hscope x.name).bind hnext
    · next expr hstep => exact (h.eval (hx expr hstep) hscope).bind hnext

theorem rounds_obeys {loop : Loop} (hloop : loop.IsAdmitted p s) {outer : ScopeId} (fuel : Nat)
    (houter : p.Opens outer s) (hscope : p.Opens scope s) :
    p.Obeys (rounds ev loop outer fuel scope) s p.AdmitsStep := by
  induction fuel generalizing scope s with
  | zero => exact .throw fun _ f hf => by cases hf
  | succ fuel ih =>
    refine (h.eval hloop.test hscope).bind fun t s1 h1 _ => ?_
    have hloop1 := hloop.later h1
    split
    · exact h.sequence hloop1.results (hscope.later h1)
    · refine (h.evalForms hloop1.body (hscope.later h1)).bind fun _ s2 h2 _ => ?_
      have hloop2 := hloop1.later h2
      refine (nextValues_obeys h hloop2.steps ((hscope.later h1).later h2)).bind fun values s3 h3 hvalues => ?_
      have houter3 := ((houter.later h1).later h2).later h3
      exact (p.newScope houter3 (admits_of_mem_tableOf hvalues)).bind fun next s4 h4 hnext =>
        ih ((hloop2.later h3).later h4) (houter3.later h4) hnext.1

omit h in
/-- What follows the reading of a loop obeys if it does for all loops whose parts may be handed to code; anything
else is refused. -/
theorem readLoop_bind_obeys {nesting : Nat} {spec finish : Value} {body : List Value} {next : Loop → Action Step}
    (hspec : p.Admits spec s) (hfinish : p.Admits finish s) (hbody : p.AdmitsAll body s)
    (hnext : ∀ loop : Loop, p.AdmitsAll (loop.vars.map (·.init)) s → loop.IsAdmitted p s →
      p.Obeys (next loop) s p.AdmitsStep) :
    p.Obeys (readLoop nesting spec finish body >>= next) s p.AdmitsStep := by
  by_cases hshape : IsRowOf IsLoopVariable spec ∧ IsLoopEnd finish
  · obtain ⟨vars, test, results, hread, hitems, hmem⟩ := readLoop_of_shape hshape.1 hshape.2 nesting body
    obtain ⟨htest, hresults⟩ := admitsAll_cons_iff.mp (hitems ▸ hfinish.items)
    rw [hread, pure_bind]
    refine hnext _ (fun init hinit => ?_) ⟨htest, hresults, hbody, fun x hx step hstep => ?_⟩
    · obtain ⟨x, hx, rfl⟩ := List.mem_map.mp hinit
      obtain ⟨v, hv, hxv, -⟩ := hmem x hx
      exact Admits.items (hspec.items v hv) _ hxv
    · obtain ⟨v, hv, -, hxv⟩ := hmem x hx
      exact Admits.items (hspec.items v hv) _ (hxv step hstep)
  · obtain ⟨e, he, hread⟩ := readLoop_of_not_shape hshape nesting body s
    exact p.of_error (bind_of_error hread) fun _ => he.isInRange

theorem loop_obeys {spec finish : Value} {body : List Value} (hoperands : p.AdmitsAll (spec :: finish :: body) s)
    (hscope : p.Opens scope s) : p.Obeys (loop ev scope (spec :: finish :: body)) s p.AdmitsStep := by
  obtain ⟨hspec, hmore⟩ := admitsAll_cons_iff.mp hoperands
  obtain ⟨hfinish, hbody⟩ := admitsAll_cons_iff.mp hmore
  refine readLoop_bind_obeys hspec hfinish hbody fun loop hinits hloop => ?_
  refine (h.operands hinits hscope).bind fun values s1 h1 hvalues => ?_
  exact (p.newScope (hscope.later h1) (admits_of_mem_tableOf hvalues)).bind fun first s2 h2 hfirst =>
    rounds_obeys h ((hloop.later h1).later h2) ev.rounds ((hscope.later h1).later h2) hfirst.1

/-! ### Definitions and assignments -/

omit h in
/-- A form that splits a signature and makes a closure; any other signature is refused. -/
theorem splitting_obeys (signature : Value) {body : List Value} (hbody : p.AdmitsAll body s) (form : Text)
    (hscope : p.Opens scope s) (next : Text → ClosureId → Action Step)
    (hnext : ∀ name c s', p.AdmitsAtom (.closure c) s' → p.Obeys (next name c) s' p.AdmitsStep) :
    p.Obeys (ofShape (splitSignature form signature) >>= fun split =>
      makeClosure (some split.1) form split.2 body scope >>= next split.1) s p.AdmitsStep := by
  cases splitSignature form signature with
  | error e => exact p.of_error (bind_of_error rfl) fun _ => Signal.isInRange_failure fun f hf => by cases hf
  | ok split =>
    exact (makeClosure_obeys (some split.1) form split.2 hbody hscope).bind fun c s1 _ hc => hnext split.1 c s1 hc

theorem define_obeys {target : Value} {body : List Value} (hbody : p.AdmitsAll body s) (hscope : p.Opens scope s)
    (hbinds : p.Binds scope) : p.Obeys (define ev scope (target :: body)) s p.AdmitsStep := by
  let next (name : Text) (c : ClosureId) : Action Step :=
    Action.define scope name (.atom (.closure c)) >>= fun _ => pure (.value .void)
  have hprocedure : ∀ signature, p.Obeys (ofShape (splitSignature "define" signature) >>= fun split =>
      makeClosure (some split.1) "define" split.2 body scope >>= next split.1) s p.AdmitsStep := by
    refine fun signature => splitting_obeys signature hbody "define" hscope next fun name c s1 hc => ?_
    have hproc : p.Admits (.atom (.closure c)) s1 := hc
    exact (p.define hbinds name hproc).bind fun _ s2 _ _ => .pure (admits_of_isPlain trivial)
  cases target with
  | nil => exact hprocedure .nil
  | list id head rest last => exact hprocedure (.list id head rest last)
  | atom a =>
    cases a with
    | sym name =>
      rw [define.eq_def]
      dsimp only
      split
      · next expr =>
        refine (h.eval (hbody expr List.mem_cons_self) hscope).bind fun v s1 _ hv => ?_
        exact (p.define hbinds name hv).bind fun _ s2 _ _ => .pure (admits_of_isPlain trivial)
      · exact .shapeError _
    | _ => exact .shapeError _

omit h in
theorem defineTransformer_obeys {target : Value} {body : List Value} (hbody : p.AdmitsAll body s)
    (hscope : p.Opens scope s) (hbinds : p.Binds scope) :
    p.Obeys (defineTransformer scope (target :: body)) s p.AdmitsStep := by
  let next (name : Text) (c : ClosureId) : Action Step :=
    Action.defineTransformer scope name c >>= fun _ => pure (.value .void)
  have hprocedure : ∀ signature, p.Obeys (ofShape (splitSignature "define-macro" signature) >>= fun split =>
      makeClosure (some split.1) "define-macro" split.2 body scope >>= next split.1) s p.AdmitsStep :=
    fun signature => splitting_obeys signature hbody "define-macro" hscope next fun name c s1 hc =>
      (p.defineTransformer hbinds name hc).bind fun _ s2 _ _ => .pure (admits_of_isPlain trivial)
  cases target with
  | nil => exact hprocedure .nil
  | list id head rest last => exact hprocedure (.list id head rest last)
  | atom a => exact .shapeError _

theorem assign_obeys {target expr : Value} (hexpr : p.Admits expr s) (hscope : p.Opens scope s)
    (hyields : p.Yields scope s) : p.Obeys (assign ev scope [target, expr]) s p.AdmitsStep := by
  rw [assign.eq_def]
  split
  · next name expr' heq =>
    cases heq
    refine p.of_good fun hs => (h.eval hexpr hscope).bind fun v s1 h1 hv => ?_
    exact (p.assign (p.later_yields hs hscope hyields h1) name hv).bind
      fun _ s2 _ _ => .pure (admits_of_isPlain trivial)
  · exact .shapeError _
  · next hother => exact absurd rfl (hother target expr)

end Forms

/-! ### All forms -/

/-- A form that is given as many operands as it takes obeys; one that writes, where it may. -/
theorem SpecialForm.run_obeys (form : SpecialForm) {operands : List Value}
    (hcount : form.arity.accepts operands.length = true) (hoperands : p.AdmitsAll operands s)
    (hscope : p.Opens scope s) (hwrites : form ∈ writing → p.Yields scope s) :
    p.Obeys (form.run ev operands scope) s p.AdmitsStep := by
  have htwo : form.arity = .atLeast 2 → ∃ v w more, operands = v :: w :: more := fun harity =>
    Arity.exists_cons_cons (harity ▸ hcount)
  have hfirst : ∀ {v : Value} {more : List Value}, p.AdmitsAll (v :: more) s → p.Admits v s :=
    fun hall => (admitsAll_cons_iff.mp hall).1
  have hrest : ∀ {v : Value} {more : List Value}, p.AdmitsAll (v :: more) s → p.AdmitsAll more s :=
    fun hall => (admitsAll_cons_iff.mp hall).2
  -- The count of operands is what each form needs to take them apart; only the writing ones need the scope.
  cases form with
  | conditional =>
    have hleast := (Arity.accepts_atLeast _ _).mpr ((Arity.accepts_range _ _ _).mp hcount).1
    obtain ⟨test, yes, no, rfl⟩ := Arity.exists_cons_cons hleast
    exact Forms.conditional_obeys h hoperands hscope
  | cond => exact Forms.cond_obeys h hoperands hscope
  | conjunction => exact Forms.conjunction_obeys h hoperands hscope
  | disjunction => exact Forms.disjunction_obeys h hoperands hscope
  | sequence => exact h.sequence hoperands hscope
  | bind =>
    obtain ⟨spec, expr, more, rfl⟩ := htwo rfl
    exact Forms.bind_obeys h (hfirst hoperands) (hrest hoperands) hscope
  | bindSequentially =>
    obtain ⟨spec, expr, more, rfl⟩ := htwo rfl
    exact Forms.bindSequentially_obeys h (hfirst hoperands) (hrest hoperands) hscope
  | bindRecursively =>
    obtain ⟨spec, expr, more, rfl⟩ := htwo rfl
    exact Forms.bindRecursively_obeys h (hfirst hoperands) (hrest hoperands) hscope
  | loop =>
    obtain ⟨spec, finish, body, rfl⟩ := htwo rfl
    exact Forms.loop_obeys h hoperands hscope
  | lambda =>
    obtain ⟨params, expr, more, rfl⟩ := htwo rfl
    exact (makeClosure_obeys none "lambda" _ (hrest hoperands) hscope).bind fun c s1 _ hc => .pure hc
  | define =>
    obtain ⟨target, expr, more, rfl⟩ := htwo rfl
    exact Forms.define_obeys h (hrest hoperands) hscope (p.binds hscope (hwrites (by decide)))
  | defineTransformer =>
    obtain ⟨target, expr, more, rfl⟩ := htwo rfl
    exact Forms.defineTransformer_obeys (hrest hoperands) hscope (p.binds hscope (hwrites (by decide)))
  | assign =>
    obtain ⟨target, expr, rfl⟩ := Arity.exists_two hcount
    exact Forms.assign_obeys h (hfirst (hrest hoperands)) hscope (hwrites (by decide))
  | quote =>
    obtain ⟨v, rfl⟩ := Arity.exists_one hcount
    exact .pure (hfirst hoperands)
  | quasiquote =>
    obtain ⟨template, rfl⟩ := Arity.exists_one hcount
    simp only [SpecialForm.run]
    split
    · exact (Template.fill_obeys h (hfirst hoperands) hscope).value
    · exact .fault fun _ => id
  | unquote => exact .shapeError _
  | unquoteSplicing => exact .shapeError _

end

end Lisplet
