import Lisplet.Proofs.PolicyForms

/-!
# Evaluation obeys policies

Procedures hand on what they are given, and put values together from it; they bind no names. Those that are given
as many arguments as they take find what they reach for or refuse its kind. So every step of evaluation obeys a
policy, if a form that binds names is run only where names may be bound: by a rule that sees to it, or because
code cannot come to another place. By that every nested evaluation does, and every session.
-/

namespace Lisplet

open Lisplet.Action Policy.Terms

/-- By a rule a form is only run where it may write, or what the rule does instead obeys. -/
def Policy.Permits (p : Policy) (rule : FormRule) : Prop :=
  ∀ (form : SpecialForm) (ev : Evaluator) (operands : List Value) {scope : ScopeId} {s : Store}, p.Opens scope s →
    ((form ∈ SpecialForm.writing → p.Yields scope s) → p.Obeys (form.run ev operands scope) s p.AdmitsStep) →
    p.Obeys (rule form ev operands scope) s p.AdmitsStep

/-- Where names may be bound in all scopes, every form may be run. -/
theorem Policy.permits_run {p : Policy} (h : ∀ scope s, p.Yields scope s) : p.Permits SpecialForm.run :=
  fun _ _ _ scope s _ hrun => hrun fun _ => h scope s

variable {p : Policy} {s : Store} {scope : ScopeId}

/-! ### Ports -/

namespace Action

/-- A port that code may be handed is there for a strict policy. -/
theorem portOf_bind_obeys {α : Type} {id : PortId} {next : Port → Action α} {post : α → Store → Prop}
    (hid : p.AdmitsAtom (.port id) s) (hnext : ∀ port, p.Obeys (next port) s post) :
    p.Obeys (portOf id >>= next) s post := by
  cases hport : s.ports[id]? with
  | some port =>
    have hfinds : (portOf id).Finds s (some port) := .found (by rw [portOf, get_bind, hport]; rfl)
    exact .finds_bind hfinds fun port' _ => hnext port'
  | none =>
    have hmissing : portOf id s = .error (.failure (.fault .operandMissing)) s := by
      rw [portOf, get_bind, hport]
      rfl
    refine p.of_error (bind_of_error hmissing) fun hstrict => ?_
    exact absurd ((p.strict hstrict).held hid) (Nat.not_lt.mpr (Array.getElem?_eq_none_iff.mp hport))

/-- A port on a new stream. -/
theorem openStream_obeys (stream : Stream) (port : StreamId → Port) (s : Store) :
    p.Obeys (newStream stream >>= fun id => newPort (port id)) s fun v s' =>
      ∃ id, v = .atom (.port id) ∧ p.AdmitsAtom (.port id) s' :=
  (Obeys.of_guarded (newStream_drifts stream) (newStream_guarded stream)).bind fun id s1 _ _ =>
    p.newPort (port id) s1

theorem refuseOpening_obeys {α : Type} {path : Path} {refusal : OpenRefusal} {post : α → Store → Prop} :
    p.Obeys (refuseOpening path refusal) s post := by
  cases refusal with
  | name fault => exact .fault fun _ => id
  | system reason => exact .evaluationError _

end Action

theorem openFile_obeys (direction : Direction) (who : Text) (name : Value) (s : Store) :
    p.Obeys (openFile direction who name) s fun v s' => ∃ id, v = .atom (.port id) ∧ p.AdmitsAtom (.port id) s' := by
  refine .finds_bind (asText_finds _ name s) fun t _ => .get_bind ?_
  split
  · exact .fault fun _ => id
  cases direction with
  | input =>
    dsimp only
    split
    · exact refuseOpening_obeys
    · exact openStream_obeys _ _ s
  | output =>
    dsimp only
    split
    · exact refuseOpening_obeys
    · next place files _ =>
      have hfiles : (modify fun s => { s with files := files } : Action Unit).Drifts fun _ => True :=
        .modifyGet (fun _ => ⟨.change (.files files), rfl, rfl, Nat.le_refl _, rfl⟩) fun _ => trivial
      exact (p.drifts hfiles fun _ f hf => nomatch hf).bind fun _ s1 _ _ => openStream_obeys _ _ s1

section

variable {ev : Evaluator} (h : p.Governs ev)

include h

namespace PortOp

/-- The port is handed over, and it may be closed. -/
theorem callWithFile_obeys (direction : Direction) (who : Text) (name : Value) {proc : Value}
    (hproc : p.Admits proc s) (hscope : p.Opens scope s) :
    p.Obeys (callWithFile ev scope direction who name proc) s p.Admits := by
  refine asProcedure_bind_obeys fun _ => (openFile_obeys direction who name s).bind fun port s1 h1 hport => ?_
  obtain ⟨id, rfl, hid⟩ := hport
  have hargs : p.AdmitsAll [.atom (.port id)] s1 := admitsAll_singleton hid
  exact p.closing id (h.call (hproc.later h1) hargs (hscope.later h1))

theorem withFile_obeys (direction : Direction) (who : Text) (name : Value) {thunk : Value}
    (hthunk : p.Admits thunk s) (hscope : p.Opens scope s) :
    p.Obeys (withFile ev scope direction who name thunk) s p.Admits := by
  refine asProcedure_bind_obeys fun _ => (openFile_obeys direction who name s).bind fun port s1 h1 hport => ?_
  obtain ⟨id, rfl, hid⟩ := hport
  refine portOf_bind_obeys hid fun port => .get_bind ?_
  have hcall : p.Obeys (ev.call thunk [] scope) (s1.redirect direction port.stream) p.Admits := by
    have h2 := p.later_redirect s1 direction port.stream
    exact h.call ((hthunk.later h1).later h2) admitsAll_nil ((hscope.later h1).later h2)
  cases direction with
  | input => exact p.redirecting .input port.stream id hcall
  | output => exact p.redirecting .output port.stream id hcall

/-- Port procedures that open ports. -/
theorem run_obeys {op : PortOp} (hop : ¬ op.IsQuiet) {args : List Value}
    (hcount : op.arity.accepts args.length = true) (hargs : p.AdmitsAll args s) (hscope : p.Opens scope s) :
    p.Obeys (op.run ev args scope) s p.Admits := by
  have hport : ∀ {act : Action Value},
      (p.Obeys act s fun v s' => ∃ id, v = .atom (.port id) ∧ p.AdmitsAtom (.port id) s') →
      p.Obeys act s p.Admits := by
    refine fun hact => hact.imp fun v s' _ hv => ?_
    obtain ⟨id, rfl, hid⟩ := hv
    exact hid
  cases op
  case currentInput | currentOutput => exact .get_bind (hport (p.newPort _ s))
  case openOutputString => exact hport (openStream_obeys _ _ s)
  case callWithInputFile | callWithOutputFile =>
    obtain ⟨name, proc, rfl⟩ := Arity.exists_two hcount
    exact callWithFile_obeys h _ _ name (hargs proc (List.mem_cons_of_mem _ List.mem_cons_self)) hscope
  case withInputFromFile | withOutputToFile =>
    obtain ⟨name, thunk, rfl⟩ := Arity.exists_two hcount
    exact withFile_obeys h _ _ name (hargs thunk (List.mem_cons_of_mem _ List.mem_cons_self)) hscope
  case openInputString =>
    obtain ⟨v, rfl⟩ := Arity.exists_one hcount
    exact .finds_bind (asText_finds _ v s) fun t _ => hport (openStream_obeys _ _ s)
  case openInputFile =>
    obtain ⟨v, rfl⟩ := Arity.exists_one hcount
    exact hport (openFile_obeys .input openInputFile.name v s)
  case openOutputFile =>
    obtain ⟨v, rfl⟩ := Arity.exists_one hcount
    exact hport (openFile_obeys .output openOutputFile.name v s)
  all_goals exact absurd trivial hop

end PortOp

/-! ### Application and loading -/

namespace ControlOp

/-- A procedure is applied to arguments of its own and to those in a list behind them. -/
theorem apply_obeys {proc : Value} {more : List Value} (hproc : p.Admits proc s) (hmore : p.AdmitsAll more s)
    (hne : more ≠ []) (hscope : p.Opens scope s) :
    p.Obeys (apply.run ev (proc :: more) scope) s p.AdmitsStep := by
  refine asProcedure_bind_obeys fun _ => ?_
  split
  · next hnone => exact absurd (List.getLast?_eq_none_iff.mp hnone) hne
  · next last hlast =>
    refine .finds_bind (asItems_finds _ last s) fun spread hspread => ?_
    obtain ⟨-, heq⟩ := Option.ite_none_right_eq_some.mp hspread
    cases heq
    refine h.apply hproc (List.forall_mem_append.mpr ⟨fun v hv => ?_, ?_⟩) hscope
    · exact hmore v (List.dropLast_subset _ hv)
    · exact (hmore last (List.mem_of_getLast? hlast)).items

omit h in
/-- A call for a fresh symbol gives one, or it refuses its argument. -/
theorem gensym_obeys {args : List Value} (hcount : gensym.arity.accepts args.length = true) :
    p.Obeys (gensym.run ev args scope) s p.AdmitsStep := by
  cases hstart : s.freshPrefix? args with
  | some start => exact p.gensym hstart ev scope
  | none =>
    have hmost := ((Arity.accepts_range _ _ _).mp hcount).2
    rcases args with _ | ⟨start, _ | ⟨next, more⟩⟩
    · cases hstart
    · unfold run
      dsimp only
      split
      · cases hstart
      · cases hstart
      · exact .typeError _ _
    · rw [List.length_cons, List.length_cons] at hmost
      omega

theorem run_obeys (op : ControlOp) {args : List Value} (hcount : op.arity.accepts args.length = true)
    (hargs : p.AdmitsAll args s) (hscope : p.Opens scope s) :
    p.Obeys (op.run ev args scope) s p.AdmitsStep := by
  cases op with
  | eval =>
    obtain ⟨expr, rfl⟩ := Arity.exists_one hcount
    exact .pure ⟨hargs expr List.mem_cons_self, hscope⟩
  | apply =>
    obtain ⟨proc, first, more, rfl⟩ := Arity.exists_cons_cons hcount
    obtain ⟨hproc, hmore⟩ := admitsAll_cons_iff.mp hargs
    exact apply_obeys h hproc hmore (List.cons_ne_nil first more) hscope
  | gensym => exact gensym_obeys hcount

end ControlOp

/-- Data are evaluated one after another. -/
theorem Policy.Governs.evalData (ds : List Datum) (hscope : p.Opens scope s) :
    p.Obeys (ev.evalData scope ds) s p.Admits := by
  induction ds generalizing s with
  | nil => exact .pure (admits_of_isPlain trivial)
  | cons d more ih =>
    cases more with
    | nil => exact (instantiate_obeys d).bind fun expr s1 h1 hexpr => h.eval hexpr (hscope.later h1)
    | cons next more =>
      exact (instantiate_obeys d).bind fun expr s1 h1 hexpr => (h.eval hexpr (hscope.later h1)).bind
        fun _ s2 h2 _ => ih ((hscope.later h1).later h2)

omit h in
theorem not_isOutOfRange_of_sourceAt {files : FileTree} {path : Path} {f : Fault}
    (hsource : sourceAt files path = .error f) : ¬ f.IsOutOfRange := by
  unfold sourceAt at hsource
  split at hsource
  · cases hsource
  · cases hsource
    exact id
  · cases hsource

omit h in
theorem not_isOutOfRange_of_searchDirectories {files : FileTree} {path : Path} {directories : List Path}
    {f : Fault} (hsearch : searchDirectories files path directories = .error f) : ¬ f.IsOutOfRange := by
  induction directories with
  | nil => cases hsearch
  | cons directory more ih =>
    rw [searchDirectories] at hsearch
    cases hsource : sourceAt files (files.home.within (Path.within directory path)) with
    | error g =>
      rw [hsource] at hsearch
      cases hsearch
      exact not_isOutOfRange_of_sourceAt hsource
    | ok found =>
      rw [hsource] at hsearch
      cases found with
      | none => exact ih hsearch
      | some place => cases hsearch

omit h in
/-- A search for a source may end at a name that no file can have. -/
theorem not_isOutOfRange_of_findSource {name : Text} {f : Fault} (hfind : findSource s name = .error f) :
    ¬ f.IsOutOfRange := by
  unfold findSource at hfind
  split at hfind
  · cases hfind
    exact id
  · next path _ =>
    split at hfind
    · cases hsource : sourceAt s.files path with
      | error g =>
        rw [hsource] at hfind
        cases hfind
        exact not_isOutOfRange_of_sourceAt hsource
      | ok found =>
        rw [hsource] at hfind
        cases hfind
    · exact not_isOutOfRange_of_searchDirectories hfind

omit h in
theorem not_isOutOfRange_of_sourceText {files : FileTree} {place : Location} {f : Fault}
    (htext : sourceText files place = .error f) : ¬ f.IsOutOfRange := by
  unfold sourceText at htext
  split at htext
  · cases htext
  · cases htext
    exact id

/-- Sources that are loaded are evaluated in the root scope. -/
theorem Policy.Governs.loadSource (name : Text) : p.Obeys (loadSource ev name) s p.Admits := by
  refine p.of_good fun hs => .get_bind ?_
  split
  · next hfind => exact .fault fun _ => not_isOutOfRange_of_findSource hfind
  · exact .evaluationError _
  split
  · next htext => exact .fault fun _ => not_isOutOfRange_of_sourceText htext
  dsimp only
  split
  · exact .evaluationError _
  · exact .fault fun _ => id
  · exact .fault fun _ => id
  · exact .fault fun _ => id
  · exact .limited (h.evalData _ (p.root hs))

theorem SystemOp.run_obeys (op : SystemOp) {args : List Value} (hcount : op.arity.accepts args.length = true) :
    p.Obeys (op.run ev args) s p.Admits := by
  cases op with
  | load =>
    obtain ⟨name, rfl⟩ := Arity.exists_one hcount
    exact .finds_bind (asText_finds _ name s) fun t _ => h.loadSource t
  | exit =>
    have hcode : p.Obeys (exitCode args) s fun _ _ => True := by
      unfold exitCode
      split
      · exact .pure trivial
      · exact .pure trivial
      · exact .pure trivial
      · exact .pure trivial
      · exact .typeError _ _
    exact hcode.bind fun code s1 _ _ => .throw fun _ f hf => by cases hf

/-! ### All procedures -/

/-- Arguments of the number that a procedure takes are taken apart, or the procedure refuses their kinds. -/
theorem Primitive.run_obeys (prim : Primitive) {args : List Value}
    (hcount : prim.arity.accepts args.length = true) (hargs : p.AdmitsAll args s) (hscope : p.Opens scope s) :
    p.Obeys (prim.run ev args scope) s p.AdmitsStep := by
  by_cases hquiet : prim.IsQuiet
  · have hfault : p.IsStrict → ∀ f, (prim.run ev args scope).EndsInFault s f → ¬ f.IsOutOfRange :=
      fun hstrict => (p.strict hstrict).quiet hquiet hcount (hargs.holdsAll hstrict) ev scope
    refine (p.drifts (run_drifts hquiet ev args scope) hfault).imp fun step s' h1 hstep => ?_
    obtain ⟨v, rfl, hv⟩ := hstep
    exact admits_of_isMadeOf hv (hargs.later h1)
  · cases prim with
    | control op => exact op.run_obeys h hcount hargs hscope
    | ports op => exact (PortOp.run_obeys h hquiet hcount hargs hscope).value
    | system op => exact (op.run_obeys h hcount).value
    | _ => exact absurd trivial hquiet

/-! ### Steps and nested evaluations -/

variable {rule : FormRule} (hrule : p.Permits rule)

include hrule

namespace Policy.Governs

theorem applyStepBy {proc : Value} {args : List Value} (hproc : p.Admits proc s) (hargs : p.AdmitsAll args s)
    (hscope : p.Opens scope s) : p.Obeys (ev.applyStepBy rule proc args scope) s p.AdmitsStep := by
  unfold Evaluator.applyStepBy
  split
  · next form =>
    split
    · next hcount => exact hrule form ev args hscope fun hwrites => form.run_obeys h hcount hargs hscope hwrites
    · exact .fail fun f hf => by cases hf
  · next hform =>
    unfold Evaluator.applyStep
    split
    · split
      · next prim hcount => exact prim.run_obeys h hcount hargs hscope
      · exact .fail fun f hf => by cases hf
    · next form => exact absurd rfl (hform form)
    · exact h.applyClosure hproc hargs
    · exact .typeError _ _

theorem callStepBy {head : Value} {operands : List Value} (hhead : p.Admits head s)
    (hoperands : p.AdmitsAll operands s) (hscope : p.Opens scope s) :
    p.Obeys (ev.callStepBy rule head operands scope) s p.AdmitsStep := by
  refine (h.eval hhead hscope).bind fun proc s1 h1 hproc => ?_
  split
  · exact h.applyStepBy hrule hproc (hoperands.later h1) (hscope.later h1)
  · split
    · exact (h.operands (hoperands.later h1) (hscope.later h1)).bind fun args s2 h2 hargs =>
        h.applyStepBy hrule (hproc.later h2) hargs ((hscope.later h1).later h2)
    · exact .typeError _ _

/-- One step of evaluating an expression. -/
theorem stepBy {expr : Value} (hexpr : p.Admits expr s) (hscope : p.Opens scope s) :
    p.Obeys (ev.stepBy rule expr scope) s p.AdmitsStep := by
  unfold Evaluator.stepBy
  split
  · next id head operands =>
    obtain ⟨hhead, hoperands⟩ := admitsAll_cons_iff.mp hexpr.items
    have htransformer : p.Obeys (Evaluator.transformerOf head scope) s
        fun found s' => ∀ c ∈ found, p.AdmitsAtom (.closure c) s' := by
      unfold Evaluator.transformerOf
      split
      · exact p.transformer? hscope _
      · exact .pure fun c hc => by cases hc
    refine htransformer.bind fun found s1 h1 hfound => ?_
    cases found with
    | none => exact h.callStepBy hrule (hhead.later h1) (AdmitsAll.later hoperands h1) (hscope.later h1)
    | some c =>
      have hbody := h.applyClosure (hfound c rfl) (AdmitsAll.later hoperands h1)
      exact (Obeys.limited (hbody.bind fun _ _ _ hstep => h.finish hstep)).bind
        fun expansion s2 h2 hexpansion => .pure ⟨hexpansion, (hscope.later h1).later h2⟩
  · next hcall =>
    unfold Evaluator.step
    split
    · exact (p.lookup hscope _).value
    · split
      · exact .pure hexpr
      · exact .evaluationError _
    · exact .fail fun f hf => by cases hf
    · exact .shapeError _
    · next id head operands => exact absurd rfl (hcall id head operands)

theorem trampolineBy (fuel : Nat) {expr : Value} (hexpr : p.Admits expr s) (hscope : p.Opens scope s) :
    p.Obeys (ev.trampolineBy rule fuel expr scope) s p.Admits := by
  induction fuel generalizing expr scope s with
  | zero => exact .throw fun _ f hf => by cases hf
  | succ fuel ih =>
    refine (h.stepBy hrule hexpr hscope).bind fun next s1 _ hnext => ?_
    cases next with
    | value v => exact .pure hnext
    | tailCall expr scope => exact ih hnext.1 hnext.2

end Policy.Governs

end

/-- Any number of nested evaluations. -/
theorem Evaluator.nestedBy_governed {rule : FormRule} (hrule : p.Permits rule) (rounds nesting depth : Nat) :
    p.Governs (nestedBy rule rounds nesting depth) := by
  induction depth with
  -- Without a level left every evaluation ends in the fault of depth, which no policy forbids.
  | zero => exact ⟨fun _ _ => .fault fun _ => id, fun _ _ _ => .fault fun _ => id⟩
  | succ depth ih =>
    exact ⟨fun hexpr hscope => ih.trampolineBy hrule rounds hexpr hscope,
      fun hproc hargs hscope => ih.applyStepBy hrule hproc hargs hscope⟩

/-- Evaluation as it is, by a policy that lets names be bound in all scopes. -/
theorem Evaluator.nested_governed (h : ∀ scope s, p.Yields scope s) (rounds nesting depth : Nat) :
    p.Governs (nested rounds nesting depth) :=
  nestedBy_run rounds nesting depth ▸ nestedBy_governed (Policy.permits_run h) rounds nesting depth

/-! ### Sessions -/

namespace Session

section

variable {ev : Evaluator} (h : p.Governs ev)

include h

theorem evaluate_obeys (source : Text) (s : Store) : p.Obeys (evaluate ev source) s p.Admits := by
  refine p.of_good fun hs => (Obeys.limited (h.evalData _ (p.root hs))).bind fun v s1 _ hv => ?_
  split
  · exact .pure hv
  · exact .fail fun f hf => by cases hf
  · exact .fault fun _ => id
  · exact .fault fun _ => id
  · exact .fail fun f hf => by cases hf

/-- The prelude of a directory may be looked for where the setting has no place for it. -/
theorem start_obeys (hlax : ¬ p.IsStrict) (choice : PreludeChoice) (s : Store) :
    p.Obeys (start ev choice) s fun _ _ => True := by
  have hsource : ∀ t, p.Obeys (evaluate ev t >>= fun _ => pure ()) s fun _ _ => True :=
    fun t => (evaluate_obeys h t s).bind fun _ _ _ _ => .pure trivial
  unfold start
  split
  · exact .pure trivial
  · split
    · exact .pure trivial
    · exact hsource _
  · exact hsource _
  · exact hsource _
  · refine .get_bind ?_
    split
    · exact .fault fun hstrict => absurd hstrict hlax
    · exact .pure trivial
    · exact hsource _

end

theorem takeOutput_drifts : takeOutput.Drifts fun _ => True := by
  refine .modifyGet (fun s => ?_) fun _ => trivial
  split
  · exact ⟨.change (.stream _ _ s.files), rfl, rfl, Nat.le_refl _, rfl⟩
  · exact .refl s

/-- What is asked of a session: to evaluate a prelude, a source, a file or an expression, or to hand over
what was written. -/
inductive Request where
  | prelude (choice : PreludeChoice)
  | source (t : Text)
  | file (name : Text)
  | expression (expr : Value) (scope : ScopeId)
  | output

/-- Does what is asked; what has no value gives the unspecified one. -/
def Request.perform (b : Bounds) : Request → Action Value
  | .prelude choice => do
    start b.evaluator choice
    pure .void
  | .source t => evaluate b.evaluator t
  | .file name => loadFile b.evaluator name
  | .expression expr scope => b.evaluator.eval expr scope
  | .output => do
    let _ ← takeOutput
    pure .void

/-- Requests for an expression have it evaluated where code may run. -/
theorem Request.perform_obeys {b : Bounds} (h : p.Governs b.evaluator) (hlax : ¬ p.IsStrict) {r : Request}
    (hr : ∀ expr scope, r = .expression expr scope → p.Admits expr s ∧ p.Opens scope s) :
    p.Obeys (r.perform b) s p.Admits := by
  cases r with
  | prelude choice => exact (start_obeys h hlax choice s).bind fun _ _ _ _ => .pure (admits_of_isPlain trivial)
  | source t => exact evaluate_obeys h t s
  | file name => exact h.loadSource name
  | expression expr scope =>
    obtain ⟨hexpr, hscope⟩ := hr expr scope rfl
    exact h.eval hexpr hscope
  | output =>
    exact (p.drifts takeOutput_drifts fun _ f hf => nomatch hf).bind
      fun _ _ _ _ => .pure (admits_of_isPlain trivial)

end Session

end Lisplet
