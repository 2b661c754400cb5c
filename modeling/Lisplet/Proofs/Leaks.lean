import Lisplet.Proofs.PortFaults
import Lisplet.Proofs.Redirections
import Lisplet.Proofs.SizeFaults

/-!
# The leaks of primitive procedures

Primitive procedures turn most faults into failures of the language. This is the list of those that they leak:
by size, by reading and writing, by the name of a file, by what a loaded file holds, and by a call that they
make themselves. A call ends in a fault exactly when it is on the list, and ends as the language has it otherwise.
-/

namespace Lisplet

open Lisplet.Action

/-! ### Port procedures -/

/-- A text names no file that could be opened in a direction. -/
def Store.RefusesName (s : Store) (direction : Direction) (t : Text) (fault : NameFault) : Prop :=
  s.files.pathIn s.directory t = .error fault ∨
    ∃ path, s.files.pathIn s.directory t = .ok path ∧ s.files.openIn path direction = .error (.name fault)

/-- Opening a file ends in a fault when its name is a string that names no file. -/
theorem openFile_endsInFault_iff {direction : Direction} {who : Text} {name : Value} {s : Store} {f : Fault} :
    (openFile direction who name).EndsInFault s f ↔
      ∃ buffer fault, name = .str buffer ∧ s.RefusesName direction (s.content buffer) fault ∧
        f = .name fault := by
  constructor
  · intro h
    obtain ⟨t, ht, -⟩ := (asText_finds _ name s).endsInFault_bind_iff.mp h
    obtain ⟨buffer, hbuffer, -⟩ := Option.map_eq_some_iff.mp ht
    obtain rfl := Value.buffer?_eq_some_iff.mp hbuffer
    obtain ⟨_, h⟩ := h
    rw [openFile_str] at h
    split at h
    next fault hpath =>
      cases h
      exact ⟨buffer, fault, rfl, .inl hpath, rfl⟩
    next path hpath =>
      split at h
      next refusal hopen =>
        cases refusal with
        | name fault =>
          cases h
          exact ⟨buffer, fault, rfl, .inr ⟨path, hpath, hopen⟩, rfl⟩
        | system => cases h
      next => cases h
  · rintro ⟨buffer, fault, rfl, hpath | ⟨path, hpath, hopen⟩, rfl⟩
    · exact ⟨s, by rw [openFile_str, hpath]⟩
    · refine ⟨s, ?_⟩
      rw [openFile_str, hpath]
      dsimp only
      rw [hopen]
      rfl

namespace PortOp

/-- The direction in which a procedure opens a file. -/
def opens? : PortOp → Option Direction
  | .openInputFile | .callWithInputFile | .withInputFromFile => some .input
  | .openOutputFile | .callWithOutputFile | .withOutputToFile => some .output
  | _ => none

/-- The faults that a port procedure ends in. -/
inductive Leaks (ev : Evaluator) (scope : ScopeId) (s : Store) (op : PortOp) (args : List Value) (f : Fault) :
    Prop
  /-- A text names no file. -/
  | name {direction : Direction} {buffer : BufferId} {more : List Value} {fault : NameFault}
      (hop : op.opens? = some direction) (hargs : args = .str buffer :: more)
      (hmore : ∀ v ∈ more, v.isProcedure = true)
      (hrefuses : s.RefusesName direction (s.content buffer) fault) (hf : f = .name fault)
  /-- The call that a port is handed to ends in a fault. -/
  | handed {direction : Direction} {name proc port : Value} {opened : Store}
      (hop : op = handing direction) (hargs : args = [name, proc]) (hproc : proc.isProcedure = true)
      (hopen : openFile direction op.name name s = .ok port opened)
      (hcall : (ev.call proc [port] scope).EndsInFault opened f)
  /-- The call that a file is the current port of ends in a fault. -/
  | redirected {direction : Direction} {name proc port : Value} {opened : Store}
      (hop : op = redirecting direction) (hargs : args = [name, proc]) (hproc : proc.isProcedure = true)
      (hopen : openFile direction op.name name s = .ok port opened)
      (hcall : (ev.call proc [] scope).EndsInFault (opened.redirect direction s.streams.size) f)

variable {ev : Evaluator} {scope : ScopeId} {s : Store} {f : Fault}

theorem Leaks.isSome_opens? {op : PortOp} {args : List Value} (h : op.Leaks ev scope s args f) :
    op.opens?.isSome = true := by
  cases h with
  | name hop => rw [hop]; rfl
  | @handed direction _ _ _ _ hop => cases hop; cases direction <;> rfl
  | @redirected direction _ _ _ _ hop => cases hop; cases direction <;> rfl

theorem callWithFile_endsInFault_iff {direction : Direction} {who : Text} {name proc : Value} :
    (callWithFile ev scope direction who name proc).EndsInFault s f ↔
      proc.isProcedure = true ∧ ((openFile direction who name).EndsInFault s f ∨
        ∃ port opened, openFile direction who name s = .ok port opened ∧
          (ev.call proc [port] scope).EndsInFault opened f) := by
  rw [callWithFile]
  refine (asProcedure_finds _ proc s).endsInFault_bind_iff.trans ?_
  simp only [Option.ite_none_right_eq_some, Option.some.injEq, endsInFault_bind_iff,
    endsInFault_ensuring_iff]
  constructor
  · rintro ⟨_, ⟨hproc, rfl⟩, h⟩
    exact ⟨hproc, h⟩
  · rintro ⟨hproc, h⟩
    exact ⟨proc, ⟨hproc, rfl⟩, h⟩

theorem withFile_endsInFault_iff {direction : Direction} {who : Text} {name proc : Value} :
    (withFile ev scope direction who name proc).EndsInFault s f ↔
      proc.isProcedure = true ∧ ((openFile direction who name).EndsInFault s f ∨
        ∃ port opened, openFile direction who name s = .ok port opened ∧
          (ev.call proc [] scope).EndsInFault (opened.redirect direction s.streams.size) f) := by
  cases hproc : proc.isProcedure with
  | false =>
    refine iff_of_false (fun h => ?_) nofun
    obtain ⟨_, hfound, -⟩ := (asProcedure_finds _ proc s).endsInFault_bind_iff.mp h
    rw [hproc] at hfound
    cases hfound
  | true =>
    have hasproc : asProcedure (some who) proc s = .ok proc s := by
      rw [asProcedure, if_pos hproc]
      rfl
    simp only [true_and]
    cases hopen : openFile direction who name s with
    | error e s' =>
      have hwith : withFile ev scope direction who name proc s = .error e s' := by
        rw [withFile, bind_of_ok hasproc, bind_of_error hopen]
      rw [EndsInFault, EndsInFault, hwith, hopen]
      refine (or_iff_left ?_).symm
      rintro ⟨_, _, h, _⟩
      cases h
    | ok port opened =>
      obtain ⟨_, path, place, files, -, -, -, rfl, rfl⟩ := openFile_ok_iff.mp hopen
      have hwith : withFile ev scope direction who name proc s = _ :=
        withFile_of_opened hproc hopen Array.getElem?_push_size
      -- The file is open, so a fault can only come from the call.
      have hnot : ¬(openFile direction who name).EndsInFault s f := by
        rintro ⟨_, h⟩
        rw [hopen] at h
        cases h
      rw [EndsInFault, hwith, ← EndsInFault, endsInFault_ensuring_iff, or_iff_right hnot]
      constructor
      · exact fun h => ⟨_, _, rfl, h⟩
      · rintro ⟨_, _, h, hcall⟩
        cases h
        exact hcall

theorem outputText_not_endsInFault (hf : f ≠ .numeralTooLong) (who : Text) {v : Value}
    (hports : s.HoldsPorts [v]) : ¬(outputText who v).EndsInFault s f := by
  intro h
  obtain ⟨id, hid, h⟩ := (asPort_finds _ v s).endsInFault_bind_iff.mp h
  have hlt := hports id (by rw [Value.port?_eq_some_iff.mp hid]; exact List.mem_singleton_self _)
  obtain ⟨p, -, h⟩ := (portOf_finds hlt).endsInFault_bind_iff.mp h
  rw [endsInFault_get_bind_iff] at h
  split at h
  · exact hf (newString_guarded _ s f h)
  · exact (typeError_finds v s _).not_endsInFault f h

theorem close_not_endsInFault (direction : Direction) (who : Text) {v : Value} (hports : s.HoldsPorts [v]) :
    ¬(close direction who v).EndsInFault s f := by
  intro h
  obtain ⟨_, -, _, h⟩ := (chosenPort_finds direction who hports).endsInFault_bind_iff.mp h
  cases h

theorem hasDirection_not_endsInFault (direction : Direction) {v : Value} (hports : s.HoldsPorts [v]) :
    ¬(hasDirection direction v).EndsInFault s f := by
  unfold hasDirection
  split
  next id =>
    intro h
    obtain ⟨_, -, _, h⟩ := (portOf_finds (hports id (List.mem_singleton_self _))).endsInFault_bind_iff.mp h
    cases h
  next => exact (Finds.pure _ s).not_endsInFault f

/-- Procedures that open no file end in no fault. -/
theorem run_not_endsInFault {op : PortOp} (hop : op.opens? = none) {args : List Value}
    (h : op.arity.accepts args.length = true) (hports : s.HoldsPorts args) (hf : f ≠ .numeralTooLong) :
    ¬(op.run ev args scope).EndsInFault s f := by
  cases op
  case openInputFile | openOutputFile | callWithInputFile | callWithOutputFile | withInputFromFile |
      withOutputToFile => cases hop
  case currentInput | currentOutput | openOutputString =>
    rintro ⟨_, h⟩
    cases h
  all_goals
    obtain ⟨v, rfl⟩ := Arity.exists_one h
  case openInputString =>
    have hguarded : (PortOp.run .openInputString ev [v] scope).Guarded := by grind [run]
    exact fun h => hf (hguarded s f h)
  case getOutputString => exact outputText_not_endsInFault hf _ hports
  case closeInput | closeOutput => exact close_not_endsInFault _ _ hports
  case isInput | isOutput => exact hasDirection_not_endsInFault _ hports

/-- The procedure that opens a file. -/
def opening : Direction → PortOp
  | .input => .openInputFile
  | .output => .openOutputFile

theorem opens?_cases {op : PortOp} {direction : Direction} (h : op.opens? = some direction) :
    op = opening direction ∨ op = handing direction ∨ op = redirecting direction := by
  cases op <;> cases h <;> simp [opening, handing, redirecting]

theorem opens?_opening (direction : Direction) : (opening direction).opens? = some direction := by
  cases direction <;> rfl

theorem opens?_handing (direction : Direction) : (handing direction).opens? = some direction := by
  cases direction <;> rfl

theorem opens?_redirecting (direction : Direction) : (redirecting direction).opens? = some direction := by
  cases direction <;> rfl

theorem handing_ne_redirecting (direction direction' : Direction) :
    handing direction ≠ redirecting direction' := by
  cases direction <;> cases direction' <;> exact nofun

variable (direction : Direction) (name proc : Value)

theorem opening_endsInFault_iff :
    (openFile direction (opening direction).name name).EndsInFault s f ↔
      (opening direction).Leaks ev scope s [name] f := by
  rw [openFile_endsInFault_iff]
  constructor
  · rintro ⟨buffer, fault, rfl, hrefuses, hf⟩
    exact .name (opens?_opening direction) rfl nofun hrefuses hf
  · intro h
    cases h with
    | name hop hargs _ hrefuses hf =>
      cases (opens?_opening direction).symm.trans hop
      cases hargs
      exact ⟨_, _, rfl, hrefuses, hf⟩
    | handed _ hargs => cases hargs
    | redirected _ hargs => cases hargs

theorem handing_endsInFault_iff :
    (callWithFile ev scope direction (handing direction).name name proc).EndsInFault s f ↔
      (handing direction).Leaks ev scope s [name, proc] f := by
  rw [callWithFile_endsInFault_iff, openFile_endsInFault_iff]
  constructor
  · rintro ⟨hproc, ⟨buffer, fault, rfl, hrefuses, hf⟩ | ⟨port, opened, hopen, hcall⟩⟩
    · exact .name (opens?_handing direction) rfl (by simpa using hproc) hrefuses hf
    · exact .handed rfl rfl hproc hopen hcall
  · intro h
    cases h with
    | name hop hargs hmore hrefuses hf =>
      cases (opens?_handing direction).symm.trans hop
      cases hargs
      exact ⟨hmore proc (List.mem_singleton_self _), .inl ⟨_, _, rfl, hrefuses, hf⟩⟩
    | @handed direction' _ _ _ _ hop hargs hproc hopen hcall =>
      cases (opens?_handing direction).symm.trans ((congrArg opens? hop).trans (opens?_handing direction'))
      cases hargs
      exact ⟨hproc, .inr ⟨_, _, hopen, hcall⟩⟩
    | redirected hop => exact absurd hop (handing_ne_redirecting _ _)

theorem redirecting_endsInFault_iff :
    (withFile ev scope direction (redirecting direction).name name proc).EndsInFault s f ↔
      (redirecting direction).Leaks ev scope s [name, proc] f := by
  rw [withFile_endsInFault_iff, openFile_endsInFault_iff]
  constructor
  · rintro ⟨hproc, ⟨buffer, fault, rfl, hrefuses, hf⟩ | ⟨port, opened, hopen, hcall⟩⟩
    · exact .name (opens?_redirecting direction) rfl (by simpa using hproc) hrefuses hf
    · exact .redirected rfl rfl hproc hopen hcall
  · intro h
    cases h with
    | name hop hargs hmore hrefuses hf =>
      cases (opens?_redirecting direction).symm.trans hop
      cases hargs
      exact ⟨hmore proc (List.mem_singleton_self _), .inl ⟨_, _, rfl, hrefuses, hf⟩⟩
    | handed hop => exact absurd hop.symm (handing_ne_redirecting _ _)
    | @redirected direction' _ _ _ _ hop hargs hproc hopen hcall =>
      cases (opens?_redirecting direction).symm.trans
        ((congrArg opens? hop).trans (opens?_redirecting direction'))
      cases hargs
      exact ⟨hproc, .inr ⟨_, _, hopen, hcall⟩⟩

theorem run_endsInFault_iff {op : PortOp} {args : List Value} (h : op.arity.accepts args.length = true)
    (hports : s.HoldsPorts args) (hf : f ≠ .numeralTooLong) :
    (op.run ev args scope).EndsInFault s f ↔ op.Leaks ev scope s args f := by
  cases hop : op.opens? with
  | none =>
    refine iff_of_false (run_not_endsInFault hop h hports hf) fun hleaks => ?_
    have hsome := hleaks.isSome_opens?
    rw [hop] at hsome
    cases hsome
  | some direction =>
    rcases opens?_cases hop with rfl | rfl | rfl
    · have hone : (opening direction).arity = .exact 1 := by cases direction <;> rfl
      obtain ⟨name, rfl⟩ := Arity.exists_one (hone ▸ h)
      have hrun : (opening direction).run ev [name] scope =
          openFile direction (opening direction).name name := by cases direction <;> rfl
      rw [hrun]
      exact opening_endsInFault_iff direction name
    · have htwo : (handing direction).arity = .exact 2 := by cases direction <;> rfl
      obtain ⟨name, proc, rfl⟩ := Arity.exists_two (htwo ▸ h)
      rw [run_handing]
      exact handing_endsInFault_iff direction name proc
    · have htwo : (redirecting direction).arity = .exact 2 := by cases direction <;> rfl
      obtain ⟨name, proc, rfl⟩ := Arity.exists_two (htwo ▸ h)
      rw [run_redirecting]
      exact redirecting_endsInFault_iff direction name proc

end PortOp

/-! ### Application and loading -/

/-- The faults that a control procedure ends in: applying a procedure ends in those of the application. -/
inductive ControlOp.Leaks (ev : Evaluator) (scope : ScopeId) (s : Store) :
    ControlOp → List Value → Fault → Prop
  | applied {proc last : Value} {more : List Value} {f : Fault} (hproc : proc.isProcedure = true)
      (hlast : more.getLast? = some last) (hproper : last.isProper = true)
      (happly : (ev.apply proc (more.dropLast ++ last.items) scope).EndsInFault s f) :
      Leaks ev scope s .apply (proc :: more) f

/-- The faults that loading ends in. -/
inductive SystemOp.Leaks (ev : Evaluator) (s : Store) : SystemOp → List Value → Fault → Prop
  /-- A name in the way to the file has no bytes, holds a zero byte or is too long. -/
  | name {buffer : BufferId} {f : Fault} (hfind : findSource s (s.content buffer) = .error f) :
      Leaks ev s .load [.str buffer] f
  /-- The file holds bytes that are no text. -/
  | text {buffer : BufferId} {path : Path} {place : Location} {f : Fault}
      (hfind : findSource s (s.content buffer) = .ok (some (path, place)))
      (htext : sourceText s.files place = .error f) : Leaks ev s .load [.str buffer] f
  /-- The data in the file are nested too deeply. -/
  | nested {buffer : BufferId} {path : Path} {place : Location} {source : Text}
      (hfind : findSource s (s.content buffer) = .ok (some (path, place)))
      (htext : sourceText s.files place = .ok source)
      (hread : (readAll ev.nesting source).failure = some .nestedTooDeeply) :
      Leaks ev s .load [.str buffer] .nestedTooDeeply
  /-- The evaluation of what the file says ends in a fault. -/
  | evaluated {buffer : BufferId} {path : Path} {place : Location} {source : Text} {f : Fault}
      (hfind : findSource s (s.content buffer) = .ok (some (path, place)))
      (htext : sourceText s.files place = .ok source) (hread : (readAll ev.nesting source).failure = none)
      (heval : (limited (ev.evalData rootScope (readAll ev.nesting source).forms)).EndsInFault s f) :
      Leaks ev s .load [.str buffer] f

section

variable {ev : Evaluator} {scope : ScopeId} {s : Store} {f : Fault}

theorem ControlOp.apply_endsInFault_iff {proc : Value} {more : List Value} (hmore : more ≠ []) :
    (ControlOp.run .apply ev (proc :: more) scope).EndsInFault s f ↔
      ControlOp.Leaks ev scope s .apply (proc :: more) f := by
  have hlast := List.getLast?_eq_getLast_of_ne_nil hmore
  refine (asProcedure_finds _ proc s).endsInFault_bind_iff.trans ?_
  simp only [hlast]
  constructor
  · rintro ⟨_, hfound, h⟩
    obtain ⟨hproc, ⟨⟩⟩ := Option.ite_none_right_eq_some.mp hfound
    obtain ⟨_, hfound, happly⟩ := (asItems_finds _ _ s).endsInFault_bind_iff.mp h
    obtain ⟨hproper, ⟨⟩⟩ := Option.ite_none_right_eq_some.mp hfound
    exact .applied hproc hlast hproper happly
  · intro h
    cases h with
    | applied hproc hlast' hproper happly =>
      cases hlast.symm.trans hlast'
      exact ⟨proc, if_pos hproc,
        (asItems_finds _ _ s).endsInFault_bind_iff.mpr ⟨_, if_pos hproper, happly⟩⟩

theorem ControlOp.run_endsInFault_iff {op : ControlOp} {args : List Value}
    (h : op.arity.accepts args.length = true) (hf : f ≠ .numeralTooLong) :
    (op.run ev args scope).EndsInFault s f ↔ op.Leaks ev scope s args f := by
  cases op with
  | eval =>
    obtain ⟨expr, rfl⟩ := Arity.exists_one h
    exact iff_of_false ((Finds.pure _ s).not_endsInFault f) nofun
  | apply =>
    match args, h with
    | proc :: last :: more, _ => exact apply_endsInFault_iff (List.cons_ne_nil last more)
  | gensym =>
    have hguarded : (ControlOp.run .gensym ev args scope).Guarded := by
      match args, h with
      | [], _ => grind [run]
      | [start], _ =>
        unfold run
        dsimp only
        split <;> grind
    exact iff_of_false (fun hrun => hf (hguarded s f hrun)) nofun

theorem loadSource_endsInFault_iff (hf : f ≠ .numeralTooLong) {buffer : BufferId} :
    (loadSource ev (s.content buffer)).EndsInFault s f ↔
      SystemOp.Leaks ev s .load [.str buffer] f := by
  rw [loadSource, endsInFault_get_bind_iff]
  constructor
  · intro h
    split at h
    next hfind =>
      obtain rfl := endsInFault_fault_iff.mp h
      exact .name hfind
    next => exact ((evaluationError_finds s _).not_endsInFault f h).elim
    next path place hfind =>
      split at h
      next htext =>
        obtain rfl := endsInFault_fault_iff.mp h
        exact .text hfind htext
      next source htext =>
        dsimp only at h
        split at h
        next => exact ((evaluationError_finds s _).not_endsInFault f h).elim
        next hfault => exact absurd hfault (failure_readAll_ne_fault _ source _)
        next => exact absurd (endsInFault_fault_iff.mp h) hf
        next hread =>
          obtain rfl := endsInFault_fault_iff.mp h
          exact .nested hfind htext hread
        next hread => exact .evaluated hfind htext hread h
  · intro h
    cases h with
    | name hfind =>
      simp only [hfind]
      exact endsInFault_fault_iff.mpr rfl
    | text hfind htext =>
      simp only [hfind, htext]
      exact endsInFault_fault_iff.mpr rfl
    | nested hfind htext hread =>
      simp only [hfind, htext, hread]
      exact endsInFault_fault_iff.mpr rfl
    | evaluated hfind htext hread heval =>
      simp only [hfind, htext, hread]
      exact heval

theorem SystemOp.run_endsInFault_iff {op : SystemOp} {args : List Value}
    (h : op.arity.accepts args.length = true) (hf : f ≠ .numeralTooLong) :
    (op.run ev args).EndsInFault s f ↔ op.Leaks ev s args f := by
  cases op with
  | load =>
    obtain ⟨v, rfl⟩ := Arity.exists_one h
    refine (asText_finds _ v s).endsInFault_bind_iff.trans ?_
    constructor
    · rintro ⟨t, ht, hload⟩
      obtain ⟨buffer, hbuffer, rfl⟩ := Option.map_eq_some_iff.mp ht
      obtain rfl := Value.buffer?_eq_some_iff.mp hbuffer
      exact (loadSource_endsInFault_iff hf).mp hload
    · intro hleaks
      have hstr : ∃ buffer, v = .str buffer := by cases hleaks <;> exact ⟨_, rfl⟩
      obtain ⟨buffer, rfl⟩ := hstr
      exact ⟨_, rfl, (loadSource_endsInFault_iff hf).mpr hleaks⟩
  | exit =>
    have hguarded : (exitCode args).Guarded := by
      unfold exitCode
      split <;> grind
    refine iff_of_false (fun hrun => ?_) nofun
    rcases endsInFault_bind_iff.mp hrun with hcode | ⟨_, _, _, _, hexit⟩
    · exact hf (hguarded s f hcode)
    · cases hexit

end

/-! ### All primitive procedures -/

/-- The faults that primitive procedures end in. -/
inductive Primitive.Leaks (ev : Evaluator) (scope : ScopeId) (s : Store) :
    Primitive → List Value → Fault → Prop
  /-- An integer too large for a float is combined with a float. -/
  | numbers {op : NumberOp} {args : List Value} {nums : List Number}
      (hnums : args.mapM Value.number? = some nums) (h : op.Overflows nums) :
      Leaks ev scope s (.numbers op) args .integerTooLarge
  /-- A string is to be longer than anything can be. -/
  | strings {k : Int} {filler : List Value} {f : Fault} (hfiller : ∀ v ∈ filler.head?, v.char?.isSome = true)
      (h : StringOp.Exceeds k f) : Leaks ev scope s (.strings .make) (.int k :: filler) f
  | control {op : ControlOp} {args : List Value} {f : Fault} (h : op.Leaks ev scope s args f) :
      Leaks ev scope s (.control op) args f
  | output {op : OutputOp} {args : List Value} {f : Fault} (h : op.Leaks ev.nesting s args f) :
      Leaks ev scope s (.output op) args f
  | input {op : InputOp} {args : List Value} {f : Fault} (h : op.Leaks ev s args f) :
      Leaks ev scope s (.input op) args f
  | ports {op : PortOp} {args : List Value} {f : Fault} (h : op.Leaks ev scope s args f) :
      Leaks ev scope s (.ports op) args f
  | system {op : SystemOp} {args : List Value} {f : Fault} (h : op.Leaks ev s args f) :
      Leaks ev scope s (.system op) args f

/-- A procedure that gives a value is a step that ends with it. -/
theorem endsInFault_value_iff {act : Action Value} {s : Store} {f : Fault} :
    (act >>= fun v => pure (Step.value v)).EndsInFault s f ↔ act.EndsInFault s f := by
  rw [← map_eq_pure_bind, endsInFault_map_iff]

/-- The faults that a primitive procedure ends in are the listed ones. -/
theorem Primitive.run_endsInFault_iff {ev : Evaluator} {p : Primitive} {args : List Value} {scope : ScopeId}
    {s : Store} {f : Fault} (h : p.arity.accepts args.length = true) (hports : s.HoldsPorts args)
    (hf : f ≠ .numeralTooLong) :
    (p.run ev args scope).EndsInFault s f ↔ p.Leaks ev scope s args f := by
  -- Procedures that are guarded end in no fault but that of a numeral, and the list has nothing of theirs.
  have hguarded : ∀ {act : Action Value}, act.Guarded → ¬Primitive.Leaks ev scope s p args f →
      ((act >>= fun v => pure (Step.value v)).EndsInFault s f ↔ p.Leaks ev scope s args f) :=
    fun hact hnot => iff_of_false (fun hrun => hf (hact s f (endsInFault_value_iff.mp hrun))) hnot
  cases p with
  | numbers op =>
    refine endsInFault_value_iff.trans ((NumberOp.run_endsInFault_iff h hf).trans ⟨?_, ?_⟩)
    · rintro ⟨nums, hnums, hoverflows, rfl⟩
      exact .numbers hnums hoverflows
    · intro hleaks
      cases hleaks with
      | numbers hnums hoverflows => exact ⟨_, hnums, hoverflows, rfl⟩
  | lists op => exact hguarded (op.run_guarded h) nofun
  | tests op => exact hguarded (op.run_guarded h) nofun
  | characters op => exact hguarded (op.run_guarded h) nofun
  | conversions op => exact hguarded (op.run_guarded h) nofun
  | strings op =>
    by_cases hop : op = .make
    · subst hop
      cases args with
      | nil => exact absurd h (by decide)
      | cons count filler =>
        refine endsInFault_value_iff.trans (StringOp.makeString_endsInFault_iff.trans ⟨?_, ?_⟩)
        · rintro ⟨k, rfl, hfiller, hexceeds⟩
          exact .strings hfiller hexceeds
        · intro hleaks
          cases hleaks with
          | strings hfiller hexceeds => exact ⟨_, rfl, hfiller, hexceeds⟩
    · refine hguarded (op.run_guarded hop h) fun hleaks => ?_
      cases hleaks
      exact hop rfl
  | control op =>
    refine (ControlOp.run_endsInFault_iff h hf).trans ⟨.control, fun hleaks => ?_⟩
    cases hleaks with
    | control h => exact h
  | output op =>
    refine endsInFault_value_iff.trans ((OutputOp.run_endsInFault_iff h hports hf ev).trans ⟨.output, ?_⟩)
    intro hleaks
    cases hleaks with
    | output h => exact h
  | input op =>
    refine endsInFault_value_iff.trans ((InputOp.run_endsInFault_iff hports hf).trans ⟨.input, ?_⟩)
    intro hleaks
    cases hleaks with
    | input h => exact h
  | ports op =>
    refine endsInFault_value_iff.trans ((PortOp.run_endsInFault_iff h hports hf).trans ⟨.ports, ?_⟩)
    intro hleaks
    cases hleaks with
    | ports h => exact h
  | system op =>
    refine endsInFault_value_iff.trans ((SystemOp.run_endsInFault_iff h hf).trans ⟨.system, ?_⟩)
    intro hleaks
    cases hleaks with
    | system h => exact h

/-- An action ends as the language has it: with a value, by leaving, or in a failure of the language. The limit
on the digits of an integer and the bound on rounds are left aside. -/
inductive Action.EndsInLanguage {α : Type} (act : Action α) (s : Store) : Prop
  | value {a : α} {s' : Store} (h : act s = .ok a s')
  | exit {code : Int} {s' : Store} (h : act s = .error (.exit code) s')
  | failure {e : Failure} {s' : Store} (h : act s = .error (.failure e) s')
      (he : ∀ f, e = .fault f → f = .numeralTooLong)
  | exhausted {s' : Store} (h : act s = .error .exhausted s')

theorem Action.EndsInFault.not_endsInLanguage {α : Type} {act : Action α} {s : Store} {f : Fault}
    (h : act.EndsInFault s f) (hf : f ≠ .numeralTooLong) : ¬act.EndsInLanguage s := by
  obtain ⟨_, hact⟩ := h
  intro hends
  cases hends with
  | value h => cases hact.symm.trans h
  | exit h => cases hact.symm.trans h
  | failure h he =>
    cases hact.symm.trans h
    exact hf (he f rfl)
  | exhausted h => cases hact.symm.trans h

theorem Action.endsInLanguage_of_not_endsInFault {α : Type} {act : Action α} {s : Store}
    (h : ∀ f, act.EndsInFault s f → f = .numeralTooLong) : act.EndsInLanguage s := by
  cases hact : act s with
  | ok a s' => exact .value hact
  | error e s' =>
    cases e with
    | exit code => exact .exit hact
    | exhausted => exact .exhausted hact
    | failure e =>
      refine .failure hact fun f he => h f ⟨s', ?_⟩
      rw [hact, he]

/-- A call of a primitive procedure. -/
def Primitive.call (p : Primitive) (ev : Evaluator) (args : List Value) (scope : ScopeId) : Action Step :=
  ev.applyStep (.atom (.primitive p)) args scope

/-- With as many arguments as it takes, a procedure is run. -/
theorem Primitive.call_of_accepts {p : Primitive} {args : List Value} (h : p.arity.accepts args.length = true)
    (ev : Evaluator) (scope : ScopeId) : p.call ev args scope = p.run ev args scope := if_pos h

/-- A call of a primitive procedure ends in a fault exactly when it has as many arguments as the procedure
takes and is one of the listed leaks. Every other call, whatever its arguments and the state, ends as the
language has it. -/
theorem primitive_calls_leak_as_listed (p : Primitive) (ev : Evaluator) {args : List Value} (scope : ScopeId)
    {s : Store} (hports : s.HoldsPorts args) :
    (∀ f, f ≠ .numeralTooLong → ((p.call ev args scope).EndsInFault s f ↔
      p.arity.accepts args.length = true ∧ p.Leaks ev scope s args f)) ∧
    ((∀ f, p.arity.accepts args.length = true → ¬p.Leaks ev scope s args f) →
      (p.call ev args scope).EndsInLanguage s) := by
  have hfault : ∀ f, f ≠ .numeralTooLong → ((p.call ev args scope).EndsInFault s f ↔
      p.arity.accepts args.length = true ∧ p.Leaks ev scope s args f) := by
    intro f hf
    rw [Primitive.call, Evaluator.applyStep]
    cases harity : p.arity.accepts args.length with
    | true =>
      rw [if_pos rfl, Primitive.run_endsInFault_iff harity hports hf]
      exact (and_iff_right rfl).symm
    | false =>
      refine iff_of_false ?_ fun h => Bool.false_ne_true h.1
      rintro ⟨_, h⟩
      cases h
  refine ⟨hfault, fun hnot => endsInLanguage_of_not_endsInFault fun f h => ?_⟩
  by_contra hf
  obtain ⟨harity, hleaks⟩ := (hfault f hf).mp h
  exact hnot f harity hleaks

/-- A session with a file that holds no text and a string that names it. A port on the current output was made
during a redirection whose file has been closed since. -/
def leakingStore : Store :=
  let files : FileTree := ⟨[([Utf8.encodeCode 'f'.toNat], [0xFF])], [], .ofText "/", []⟩
  { Session.initialStore [] files (.ofText "/") [] with
    buffers := #[text "f"]
    ports := #[⟨"stdout", 2, false, false, false⟩]
    streams := #[.source [], .console [], .closed] }

theorem leakingStore_holdsPorts {args : List Value} (h : ∀ v ∈ args, v.port? = none ∨ v = .atom (.port 0)) :
    leakingStore.HoldsPorts args := by
  intro id hid
  rcases h _ hid with hnone | hport
  · cases hnone
  · cases hport
    exact Nat.zero_lt_one

/-- Writing through the port leaks; taking the head of the empty list ends in a failure of the language. -/
theorem primitive_calls_leak_as_listed_closedFile :
    leakingStore.HoldsPorts [.char 'a', .atom (.port 0)] ∧
    (Primitive.call (.output .writeChar) exampleEvaluator [.char 'a', .atom (.port 0)] rootScope).EndsInFault
      leakingStore (.stream .closed) ∧
    (Primitive.call (.lists .car) exampleEvaluator [.nil] rootScope).EndsInLanguage leakingStore := by
  have hports : leakingStore.HoldsPorts [.char 'a', .atom (.port 0)] :=
    leakingStore_holdsPorts (by simp [Value.port?])
  have hleaks : Primitive.Leaks exampleEvaluator rootScope leakingStore (.output .writeChar)
      [.char 'a', .atom (.port 0)] (.stream .closed) := .output ⟨_, _, rfl, .refused rfl .closed⟩
  refine ⟨hports, ?_, ?_⟩
  · exact ((primitive_calls_leak_as_listed (.output .writeChar) exampleEvaluator rootScope hports).1
      (.stream .closed) nofun).mpr ⟨rfl, hleaks⟩
  · refine (primitive_calls_leak_as_listed (.lists .car) exampleEvaluator rootScope
      (leakingStore_holdsPorts (by simp [Value.port?]))).2 fun f _ h => ?_
    cases h

theorem floatOfInt?_pow {k : Nat} (h : 1100 < k) : floatOfInt? ((2 ^ k : Nat) : Int) = none := by
  rw [floatOfInt?, if_pos]
  rw [Int.natAbs_natCast, Nat.log2_two_pow]
  exact h

/-- The sum of an integer too large for a float and a float, reading more than a size can express, loading a
file that is no text and writing through a port whose file has been closed: none ends as the language has
it. -/
theorem primitive_calls_leak :
    ¬(Primitive.call (.numbers .add) exampleEvaluator [.int ((2 ^ 1200 : Nat) : Int), .atom (.float 1.0 2)]
      rootScope).EndsInLanguage leakingStore ∧
    ¬(Primitive.call (.input .readString) exampleEvaluator [.int 18446744073709551616]
      rootScope).EndsInLanguage leakingStore ∧
    ¬(Primitive.call (.system .load) exampleEvaluator [.str 0] rootScope).EndsInLanguage leakingStore ∧
    ¬(Primitive.call (.output .writeChar) exampleEvaluator [.char 'a', .atom (.port 0)]
      rootScope).EndsInLanguage leakingStore := by
  have hcall : ∀ (p : Primitive) {args : List Value} {f : Fault}, p.arity.accepts args.length = true →
      (∀ v ∈ args, v.port? = none ∨ v = .atom (.port 0)) → f ≠ .numeralTooLong →
      p.Leaks exampleEvaluator rootScope leakingStore args f →
      ¬(p.call exampleEvaluator args rootScope).EndsInLanguage leakingStore := by
    intro p args f harity hports hf hleaks
    refine EndsInFault.not_endsInLanguage ?_ hf
    rw [Primitive.call, Evaluator.applyStep, if_pos harity]
    exact (Primitive.run_endsInFault_iff harity (leakingStore_holdsPorts hports) hf).mpr hleaks
  have hadd : ∀ n : Int, floatOfInt? n = none → ¬(Primitive.call (.numbers .add) exampleEvaluator
      [.int n, .atom (.float 1.0 2)] rootScope).EndsInLanguage leakingStore := by
    intro n hn
    have hclash : (Number.int (0 + n)).Clashes (.float 1.0) := (congrArg floatOfInt? (Int.zero_add n)).trans hn
    exact hcall (.numbers .add) (f := .integerTooLarge) rfl (by simp [Value.port?]) (by rintro ⟨⟩)
      (.numbers rfl ⟨_, _, _, .sum _, [.int n], .float 1.0, [], _, rfl, rfl, hclash⟩)
  refine ⟨hadd _ (floatOfInt?_pow (by decide)), ?_, ?_, ?_⟩
  · exact hcall (.input .readString) (f := .countTooLarge) rfl (by simp [Value.port?]) (by rintro ⟨⟩)
      (.input ⟨_, some (.points 18446744073709551616), rfl, .inl (.count rfl (by decide))⟩)
  · exact hcall (.system .load) (f := .stream .undecodable) rfl (by simp [Value.port?]) (by rintro ⟨⟩)
      (.system (.text rfl rfl))
  · exact hcall (.output .writeChar) (f := .stream .closed) rfl (by simp [Value.port?]) (by rintro ⟨⟩)
      (.output ⟨_, _, rfl, .refused rfl .closed⟩)

end Lisplet
