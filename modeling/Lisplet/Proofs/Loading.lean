import Lisplet.Proofs.DepthOrder
import Lisplet.Proofs.Encoding
import Lisplet.Proofs.Interleaving
import Lisplet.Proofs.Survival

/-!
# Loading a file and evaluating its text

A session that is given a source evaluates the forms before the first fault. A program that loads a file
with the same text reads all of it before anything is evaluated: on a fault it leaves the store alone, and
otherwise it ends as the session would, whatever scope it is called from.
-/

namespace Lisplet

open Token

/-! ### Why reading stops -/

theorem Reader.failure_run_ne_fault (limit : Nat) (scanFailure : Option ScanError) {ts taken : List Token}
    {r : Reader} (h : Reader.Follows taken r) (hts : ∀ token ∈ ts, ∃ more, Stands token more)
    (f : ReadFault) : (run limit scanFailure ts r).failure ≠ some (.fault f) := by
  induction ts generalizing taken r with
  | nil =>
    rw [run]
    cases (scanFailure.map ParseError.scan).or r.missing? with
    | none =>
      intro hf
      cases hf
    | some e =>
      intro hf
      cases hf
  | cons token ts ih =>
    obtain ⟨⟨more, hstands⟩, hts⟩ := List.forall_mem_cons.mp hts
    rcases step_cases limit h hstands with ⟨next, hstep, hnext⟩ | ⟨e, hstep, he⟩
    · rw [run_cons_ok hstep]
      exact ih hnext hts
    · rw [run_cons_error hstep]
      rintro ⟨⟩
      exact he

/-- Nothing goes wrong below the reader. -/
theorem failure_readAll_ne_fault (limit : Nat) (source : Text) (f : ReadFault) :
    (readAll limit source).failure ≠ some (.fault f) := by
  obtain ⟨rest, hspells, _⟩ := exists_spells_scan source
  have hstart : Reader.Follows [] Reader.start := ⟨[], [], 0, rfl, .nil, .nothing⟩
  exact Reader.failure_run_ne_fault limit _ hstart hspells.exists_stands f

/-! ### Loading -/

/-- The failure of loading a file whose reading stops. -/
def ReadFailure.inFile (path : Path) : ReadFailure → Failure
  | .malformed e => .evaluation (.loadMalformed path e)
  | .fault f => .fault (.reading f)
  | .numeralTooLong => .fault .numeralTooLong
  | .nestedTooDeeply => .fault .nestedTooDeeply

/-- A name to load leads to a file, with this path in messages, that holds a source. -/
def Store.Holds (s : Store) (name : Text) (path : Path) (source : Text) : Prop :=
  ∃ place bytes, findSource s name = .ok (some (path, place)) ∧ s.files.content? place = some bytes ∧
    Utf8.encode? source = some bytes

/-- A call of `load` with a string, on behalf of code in a scope. -/
def loadCall (ev : Evaluator) (buffer : BufferId) (scope : ScopeId) : Action Step :=
  ev.applyStep (.atom (.primitive (.system .load))) [.str buffer] scope

theorem loadCall_eq (ev : Evaluator) (buffer : BufferId) (scope : ScopeId) (s : Store) :
    loadCall ev buffer scope s = (Step.value <$> loadSource ev (s.content buffer)) s := by
  rw [map_eq_pure_bind]
  rfl

section

variable {ev : Evaluator} {s : Store} {name source : Text} {path : Path}

/-- A file that does not read completely leaves the store alone. -/
theorem loadSource_of_failure (hfile : s.Holds name path source) (hreturns : carriageReturn ∉ source)
    {e : ReadFailure} (he : (readAll ev.nesting source).failure = some e) :
    loadSource ev name s = .error (.failure (e.inFile path)) s := by
  obtain ⟨place, bytes, hfind, hcontent, hbytes⟩ := hfile
  rw [loadSource, get_bind]
  simp only [hfind, sourceText_of_encode? hcontent hbytes hreturns, he]
  cases e with
  | malformed => rfl
  | fault => rfl
  | numeralTooLong => rfl
  | nestedTooDeeply => rfl

/-- A file that reads completely is evaluated as a source of the session is. -/
theorem loadSource_of_complete (hfile : s.Holds name path source) (hreturns : carriageReturn ∉ source)
    (hread : (readAll ev.nesting source).failure = none) :
    loadSource ev name s = Session.evaluate ev source s := by
  obtain ⟨place, bytes, hfind, hcontent, hbytes⟩ := hfile
  rw [loadSource, get_bind]
  simp only [hfind, sourceText_of_encode? hcontent hbytes hreturns, hread]
  simp only [Session.evaluate, hread]
  exact congrFun (bind_pure _).symm s

end

namespace Session

/-- Evaluating a source and loading a file with it agree. A session reads a form when those before it have
been evaluated, in order and in the root scope up to the first signal, and reports a fault of the source only
behind them. A call of `load`, from any scope and at any depth, ends with the fault and leaves the store
alone when the source does not read completely. Otherwise it has the outcome of the source in a session with
as much room for nesting, and so, unless it ends too deep, the outcome in this session. -/
theorem evaluating_and_loading_agree {source : Text} (hreturns : carriageReturn ∉ source) (b : Bounds)
    {s : Store} (hs : s.WellFormed) :
    let reading := readAll b.nesting source
    evaluate b.evaluator source = evaluateInTurns b.evaluator source ∧
    (∃ r, EndsInOrder b.evaluator .void reading.forms s r ∧
      evaluate b.evaluator source s = sourceOutcome reading.failure r) ∧
    (∀ f, reading.failure ≠ some (.fault f)) ∧
    ∀ (depth : Nat) (buffer : BufferId) (scope : ScopeId) (path : Path), depth ≤ b.depth →
      scope < s.scopes.size → s.Holds (s.content buffer) path source →
      let ev := Evaluator.nested b.rounds b.nesting depth
      s.scopes.root scope = rootScope ∧
      (∀ e, reading.failure = some e → loadCall ev buffer scope s = .error (.failure (e.inFile path)) s) ∧
      (reading.failure = none →
        loadCall ev buffer scope s = (Step.value <$> evaluate ev source) s ∧
        ((∀ s', loadCall ev buffer scope s ≠ .error (.failure .tooDeep) s') →
          loadCall ev buffer scope s = (Step.value <$> evaluate b.evaluator source) s)) := by
  intro reading
  have hnesting : b.evaluator.nesting = b.nesting := Evaluator.nesting_nested _ _ _
  refine ⟨evaluate_eq_inTurns b.evaluator source, ?_, failure_readAll_ne_fault b.nesting source, ?_⟩
  · have houtcome := evaluate_outcome b.evaluator source s
    rw [hnesting] at houtcome
    exact houtcome
  intro depth buffer scope path hdepth hscope hfile ev
  have hreading : (readAll ev.nesting source).failure = reading.failure := by
    rw [Evaluator.nesting_nested]
  refine ⟨hs.scopes.root_eq hscope, fun e he => ?_, fun hread => ?_⟩
  · rw [loadCall_eq]
    exact map_of_error Step.value (loadSource_of_failure hfile hreturns (hreading.trans he))
  · have hload : loadCall ev buffer scope s = (Step.value <$> evaluate ev source) s := by
      rw [loadCall_eq]
      exact map_of_eq Step.value (loadSource_of_complete hfile hreturns (hreading.trans hread))
    refine ⟨hload, fun hdeep => hload.trans (map_of_eq Step.value ?_)⟩
    -- A call at a lower depth has less room, so it agrees unless it ends too deep.
    have hbelow : ev.Below Signal.IsTooDeep b.evaluator := Evaluator.nested_below b.rounds (Nat.le_refl _) hdepth
    refine (evaluate_eq_of_below hbelow source s fun s' he => hdeep s' ?_).symm
    rw [hload]
    exact map_of_error Step.value he

/-! ### Sessions with one file -/

/-- A fresh session with a file `f` that holds a source, and with a string that names the file. -/
def withSource (source : Text) : Store :=
  let bytes := source.flatMap fun c => Utf8.encodeCode c.val
  { initialStore [] ⟨[([Utf8.encodeCode 'f'.toNat], bytes)], [], .ofText "/", []⟩ (.ofText "/") [] with
    buffers := #[text "f"] }

theorem withSource_wellFormed (source : Text) : (withSource source).WellFormed :=
  have h := initialStore_wellFormed [] (withSource source).files (.ofText "/") []
  ⟨h.scopes, h.closures⟩

theorem withSource_holds {source : Text} (h : ∀ c ∈ source, c.isSurrogate = false) :
    (withSource source).Holds ((withSource source).content 0) (.ofText "/f") source :=
  ⟨_, _, rfl, rfl, Utf8.encode?_of_not_surrogate h⟩

/-- Whether an action ends with a value. -/
def endsWithValue {α : Type} : EStateM.Result Signal Store α → Bool
  | .ok _ _ => true
  | .error _ _ => false

/-- A definition in a file is made when the file is loaded, and not if the file ends with a fault. -/
theorem evaluating_and_loading_agree_define :
    let b : Bounds := ⟨3, 10, 10⟩
    let complete := text "(define x 1) (list x)"
    let broken := text "(define x 1) (list x"
    loadCall (Evaluator.nested 10 10 2) 0 rootScope (withSource complete) =
      (Step.value <$> evaluate b.evaluator complete) (withSource complete) ∧
    loadCall (Evaluator.nested 10 10 2) 0 rootScope (withSource broken) =
      .error (.failure (.evaluation (.loadMalformed (.ofText "/f") .unmatchedOpen))) (withSource broken) := by
  intro b complete broken
  have hreturns : carriageReturn ∉ complete ∧ carriageReturn ∉ broken := by decide
  have hsurrogates : (∀ c ∈ complete, c.isSurrogate = false) ∧ ∀ c ∈ broken, c.isSurrogate = false := by
    decide
  have hread : (readAll b.nesting complete).failure = none := by rfl
  have hfault : (readAll b.nesting broken).failure = some (.malformed .unmatchedOpen) := by rfl
  have hvalue : endsWithValue (loadCall (Evaluator.nested 10 10 2) 0 rootScope (withSource complete)) =
      true := by decide +kernel
  obtain ⟨_, _, _, hload⟩ := evaluating_and_loading_agree hreturns.1 b (withSource_wellFormed complete)
  obtain ⟨_, _, _, hload'⟩ := evaluating_and_loading_agree hreturns.2 b (withSource_wellFormed broken)
  obtain ⟨_, _, hcomplete⟩ := hload 2 0 rootScope _ (by decide) Nat.zero_lt_one (withSource_holds hsurrogates.1)
  obtain ⟨_, hbroken, _⟩ := hload' 2 0 rootScope _ (by decide) Nat.zero_lt_one (withSource_holds hsurrogates.2)
  refine ⟨(hcomplete hread).2 fun s' hdeep => ?_, hbroken _ hfault⟩
  rw [hdeep] at hvalue
  exact nomatch hvalue

/-- Two limits of the host keep loading from reporting every fault as a malformed file, and from always ending
as the source does. An integer of too many digits stops the reading without a fault of the source; and what
just fits into a session may be too deep one call further in. -/
theorem not_loading_agrees_within_every_limit :
    ¬(∀ (b : Bounds) (s : Store) (buffer : BufferId) (scope : ScopeId) (path : Path) (source : Text),
      carriageReturn ∉ source → s.WellFormed → scope < s.scopes.size →
      s.Holds (s.content buffer) path source → (readAll b.nesting source).failure ≠ none →
      ∃ e, loadCall b.evaluator buffer scope s =
        .error (.failure (.evaluation (.loadMalformed path e))) s) ∧
    ¬(∀ (b : Bounds) (depth : Nat) (s : Store) (buffer : BufferId) (scope : ScopeId) (path : Path)
      (source : Text), depth ≤ b.depth → carriageReturn ∉ source → s.WellFormed → scope < s.scopes.size →
      s.Holds (s.content buffer) path source → (readAll b.nesting source).failure = none →
      loadCall (Evaluator.nested b.rounds b.nesting depth) buffer scope s =
        (Step.value <$> evaluate b.evaluator source) s) := by
  constructor
  · intro h
    have hone : ∀ c ∈ tooLongSource, c = '1' := fun c hc => List.eq_of_mem_replicate hc
    have hreturns : carriageReturn ∉ tooLongSource := fun hc => absurd (hone _ hc) (by decide)
    have hsurrogates : ∀ c ∈ tooLongSource, c.isSurrogate = false := by
      intro c hc
      rw [hone c hc]
      decide
    have hread : (readAll nestingLimit tooLongSource).failure = some .numeralTooLong := by
      rw [readAll_tooLongSource]
    have hfile := withSource_holds hsurrogates
    obtain ⟨e, he⟩ := h .standard _ 0 rootScope _ tooLongSource hreturns (withSource_wellFormed _)
      Nat.zero_lt_one hfile (by rw [Bounds.standard, hread]; exact nofun)
    have hload : loadSource Bounds.standard.evaluator _ _ = _ :=
      loadSource_of_failure hfile hreturns hread
    rw [loadCall_eq, map_of_error Step.value hload] at he
    exact nomatch he
  · intro h
    have hload := h ⟨2, 10, 10⟩ 1 (withSource (text "(list)")) 0 rootScope _ (text "(list)") (by decide)
      (by decide) (withSource_wellFormed _) Nat.zero_lt_one (withSource_holds (by decide)) (by rfl)
    have hends := congrArg endsWithValue hload
    revert hends
    decide +kernel

end Session

end Lisplet
