import Lisplet.Proofs.RoundTrip
import Lisplet.Proofs.Survival
import Lisplet.Proofs.WrittenFiles

/-!
# Redirections and the files of a call

Four procedures open a file for the time of one call: two hand the port over, two make the file the current
port. However the call ends, the current ports are those from before, and so they are after every request to
a session. The port of the file is closed when the call has ended, and it stays closed: whatever happens to
the store later, also under other redirections, every reading or writing through the port is refused.
-/

namespace Lisplet

open Lisplet.Action

/-! ### The current ports -/

namespace Store

theorem Change.balanced {s s' : Store} (h : s.Change s') :
    s'.input = s.input ∧ s'.output = s.output := by
  cases h with
  | closing id =>
    rcases closePort_cases s id with h | ⟨p, _, streams, files, h⟩
    · rw [h]
      exact ⟨rfl, rfl⟩
    · rw [h]
      exact ⟨rfl, rfl⟩
  | _ => exact ⟨rfl, rfl⟩

/-- Redirections are undone. -/
theorem Evolves.balanced {s s' : Store} (h : s.Evolves s') :
    s'.input = s.input ∧ s'.output = s.output := by
  induction h with
  | refl s => exact ⟨rfl, rfl⟩
  | change h => exact h.balanced
  | input stream h ih => exact ⟨rfl, ih.2⟩
  | output stream h ih => exact ⟨ih.1, rfl⟩
  | trans h h' ih ih' => exact ⟨ih'.1.trans ih.1, ih'.2.trans ih.2⟩

/-- What a store may become while a program goes on: changes, and redirections that need not be undone yet. -/
inductive Leads (s : Store) : Store → Prop
  | refl : Leads s s
  | change {s' s'' : Store} (h : Leads s s') (h' : s'.Change s'') : Leads s s''
  | redirect {s' : Store} (h : Leads s s') (direction : Direction) (stream : StreamId) :
      Leads s (s'.redirect direction stream)

theorem Leads.trans {s s' s'' : Store} (h : s.Leads s') (h' : s'.Leads s'') : s.Leads s'' := by
  induction h' with
  | refl => exact h
  | change _ hchange ih => exact ih.change hchange
  | redirect _ direction stream ih => exact ih.redirect direction stream

/-- A redirection that is undone is a redirection there and one back. -/
theorem Evolves.leads {s s' : Store} (h : s.Evolves s') : s.Leads s' := by
  induction h with
  | refl s => exact .refl
  | change h => exact Leads.refl.change h
  | @input s s' stream h ih => exact ((Leads.refl.redirect .input stream).trans ih).redirect .input s.input
  | @output s s' stream h ih =>
    exact ((Leads.refl.redirect .output stream).trans ih).redirect .output s.output
  | trans h h' ih ih' => exact ih.trans ih'

theorem Leads.wellFormed {s s' : Store} (h : s.Leads s') (hs : s.WellFormed) : s'.WellFormed := by
  induction h with
  | refl => exact hs
  | change _ hchange ih => exact hchange.wellFormed ih
  | redirect _ direction stream ih => exact ih.redirect direction stream

end Store

/-! ### Ports -/

/-- The port after it has been closed. -/
def Port.closed (p : Port) : Port := { p with isClosed := true }

theorem Port.closed_of_isClosed {p : Port} (h : p.isClosed = true) : p.closed = p := by
  cases p
  cases h
  rfl

namespace Store

/-- A port stays what it is, or it has been closed. -/
def HasPort (s : Store) (id : PortId) (p : Port) : Prop :=
  s.ports[id]? = some p ∨ s.ports[id]? = some p.closed

theorem ports_closePort {s : Store} {id : PortId} {p : Port} (hp : s.ports[id]? = some p) :
    (s.closePort id).ports[id]? = some p.closed := by
  obtain ⟨hlt, _⟩ := Array.getElem?_eq_some_iff.mp hp
  have hset : (s.ports.set! id p.closed)[id]? = some p.closed := by
    rw [Array.set!_eq_setIfInBounds, Array.getElem?_setIfInBounds, if_pos rfl, if_pos hlt]
  rw [closePort, hp]
  dsimp only
  split
  next hclosed => rw [hp, Port.closed_of_isClosed hclosed]
  next =>
    split
    next => exact hset
    next => exact hset

theorem ports_closePort_of_ne {s : Store} {id id' : PortId} (hne : id' ≠ id) :
    (s.closePort id').ports[id]? = s.ports[id]? := by
  rcases closePort_cases s id' with h | ⟨q, _, streams, files, h⟩
  · rw [h]
  · rw [h]
    show (s.ports.set! id' _)[id]? = s.ports[id]?
    rw [Array.set!_eq_setIfInBounds, Array.getElem?_setIfInBounds, if_neg hne]

theorem HasPort.closePort {s : Store} {id : PortId} {p : Port} (h : s.HasPort id p) :
    (s.closePort id).ports[id]? = some p.closed := by
  rcases h with h | h
  · exact ports_closePort h
  · rw [ports_closePort h]
    rfl

theorem Change.hasPort {s s' : Store} (h : s.Change s') {id : PortId} {p : Port} (hp : s.HasPort id p) :
    s'.HasPort id p := by
  cases h with
  | port q => exact hp.imp (getElem?_push_of_some · q) (getElem?_push_of_some · q)
  | closing id' =>
    by_cases hid : id' = id
    · exact .inr (hid ▸ hp.closePort)
    · rw [HasPort, ports_closePort_of_ne hid]
      exact hp
  | _ => exact hp

theorem HasPort.redirect {s : Store} {id : PortId} {p : Port} (hp : s.HasPort id p) (direction : Direction)
    (stream : StreamId) : (s.redirect direction stream).HasPort id p := by
  rw [HasPort, ports_redirect]
  exact hp

theorem Leads.hasPort {s s' : Store} (h : s.Leads s') {id : PortId} {p : Port} (hp : s.HasPort id p) :
    s'.HasPort id p := by
  induction h with
  | refl => exact hp
  | change _ hchange ih => exact hchange.hasPort ih
  | redirect _ direction stream ih => exact ih.redirect direction stream

/-- A closed port stays as it is. -/
theorem Leads.port_of_closed {s s' : Store} (h : s.Leads s') {id : PortId} {p : Port}
    (hp : s.ports[id]? = some p.closed) : s'.ports[id]? = some p.closed :=
  (h.hasPort (p := p.closed) (.inl hp)).elim (fun h => h) fun h => h

end Store

/-! ### Uses of a closed port -/

/-- The failure that a closed port meets every use with. -/
def Port.refusal (p : Port) : Failure := .evaluation (.portClosed p.name)

example (p : Port) :
    p.refusal.message? = some (text "runtime error: " ++ (text "port " ++ p.name ++ text " is closed")) := rfl

/-- The calls that read through a port. -/
inductive InputOp.Reads (port : Value) : InputOp → List Value → Prop
  | line : Reads port .readLine [port]
  | char : Reads port .readChar [port]
  | datum : Reads port .readDatum [port]
  | rest : Reads port .readString [port]
  | count (k : Nat) : Reads port .readString [.int k, port]

/-- The calls that write through a port, in a store in which what they write has a text under a bound on nesting. -/
inductive OutputOp.Writes (nesting : Nat) (s : Store) (port : Value) : OutputOp → List Value → Prop
  | display {v : Value} {t : Text} (h : s.print .display v nesting = .ok t) : Writes nesting s port .display [v, port]
  | write {v : Value} {t : Text} (h : s.print .write v nesting = .ok t) : Writes nesting s port .write [v, port]
  | newline : Writes nesting s port .newline [port]
  | char (c : CodePoint) : Writes nesting s port .writeChar [.char c, port]
  | string (buffer : BufferId) : Writes nesting s port .writeString [.str buffer, port]
  | stringFrom {buffer : BufferId} {start : Nat} (h : start ≤ (s.content buffer).length) :
      Writes nesting s port .writeString [.str buffer, port, .int start]
  | stringPart {buffer : BufferId} {start finish : Nat} (h : start ≤ finish)
      (h' : finish ≤ (s.content buffer).length) :
      Writes nesting s port .writeString [.str buffer, port, .int start, .int finish]

namespace Port

variable {p : Port} (hclosed : p.isClosed = true)

include hclosed

theorem checkOpen_of_closed (s : Store) : p.checkOpen s = .error (.failure p.refusal) s := by
  rw [checkOpen, if_pos hclosed]
  rfl

theorem write_of_closed (t : Text) (s : Store) : p.write t s = .error (.failure p.refusal) s :=
  bind_of_error (checkOpen_of_closed hclosed s)

theorem readLine_of_closed (s : Store) : p.readLine s = .error (.failure p.refusal) s :=
  bind_of_error (checkOpen_of_closed hclosed s)

theorem read_of_closed (count : Nat) (s : Store) : p.read count s = .error (.failure p.refusal) s :=
  bind_of_error (checkOpen_of_closed hclosed s)

theorem readRest_of_closed (s : Store) : p.readRest s = .error (.failure p.refusal) s :=
  bind_of_error (checkOpen_of_closed hclosed s)

end Port

section

variable {s : Store} {id : PortId} {p : Port} (hp : s.ports[id]? = some p) (hclosed : p.isClosed = true)

include hp hclosed

/-- Nothing is read through a closed port. -/
theorem InputOp.Reads.run_of_closed {op : InputOp} {args : List Value}
    (h : op.Reads (.atom (.port id)) args) (hinput : p.isInput = true) (ev : Evaluator) :
    op.run ev args s = .error (.failure p.refusal) s := by
  have hport : ∀ who, chosenPort .input who [.atom (.port id)] s = .ok p s :=
    fun who => chosenPort_of_port hp hinput
  cases h with
  | line => exact (bind_of_ok (hport _)).trans (bind_of_error (p.readLine_of_closed hclosed s))
  | char => exact (bind_of_ok (hport _)).trans (bind_of_error (p.read_of_closed hclosed 1 s))
  | datum => exact (bind_of_ok (hport _)).trans (bind_of_error (p.readLine_of_closed hclosed s))
  | rest => exact (bind_of_ok (hport _)).trans (bind_of_error (p.readRest_of_closed hclosed s))
  | count k =>
    have hcount : InputOp.countAndPort InputOp.readString.name [.int k, .atom (.port id)] s =
        .ok (some k, [.atom (.port id)]) s := by
      have hinteger : asInteger (some InputOp.readString.name) (.int k) s = .ok (k : Int) s := rfl
      show (do
        let k ← asInteger (some InputOp.readString.name) (.int k)
        if k < 0 then typeError (.negative "count" InputOp.readString.name k) (.int k)
        else pure (some k.toNat, [.atom (.port id)]) : Action (Option Nat × List Value)) s = _
      rw [bind_of_ok hinteger, if_neg (Int.not_lt.mpr (Int.natCast_nonneg k))]
      rfl
    show InputOp.readCount InputOp.readString.name [.int k, .atom (.port id)] s = _
    rw [InputOp.readCount, bind_of_ok hcount]
    exact (bind_of_ok (hport _)).trans (bind_of_error (p.checkOpen_of_closed hclosed s))

/-- Nothing is written through a closed port. -/
theorem OutputOp.Writes.run_of_closed {ev : Evaluator} {op : OutputOp} {args : List Value}
    (h : op.Writes ev.nesting s (.atom (.port id)) args) (houtput : p.isInput = false) :
    op.run ev args s = .error (.failure p.refusal) s := by
  have hport : ∀ who, chosenPort .output who [.atom (.port id)] s = .ok p s :=
    fun who => chosenPort_of_port hp houtput
  have hemit : ∀ (who : Text) (mode : PrintMode) {v : Value} {t : Text}, s.print mode v ev.nesting = .ok t →
      OutputOp.emit ev.nesting who mode v [.atom (.port id)] s = .error (.failure p.refusal) s := by
    intro who mode v t ht
    have hprint : Action.print mode v ev.nesting s = .ok t s := by
      rw [Action.print, get_bind, ht]
      rfl
    rw [OutputOp.emit, bind_of_ok (hport who), bind_of_ok hprint]
    exact bind_of_error (p.write_of_closed hclosed t s)
  -- The bounds are checked before the port is used.
  have hpart : ∀ (t : Text) {start finish : Nat}, start ≤ finish → finish ≤ t.length →
      (if 0 ≤ (start : Int) ∧ (start : Int) ≤ finish ∧ (finish : Int) ≤ t.length then do
          p.write (StringOp.slice t (start : Int).toNat (finish : Int).toNat)
          pure Value.void
        else evaluationError (.rangeOutOfBounds start finish) : Action Value) s =
      .error (.failure p.refusal) s := by
    intro t start finish hstart hfinish
    rw [if_pos ⟨Int.natCast_nonneg start, Int.ofNat_le.mpr hstart, Int.ofNat_le.mpr hfinish⟩]
    exact bind_of_error (p.write_of_closed hclosed _ s)
  cases h with
  | display ht => exact hemit _ _ ht
  | write ht => exact hemit _ _ ht
  | newline => exact (bind_of_ok (hport _)).trans (bind_of_error (p.write_of_closed hclosed _ s))
  | char c =>
    have hchar : asChar (some OutputOp.writeChar.name) (.char c) s = .ok c s := rfl
    refine (bind_of_ok hchar).trans ((bind_of_ok (hport _)).trans ?_)
    exact bind_of_error (p.write_of_closed hclosed _ s)
  | string buffer =>
    refine (bind_of_ok (hport _)).trans ?_
    exact @hpart (s.content buffer) 0 _ (Nat.zero_le _) (Nat.le_refl _)
  | stringFrom hstart =>
    refine (bind_of_ok (hport _)).trans ?_
    exact hpart _ hstart (Nat.le_refl _)
  | stringPart hstart hfinish =>
    refine (bind_of_ok (hport _)).trans ?_
    exact hpart _ hstart hfinish

end

/-- A port is closed, and every reading or writing through it is refused and leaves the store alone. -/
structure Store.Refuses (s : Store) (id : PortId) (p : Port) : Prop where
  closed : s.ports[id]? = some p.closed
  reading : p.isInput = true → ∀ (ev : Evaluator) {op : InputOp} {args : List Value},
    op.Reads (.atom (.port id)) args → op.run ev args s = .error (.failure p.refusal) s
  writing : p.isInput = false → ∀ (ev : Evaluator) {op : OutputOp} {args : List Value},
    op.Writes ev.nesting s (.atom (.port id)) args → op.run ev args s = .error (.failure p.refusal) s

theorem Store.refuses_of_closed {s : Store} {id : PortId} {p : Port}
    (hp : s.ports[id]? = some p.closed) : s.Refuses id p where
  closed := hp
  reading hinput ev _ _ hreads := hreads.run_of_closed hp rfl hinput ev
  writing houtput _ _ _ hwrites := hwrites.run_of_closed hp rfl houtput

/-! ### Calls with a file -/

/-- A file is opened as a new port of its direction; the current ports stay. -/
theorem openFile_spec {direction : Direction} {who : Text} {name port : Value} {s s' : Store}
    (h : openFile direction who name s = .ok port s') :
    ∃ p, port = .atom (.port s.ports.size) ∧ s'.ports[s.ports.size]? = some p ∧
      p.isInput = decide (direction = .input) ∧ p.isClosed = false := by
  obtain ⟨_, path, place, files, _, _, _, rfl, rfl⟩ := openFile_ok_iff.mp h
  exact ⟨.opened path s.streams.size direction, rfl, Array.getElem?_push_size, rfl, rfl⟩

namespace PortOp

/-- The procedure that hands the port of a file over. -/
def handing : Direction → PortOp
  | .input => .callWithInputFile
  | .output => .callWithOutputFile

/-- The procedure that makes a file the current port. -/
def redirecting : Direction → PortOp
  | .input => .withInputFromFile
  | .output => .withOutputToFile

section

variable {ev : Evaluator} {scope : ScopeId} {direction : Direction} {who : Text} {name proc : Value}
  {s opened : Store} {id : PortId}

/-- The port is handed over for one call, which is carried out to its end. -/
theorem callWithFile_of_opened (hproc : proc.isProcedure = true)
    (hopen : openFile direction who name s = .ok (.atom (.port id)) opened) :
    callWithFile ev scope direction who name proc s =
      ensuring (ev.call proc [.atom (.port id)] scope) (·.closePort id) opened := by
  have hasproc : asProcedure (some who) proc s = .ok proc s := by
    rw [asProcedure, if_pos hproc]
    rfl
  rw [callWithFile, bind_of_ok hasproc, bind_of_ok hopen]
  rfl

/-- The file is the current port for one call, which is carried out to its end. -/
theorem withFile_of_opened (hproc : proc.isProcedure = true) {p : Port}
    (hopen : openFile direction who name s = .ok (.atom (.port id)) opened)
    (hp : opened.ports[id]? = some p) :
    withFile ev scope direction who name proc s =
      ensuring (ev.call proc [] scope)
        (fun s' => (s'.redirect direction (opened.current direction)).closePort id)
        (opened.redirect direction p.stream) := by
  have hasproc : asProcedure (some who) proc s = .ok proc s := by
    rw [asProcedure, if_pos hproc]
    rfl
  rw [withFile, bind_of_ok hasproc, bind_of_ok hopen]
  show (portOf id >>= _) opened = _
  rw [bind_of_ok (portOf_spec hp), get_bind]
  cases direction with
  | input => rfl
  | output => rfl

end

theorem run_handing (ev : Evaluator) (scope : ScopeId) (direction : Direction) (name proc : Value) :
    (handing direction).run ev [name, proc] scope =
      callWithFile ev scope direction (handing direction).name name proc := by
  cases direction with
  | input => rfl
  | output => rfl

theorem run_redirecting (ev : Evaluator) (scope : ScopeId) (direction : Direction) (name proc : Value) :
    (redirecting direction).run ev [name, proc] scope =
      withFile ev scope direction (redirecting direction).name name proc := by
  cases direction with
  | input => rfl
  | output => rfl

end PortOp

/-- A call of a port procedure. -/
def PortOp.call (op : PortOp) (ev : Evaluator) (args : List Value) (scope : ScopeId) : Action Step :=
  ev.applyStep (.atom (.primitive (.ports op))) args scope

theorem PortOp.call_eq {op : PortOp} {args : List Value} (hop : op.arity.accepts args.length = true)
    (ev : Evaluator) (scope : ScopeId) : op.call ev args scope = Step.value <$> op.run ev args scope := by
  have harity : (Primitive.ports op).arity.accepts args.length = true := hop
  rw [call, Evaluator.applyStep, if_pos harity, map_eq_pure_bind]
  rfl

/-- A port that is open when a call begins and closed by what is restored is closed after the call. -/
theorem Evaluator.Evolving.closed_after_call {ev : Evaluator} (h : ev.Evolving) {scope : ScopeId}
    {s : Store} (hs : s.WellFormed) (hscope : scope < s.scopes.size) (proc : Value) (args : List Value)
    {id : PortId} {p : Port} (hp : s.ports[id]? = some p) {restore : Store → Store}
    (hrestore : ∀ s', s'.HasPort id p → (restore s').ports[id]? = some p.closed) :
    ((ensuring (ev.call proc args scope) restore).after s).ports[id]? = some p.closed := by
  have hevolves := (h.call hscope proc args hs).1
  rw [after_ensuring]
  exact hrestore _ (hevolves.leads.hasPort (.inl hp))

/-- The file of a call: a new port is opened on it, which is handed to one call or is the current port during
one call. When the call has ended, whatever comes later, every use of the port is refused. -/
structure PortOp.EndsWithCall (op : PortOp) (direction : Direction) (ev : Evaluator) (scope : ScopeId)
    (name proc : Value) (s opened : Store) (id : PortId) (p : Port) : Prop where
  isOpened : opened.ports[id]? = some p ∧ p.isInput = decide (direction = .input) ∧ p.isClosed = false
  handed : op = handing direction → op.call ev [name, proc] scope s =
    (Step.value <$> ensuring (ev.call proc [.atom (.port id)] scope) (·.closePort id)) opened
  redirected : op = redirecting direction → op.call ev [name, proc] scope s =
    (Step.value <$> ensuring (ev.call proc [] scope)
      fun s' => (s'.redirect direction (opened.current direction)).closePort id)
      (opened.redirect direction p.stream)
  refused : ∀ later, ((op.call ev [name, proc] scope).after s).Leads later → later.Refuses id p

section

variable {ev : Evaluator} (h : ev.Evolving) {scope : ScopeId} {direction : Direction} {name proc port : Value}
  {s opened : Store}

include h

theorem PortOp.handing_endsWithCall (hs : s.WellFormed) (hscope : scope < s.scopes.size)
    (hproc : proc.isProcedure = true)
    (hopen : openFile direction (handing direction).name name s = .ok port opened) :
    ∃ id p, port = .atom (.port id) ∧
      (handing direction).EndsWithCall direction ev scope name proc s opened id p := by
  obtain ⟨p, rfl, hp, hfresh⟩ := openFile_spec hopen
  have hopening := openFile_evolves hs hopen
  have harity : (handing direction).arity.accepts [name, proc].length = true := by
    cases direction with
    | input => rfl
    | output => rfl
  have hcall : (handing direction).call ev [name, proc] scope s =
      (Step.value <$> ensuring (ev.call proc [.atom (.port s.ports.size)] scope)
        (·.closePort s.ports.size)) opened := by
    rw [call_eq harity, run_handing]
    exact map_of_eq Step.value (callWithFile_of_opened hproc hopen)
  refine ⟨_, p, rfl, ⟨hp, hfresh⟩, fun _ => hcall, fun hne => ?_, fun later hlater => ?_⟩
  · cases direction with
    | input => exact nomatch hne
    | output => exact nomatch hne
  · have hclosed := h.closed_after_call (hopening.wellFormed hs) (hopening.exists_of_exists hscope) proc
      [.atom (.port s.ports.size)] hp fun _ hs' => hs'.closePort
    rw [after, hcall] at hlater
    rw [← after_map Step.value] at hclosed
    exact Store.refuses_of_closed (hlater.port_of_closed hclosed)

theorem PortOp.redirecting_endsWithCall (hs : s.WellFormed) (hscope : scope < s.scopes.size)
    (hproc : proc.isProcedure = true)
    (hopen : openFile direction (redirecting direction).name name s = .ok port opened) :
    ∃ id p, port = .atom (.port id) ∧
      (redirecting direction).EndsWithCall direction ev scope name proc s opened id p := by
  obtain ⟨p, rfl, hp, hfresh⟩ := openFile_spec hopen
  have hopening := openFile_evolves hs hopen
  have harity : (redirecting direction).arity.accepts [name, proc].length = true := by
    cases direction with
    | input => rfl
    | output => rfl
  have hcall : (redirecting direction).call ev [name, proc] scope s =
      (Step.value <$> ensuring (ev.call proc [] scope)
        fun s' => (s'.redirect direction (opened.current direction)).closePort s.ports.size)
        (opened.redirect direction p.stream) := by
    rw [call_eq harity, run_redirecting]
    exact map_of_eq Step.value (withFile_of_opened hproc hopen hp)
  refine ⟨_, p, rfl, ⟨hp, hfresh⟩, fun hne => ?_, fun _ => hcall, fun later hlater => ?_⟩
  · cases direction with
    | input => exact nomatch hne
    | output => exact nomatch hne
  · have hinside : scope < (opened.redirect direction p.stream).scopes.size := by
      rw [Store.scopes_redirect]
      exact hopening.exists_of_exists hscope
    have hport : (opened.redirect direction p.stream).ports[s.ports.size]? = some p := by
      rw [Store.ports_redirect, hp]
    -- The port is closed when the call ends; redirecting back does not open it again.
    have hclosed := h.closed_after_call ((hopening.wellFormed hs).redirect direction p.stream) hinside proc
      [] hport fun _ hs' => (hs'.redirect direction (opened.current direction)).closePort
    rw [after, hcall] at hlater
    rw [← after_map Step.value] at hclosed
    exact Store.refuses_of_closed (hlater.port_of_closed hclosed)

end

namespace Session

/-- Redirections are balanced, and the file of a call is closed after it. Every request to a session, however
it ends, leaves the current ports as they were. At whatever point of a run, and at whatever depth, so does
every call of the four procedures that open a file; and when such a call opens its file, the port is
refused from the end of the call on. -/
theorem redirections_end_with_their_call {s : Store} (h : Reachable s) (b : Bounds) :
    (∀ r : Request, r.FitsIn s →
      ((r.perform b).after s).input = s.input ∧ ((r.perform b).after s).output = s.output) ∧
    ∀ (during : Store) (depth : Nat) (scope : ScopeId) (direction : Direction) (op : PortOp),
      s.Leads during → scope < during.scopes.size →
      op = PortOp.handing direction ∨ op = PortOp.redirecting direction →
      let ev := Evaluator.nested b.rounds b.nesting depth
      (∀ args, ((op.call ev args scope).after during).input = during.input ∧
        ((op.call ev args scope).after during).output = during.output) ∧
      ∀ (name proc port : Value) (opened : Store), proc.isProcedure = true →
        openFile direction op.name name during = .ok port opened →
        ∃ id p, port = .atom (.port id) ∧
          op.EndsWithCall direction ev scope name proc during opened id p := by
  refine ⟨fun r hr => (Request.perform_evolving b hr h.wellFormed).1.balanced, ?_⟩
  intro during depth scope direction op hduring hscope hop ev
  have hev : ev.Evolving := Evaluator.nested_evolving b.rounds b.nesting depth
  have hwf := hduring.wellFormed h.wellFormed
  refine ⟨fun args => (hev.applyStep _ args hscope hwf).1.balanced, ?_⟩
  intro name proc port opened hproc hopen
  rcases hop with rfl | rfl
  · exact PortOp.handing_endsWithCall hev hwf hscope hproc hopen
  · exact PortOp.redirecting_endsWithCall hev hwf hscope hproc hopen

/-- A fresh session with a file, and a string with the name of the file made in it. -/
theorem redirections_end_with_their_call_reading :
    let s := initialStore [] ⟨[([Utf8.encodeCode 'f'.toNat], [])], [], .ofText "/", []⟩ (.ofText "/") []
    let during := { s with buffers := s.buffers.push (text "f") }
    let proc := Value.atom (.primitive (.input .readLine))
    Reachable s ∧ s.Leads during ∧ ∃ opened p,
      (PortOp.handing .input).EndsWithCall .input Bounds.standard.evaluator rootScope (.str 0) proc
        during opened 0 p := by
  intro s during proc
  have hs : Reachable s := .initial [] _ _ []
  have hduring : s.Leads during := Store.Leads.refl.change (.string (text "f"))
  obtain ⟨_, hends⟩ := (redirections_end_with_their_call hs .standard).2 during Bounds.standard.depth
    rootScope .input (PortOp.handing .input) hduring Nat.zero_lt_one (.inl rfl)
  obtain ⟨id, p, hport, hcall⟩ := hends (.str 0) proc _ _ rfl rfl
  cases hport
  exact ⟨hs, hduring, _, p, hcall⟩

end Session

end Lisplet
