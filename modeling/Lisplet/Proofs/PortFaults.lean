import Lisplet.Proofs.Faults
import Lisplet.Proofs.Loading
import Lisplet.Proofs.RoundTrip

/-!
# Faults of reading and writing

A closed port refuses every use by itself; a fault comes from the stream below an open one. A stream takes no
text when it is no stream to write to, or when the text would leave the program and has no bytes; what a
stream is asked for may be refused too. Apart from that, writing ends in a fault when a value is nested too
deeply to be printed, and reading when a count is beyond every size or the data on a line are nested too
deeply.
-/

namespace Lisplet

open Lisplet.Action

/-! ### Ports -/

/-- The ports among some arguments exist. -/
def Store.HoldsPorts (s : Store) (args : List Value) : Prop :=
  ∀ id, Value.atom (.port id) ∈ args → id < s.ports.size

/-- The port that an optional argument gives in a direction. -/
def Store.chosen? (s : Store) (wanted : Direction) : List Value → Option Port
  | [] => match wanted with
    | .input => some ⟨"stdin", s.input, true, false, false⟩
    | .output => some ⟨"stdout", s.output, false, false, false⟩
  | v :: _ => v.port?.bind fun id => s.ports[id]?.bind fun p =>
    if p.isInput = decide (wanted = .input) then some p else none

/-- The stream behind a port. -/
def Store.streamOf (s : Store) (p : Port) : Stream := s.streams[p.stream]?.getD .closed

theorem Store.HoldsPorts.mono {s : Store} {args args' : List Value} (h : s.HoldsPorts args')
    (hsub : args ⊆ args') : s.HoldsPorts args :=
  fun id hid => h id (hsub hid)

namespace Action

theorem portOf_finds {id : PortId} {s : Store} (h : id < s.ports.size) :
    (portOf id).Finds s s.ports[id]? := by
  rw [Array.getElem?_eq_getElem h]
  exact .found (portOf_spec (Array.getElem?_eq_getElem h))

theorem chosenPort_finds (wanted : Direction) (who : Text) {args : List Value} {s : Store}
    (h : s.HoldsPorts args) : (chosenPort wanted who args).Finds s (s.chosen? wanted args) := by
  cases args with
  | nil => cases wanted <;> exact .found rfl
  | cons v more =>
    refine (asPort_finds _ v s).bind _ fun id hid => ?_
    have hlt : id < s.ports.size := h id (by rw [Value.port?_eq_some_iff.mp hid]; exact List.mem_cons_self)
    refine (portOf_finds hlt).bind _ fun p _ => ?_
    split
    · exact .pure p s
    · exact typeError_finds v s _

theorem checkOpen_finds (p : Port) (s : Store) :
    p.checkOpen.Finds s (if p.isClosed then none else some ()) := by
  rw [Port.checkOpen]
  split
  · exact evaluationError_finds s _
  · exact .pure () s

/-- What is done with a port after a look whether it is open. -/
theorem endsInFault_checkOpen_bind_iff {α : Type} {p : Port} {next : Unit → Action α} {s : Store} {f : Fault} :
    (p.checkOpen >>= next).EndsInFault s f ↔ p.isClosed = false ∧ (next ()).EndsInFault s f := by
  refine (checkOpen_finds p s).endsInFault_bind_iff.trans ?_
  cases p.isClosed with
  | true => exact ⟨fun ⟨_, h, _⟩ => (nomatch h), fun h => (nomatch h.1)⟩
  | false => exact ⟨fun ⟨_, _, h⟩ => ⟨rfl, h⟩, fun ⟨_, h⟩ => ⟨(), rfl, h⟩⟩

end Action

/-- A stream does not take a text: it is no stream to write to, or the text would leave the program and has
no bytes. -/
inductive Stream.RefusesText (t : Text) : Stream → StreamFault → Prop
  | closed : RefusesText t .closed .closed
  | source (rest : Text) : RefusesText t (.source rest) .closed
  | fileSource (reader : FileReader) : RefusesText t (.fileSource reader) .closed
  | console (pieces : List Text) (h : Utf8.encode? t = none) : RefusesText t (.console pieces) .unencodable
  | fileSink (place : Location) (position : Nat) (outer inner : Bytes) (h : Utf8.encode? t = none) :
      RefusesText t (.fileSink place position outer inner) .unencodable

theorem Stream.write_eq_error_iff {tree : FileTree} {stream : Stream} {t : Text} {fault : StreamFault} :
    stream.write tree t = .error fault ↔ stream.RefusesText t fault := by
  constructor
  · intro h
    cases stream with
    | sink pieces => exact nomatch h
    | closed =>
      cases h
      exact .closed
    | source rest =>
      cases h
      exact .source rest
    | fileSource reader =>
      cases h
      exact .fileSource reader
    | console pieces =>
      rw [write] at h
      cases hbytes : Utf8.encode? t with
      | some bytes =>
        rw [hbytes] at h
        cases h
      | none =>
        rw [hbytes] at h
        cases h
        exact .console pieces hbytes
    | fileSink place position outer inner =>
      rw [write] at h
      cases hbytes : Utf8.encode? t with
      | some bytes =>
        simp only [hbytes] at h
        split at h <;> split at h <;> cases h
      | none =>
        rw [hbytes] at h
        cases h
        exact .fileSink place position outer inner hbytes
  · rintro (_ | _ | _ | ⟨_, hbytes⟩ | ⟨_, _, _, _, hbytes⟩)
    · rfl
    · rfl
    · rfl
    · rw [write, hbytes]
    · rw [write, hbytes]

namespace Port

variable {p : Port} {s : Store} {f : Fault}

/-- Writing ends in a fault when the port is open and its stream does not take the text. -/
theorem write_endsInFault_iff {t : Text} :
    (p.write t).EndsInFault s f ↔
      p.isClosed = false ∧ ∃ fault, (s.streamOf p).RefusesText t fault ∧ f = .stream fault := by
  rw [write, endsInFault_checkOpen_bind_iff]
  simp only [← @Stream.write_eq_error_iff s.files]
  refine and_congr_right fun _ => ?_
  rw [EndsInFault, modifyGet_bind]
  cases hwrite : Stream.write s.files (s.streamOf p) t with
  | ok done =>
    rw [Store.streamOf] at hwrite
    rw [hwrite]
    refine iff_of_false ?_ ?_
    · rintro ⟨_, h⟩
      cases h
    · rintro ⟨_, h, _⟩
      cases h
  | error fault =>
    rw [Store.streamOf] at hwrite
    rw [hwrite]
    constructor
    · rintro ⟨_, h⟩
      cases h
      exact ⟨fault, rfl, rfl⟩
    · rintro ⟨_, h, rfl⟩
      cases h
      exact ⟨s, rfl⟩

theorem readBy_endsInFault_iff {operation : FileTree → Stream → Stream.ReadResult} :
    (p.readBy operation).EndsInFault s f ↔
      ∃ fault, (operation s.files (s.streamOf p)).outcome = .error fault ∧ f = .stream fault := by
  rw [readBy, EndsInFault, modifyGet_bind]
  cases hread : (operation s.files (s.streamOf p)).outcome with
  | ok t =>
    rw [Store.streamOf] at hread
    dsimp only
    rw [hread]
    refine iff_of_false ?_ ?_
    · rintro ⟨_, h⟩
      cases h
    · rintro ⟨_, h, _⟩
      cases h
  | error fault =>
    rw [Store.streamOf] at hread
    dsimp only
    rw [hread]
    constructor
    · rintro ⟨_, h⟩
      cases h
      exact ⟨fault, rfl, rfl⟩
    · rintro ⟨_, h, rfl⟩
      cases h
      exact ⟨_, rfl⟩

end Port

/-! ### Output procedures -/

/-- A text, or what keeps it from being made, ends the writing through a port in a fault. -/
inductive Port.FailsToWrite (p : Port) (s : Store) : Except PrintFault Text → Fault → Prop
  /-- The value to be written is nested too deeply. -/
  | nested : FailsToWrite p s (.error .nestedTooDeeply) .nestedTooDeeply
  /-- The port is open and its stream does not take the text. -/
  | refused {t : Text} {fault : StreamFault} (hopen : p.isClosed = false)
      (hrefuses : (s.streamOf p).RefusesText t fault) : FailsToWrite p s (.ok t) (.stream fault)

namespace OutputOp

variable {s : Store} {f : Fault}

theorem write_endsInFault_iff {p : Port} {t : Text} :
    (p.write t >>= fun _ => pure Value.void).EndsInFault s f ↔ p.FailsToWrite s (.ok t) f := by
  have hpure : ∀ s', ¬(pure Value.void : Action Value).EndsInFault s' f := by
    rintro s' ⟨_, h⟩
    cases h
  simp only [endsInFault_bind_iff, hpure, and_false, exists_false, or_false, Port.write_endsInFault_iff]
  constructor
  · rintro ⟨hopen, fault, hrefuses, rfl⟩
    exact .refused hopen hrefuses
  · intro h
    cases h with
    | refused hopen hrefuses => exact ⟨hopen, _, hrefuses, rfl⟩

theorem emit_endsInFault_iff (hf : f ≠ .numeralTooLong) {nesting : Nat} {who : Text} {mode : PrintMode} {v : Value}
    {port : List Value} (hports : s.HoldsPorts port) :
    (emit nesting who mode v port).EndsInFault s f ↔
      ∃ p, s.chosen? .output port = some p ∧ p.FailsToWrite s (s.print mode v nesting) f := by
  refine (chosenPort_finds .output who hports).endsInFault_bind_iff.trans ?_
  refine exists_congr fun p => and_congr_right fun _ => ?_
  rw [Action.print, bind_assoc, endsInFault_get_bind_iff]
  cases s.print mode v nesting with
  | ok t => exact write_endsInFault_iff
  | error e =>
    cases e with
    | nestedTooDeeply =>
      constructor
      · rintro ⟨_, h⟩
        cases h
        exact .nested
      · rintro ⟨⟩
        exact ⟨s, rfl⟩
    | numeralTooLong =>
      constructor
      · rintro ⟨_, h⟩
        cases h
        exact absurd rfl hf
      · intro h
        cases h

/-- The integer that an optional argument gives. -/
def bound? (default : Int) : List Value → Option Int
  | [] => some default
  | v :: _ => v.integer?

/-- The port that a call writes to, and the text that it writes or what keeps that from being made. -/
def writing? (nesting : Nat) (s : Store) : OutputOp → List Value → Option (Port × Except PrintFault Text)
  | .display, v :: port => (s.chosen? .output port).map fun p => (p, s.print .display v nesting)
  | .write, v :: port => (s.chosen? .output port).map fun p => (p, s.print .write v nesting)
  | .newline, port => (s.chosen? .output port).map fun p => (p, .ok [Lisplet.newline])
  | .writeChar, v :: port =>
    v.char?.bind fun c => (s.chosen? .output port).map fun p => (p, .ok [c])
  | .writeString, v :: more =>
    (v.buffer?.map s.content).bind fun t => (s.chosen? .output (more.take 1)).bind fun p =>
      (bound? 0 (more.drop 1)).bind fun start => (bound? t.length (more.drop 2)).bind fun finish =>
        if 0 ≤ start ∧ start ≤ finish ∧ finish ≤ t.length then
          some (p, .ok (StringOp.slice t start.toNat finish.toNat))
        else none
  | _, _ => none

/-- A call ends in a fault when it fails to write. -/
def Leaks (nesting : Nat) (s : Store) (op : OutputOp) (args : List Value) (f : Fault) : Prop :=
  ∃ p text, op.writing? nesting s args = some (p, text) ∧ p.FailsToWrite s text f

/-- What follows an optional integer argument. -/
theorem endsInFault_bound_bind_iff {who : Text} {default : Int} {args : List Value}
    {next : Int → Action Value} :
    (match args with
      | v :: _ => asInteger (some who) v >>= next
      | [] => pure default >>= next : Action Value).EndsInFault s f ↔
      ∃ n, bound? default args = some n ∧ (next n).EndsInFault s f := by
  cases args with
  | nil => exact (Finds.pure default s).endsInFault_bind_iff
  | cons v more => exact (asInteger_finds _ v s).endsInFault_bind_iff

/-- A call that writes a text to the chosen port. -/
theorem exists_writing_iff {chosen : Option Port} {text : Except PrintFault Text} :
    (∃ p text', chosen.map (fun p => (p, text)) = some (p, text') ∧ p.FailsToWrite s text' f) ↔
      ∃ p, chosen = some p ∧ p.FailsToWrite s text f := by
  cases chosen with
  | none => simp
  | some p => simp

theorem emitPart_endsInFault_iff {nesting : Nat} {who : Text} {v : Value} {more : List Value}
    (hports : s.HoldsPorts (more.take 1)) :
    (emitPart who v more).EndsInFault s f ↔ Leaks nesting s .writeString (v :: more) f := by
  rw [Leaks, writing?]
  constructor
  · intro h
    obtain ⟨t, ht, h⟩ := (asText_finds _ v s).endsInFault_bind_iff.mp h
    obtain ⟨p, hp, h⟩ := (chosenPort_finds .output who hports).endsInFault_bind_iff.mp h
    obtain ⟨start, hstart, h⟩ := endsInFault_bound_bind_iff.mp h
    obtain ⟨finish, hfinish, h⟩ := endsInFault_bound_bind_iff.mp h
    dsimp only at h
    split at h
    next hrange =>
      refine ⟨p, _, ?_, write_endsInFault_iff.mp h⟩
      rw [ht, Option.bind_some, hp, Option.bind_some, hstart, Option.bind_some, hfinish, Option.bind_some,
        if_pos hrange]
    next => exact ((evaluationError_finds s _).not_endsInFault f h).elim
  · rintro ⟨p, text, hwriting, hfails⟩
    obtain ⟨t, ht, hwriting⟩ := Option.bind_eq_some_iff.mp hwriting
    obtain ⟨p', hp, hwriting⟩ := Option.bind_eq_some_iff.mp hwriting
    obtain ⟨start, hstart, hwriting⟩ := Option.bind_eq_some_iff.mp hwriting
    obtain ⟨finish, hfinish, hwriting⟩ := Option.bind_eq_some_iff.mp hwriting
    obtain ⟨hrange, hwriting⟩ := Option.ite_none_right_eq_some.mp hwriting
    cases hwriting
    refine (asText_finds _ v s).endsInFault_bind_iff.mpr ⟨t, ht, ?_⟩
    refine (chosenPort_finds .output who hports).endsInFault_bind_iff.mpr ⟨p, hp, ?_⟩
    refine endsInFault_bound_bind_iff.mpr ⟨start, hstart, ?_⟩
    refine endsInFault_bound_bind_iff.mpr ⟨finish, hfinish, ?_⟩
    dsimp only
    rw [if_pos hrange]
    exact write_endsInFault_iff.mpr hfails

theorem run_endsInFault_iff {op : OutputOp} {args : List Value} (h : op.arity.accepts args.length = true)
    (hports : s.HoldsPorts args) (hf : f ≠ .numeralTooLong) (ev : Evaluator) :
    (op.run ev args).EndsInFault s f ↔ op.Leaks ev.nesting s args f := by
  cases op with
  | display =>
    cases args with
    | nil => exact absurd h (by decide)
    | cons v port =>
      exact (emit_endsInFault_iff hf (hports.mono (List.subset_cons_self v port))).trans
        exists_writing_iff.symm
  | write =>
    cases args with
    | nil => exact absurd h (by decide)
    | cons v port =>
      exact (emit_endsInFault_iff hf (hports.mono (List.subset_cons_self v port))).trans
        exists_writing_iff.symm
  | newline =>
    refine (chosenPort_finds .output _ hports).endsInFault_bind_iff.trans (Iff.trans ?_ exists_writing_iff.symm)
    exact exists_congr fun p => and_congr_right fun _ => write_endsInFault_iff
  | writeChar =>
    cases args with
    | nil => exact absurd h (by decide)
    | cons v port =>
      have hports' := hports.mono (List.subset_cons_self v port)
      refine (asChar_finds _ v s).endsInFault_bind_iff.trans ?_
      rw [Leaks, writing?]
      cases v.char? with
      | none => simp
      | some c =>
        refine Iff.trans ?_ exists_writing_iff.symm
        simp only [Option.some.injEq, exists_eq_left']
        refine (chosenPort_finds .output _ hports').endsInFault_bind_iff.trans ?_
        exact exists_congr fun p => and_congr_right fun _ => write_endsInFault_iff
  | writeString =>
    cases args with
    | nil => exact absurd h (by decide)
    | cons v more =>
      have hports' : s.HoldsPorts (more.take 1) :=
        hports.mono fun w hw => List.mem_cons_of_mem v (List.mem_of_mem_take hw)
      exact emitPart_endsInFault_iff hports'

end OutputOp

/-! ### Input procedures -/

/-- Reads what is demanded, or all there is. -/
def Stream.serve (tree : FileTree) (stream : Stream) : Option Demand → Stream.ReadResult
  | some demand => stream.read tree demand
  | none => stream.readAll tree

/-- Asking something of the stream behind a port ends in a fault. -/
inductive Port.FailsToRead (p : Port) (s : Store) : Option Demand → Fault → Prop
  /-- The port is open and its stream cannot be read. -/
  | refused {demand : Option Demand} {fault : StreamFault} (hopen : p.isClosed = false)
      (hcount : ∀ k, demand = some (.points k) → (k : Int) ≤ StringOp.maxCount)
      (hrefuses : ((s.streamOf p).serve s.files demand).outcome = .error fault) :
      FailsToRead p s demand (.stream fault)
  /-- The port is open and more is asked for than a size can express. -/
  | count {k : Nat} (hopen : p.isClosed = false) (hcount : StringOp.maxCount < k) :
      FailsToRead p s (some (.points k)) .countTooLarge

/-- The next line of a port holds data that are nested too deeply. -/
def Port.NestsTooDeeply (p : Port) (s : Store) (nesting : Nat) : Prop :=
  ∃ line s', p.readLine s = .ok (some line) s' ∧ (readAll nesting line).failure = some .nestedTooDeeply

namespace Port

variable {p : Port} {s : Store} {f : Fault}

/-- What an open port is asked for ends in a fault when its stream refuses it, up to a count that is too
large. -/
theorem failsToRead_iff {demand : Option Demand}
    (hcount : ∀ k, demand = some (.points k) → (k : Int) ≤ StringOp.maxCount) :
    p.FailsToRead s demand f ↔ p.isClosed = false ∧
      (p.readBy fun files stream => stream.serve files demand).EndsInFault s f := by
  rw [readBy_endsInFault_iff]
  constructor
  · intro h
    cases h with
    | refused hopen _ hrefuses => exact ⟨hopen, _, hrefuses, rfl⟩
    | count _ hlarge => exact absurd hlarge (Int.not_lt.mpr (hcount _ rfl))
  · rintro ⟨hopen, fault, hrefuses, rfl⟩
    exact .refused hopen hcount hrefuses

theorem readLine_endsInFault_iff : p.readLine.EndsInFault s f ↔ p.FailsToRead s (some .line) f := by
  have hline : (do
      let line ← p.readBy fun files stream => stream.read files .line
      pure (line.map dropNewline) : Action (Option Text)) =
      Option.map dropNewline <$> p.readBy fun files stream => stream.read files .line :=
    (map_eq_pure_bind _ _).symm
  have hcount : ∀ k, some Demand.line = some (.points k) → (k : Int) ≤ StringOp.maxCount := nofun
  rw [readLine, endsInFault_checkOpen_bind_iff, hline, endsInFault_map_iff, failsToRead_iff hcount]
  rfl

theorem read_endsInFault_iff {count : Nat} (hcount : (count : Int) ≤ StringOp.maxCount) :
    (p.read count).EndsInFault s f ↔ p.FailsToRead s (some (.points count)) f := by
  rw [read, endsInFault_checkOpen_bind_iff, failsToRead_iff (by rintro _ ⟨⟩; exact hcount)]
  rfl

theorem readRest_endsInFault_iff : p.readRest.EndsInFault s f ↔ p.FailsToRead s none f := by
  have hcount : ∀ k, none = some (Demand.points k) → (k : Int) ≤ StringOp.maxCount := nofun
  rw [readRest, endsInFault_checkOpen_bind_iff, failsToRead_iff hcount]
  rfl

end Port

namespace InputOp

variable {ev : Evaluator} {s : Store} {f : Fault}

/-- The count and the port arguments of `read-string`. -/
def counted? : List Value → Option (Option Nat × List Value)
  | [] => some (none, [])
  | .atom (.port id) :: more => some (none, .atom (.port id) :: more)
  | v :: more => v.integer?.bind fun k => if k < 0 then none else some (some k.toNat, more)

/-- The port that a call reads from, and what it asks of its stream. -/
def reading? (s : Store) : InputOp → List Value → Option (Port × Option Demand)
  | .readLine, port | .readDatum, port => (s.chosen? .input port).map fun p => (p, some .line)
  | .readChar, port => (s.chosen? .input port).map fun p => (p, some (.points 1))
  | .readString, args =>
    (counted? args).bind fun (count, port) =>
      if 1 < port.length then none
      else (s.chosen? .input port).map fun p => (p, count.map .points)

/-- A call ends in a fault when it fails to read, or when it reads data that are nested too deeply. -/
def Leaks (ev : Evaluator) (s : Store) (op : InputOp) (args : List Value) (f : Fault) : Prop :=
  ∃ p demand, op.reading? s args = some (p, demand) ∧
    (p.FailsToRead s demand f ∨ op = .readDatum ∧ p.NestsTooDeeply s ev.nesting ∧ f = .nestedTooDeeply)

theorem countAndPort_finds (who : Text) (args : List Value) (s : Store) :
    (countAndPort who args).Finds s (counted? args) := by
  cases args with
  | nil => exact .pure _ s
  | cons v more =>
    have hcounted : (do
        let k ← Action.asInteger (some who) v
        if k < 0 then Action.typeError (.negative "count" who k) (.int k)
        else pure (some k.toNat, more) : Action (Option Nat × List Value)).Finds s
          (v.integer?.bind fun k => if k < 0 then none else some (some k.toNat, more)) := by
      refine (asInteger_finds _ _ s).bind _ fun k _ => ?_
      split
      · exact typeError_finds _ s _
      · exact .pure _ s
    cases v with
    | atom a =>
      cases a with
      | port id => exact .pure _ s
      | _ => exact hcounted
    | _ => exact hcounted

/-- Reading a datum ends in a fault when the line cannot be read, or when what it says is nested too deeply. -/
theorem nextDatum_endsInFault_iff (hf : f ≠ .numeralTooLong) {nesting : Nat} {p : Port} :
    (nextDatum nesting p).EndsInFault s f ↔
      p.FailsToRead s (some .line) f ∨ p.NestsTooDeeply s nesting ∧ f = .nestedTooDeeply := by
  rw [nextDatum, endsInFault_bind_iff, Port.readLine_endsInFault_iff]
  refine or_congr_right ⟨?_, ?_⟩
  · rintro ⟨line?, s', hline, h⟩
    cases line? with
    | none => exact ((evaluationError_finds s' _).not_endsInFault f h).elim
    | some line =>
      dsimp only at h
      split at h
      next => exact ((evaluationError_finds s' _).not_endsInFault f h).elim
      next hfault => exact absurd hfault (failure_readAll_ne_fault nesting line _)
      next => exact absurd (endsInFault_fault_iff.mp h) hf
      next hnested => exact ⟨⟨line, s', hline, hnested⟩, endsInFault_fault_iff.mp h⟩
      next =>
        split at h
        next => exact ((evaluationError_finds s' _).not_endsInFault f h).elim
        next => exact absurd (instantiate_guarded _ s' f h) hf
  · rintro ⟨⟨line, s', hline, hnested⟩, rfl⟩
    refine ⟨some line, s', hline, ?_⟩
    simp only [hnested]
    exact endsInFault_fault_iff.mpr rfl

theorem stringOrFalse_guarded (t : Option Text) : (stringOrFalse t).Guarded := by
  cases t <;> grind [stringOrFalse]

/-- A call that asks the chosen port for something. -/
theorem exists_reading_iff {chosen : Option Port} {demand : Option Demand}
    {P : Port → Option Demand → Prop} :
    (∃ p demand', chosen.map (fun p => (p, demand)) = some (p, demand') ∧ P p demand') ↔
      ∃ p, chosen = some p ∧ P p demand := by
  cases chosen with
  | none => simp
  | some p => simp

/-- Reading so many code points ends in a fault when there are too many, or when the stream refuses. -/
theorem read_count_endsInFault_iff (hf : f ≠ .numeralTooLong) {p : Port} {k : Nat} :
    (do
      p.checkOpen
      if StringOp.maxCount < k then fault .countTooLarge
      else
        let t ← p.read k
        stringOrFalse t : Action Value).EndsInFault s f ↔ p.FailsToRead s (some (.points k)) f := by
  rw [endsInFault_checkOpen_bind_iff]
  by_cases hk : StringOp.maxCount < (k : Int)
  · rw [if_pos hk, endsInFault_fault_iff]
    constructor
    · rintro ⟨hopen, rfl⟩
      exact .count hopen hk
    · intro h
      cases h with
      | refused hopen hcount _ => exact absurd hk (Int.not_lt.mpr (hcount k rfl))
      | count hopen _ => exact ⟨hopen, rfl⟩
  · rw [if_neg hk, endsInFault_bind_guarded_iff hf stringOrFalse_guarded,
      Port.read_endsInFault_iff (Int.not_lt.mp hk)]
    refine and_iff_right_of_imp fun h => ?_
    cases h with
    | refused hopen => exact hopen
    | count hopen => exact hopen

theorem subset_of_counted? {args port : List Value} {count : Option Nat}
    (h : counted? args = some (count, port)) : port ⊆ args := by
  unfold counted? at h
  split at h
  · cases h
    exact List.Subset.refl _
  · cases h
    exact List.Subset.refl _
  · obtain ⟨k, -, h⟩ := Option.bind_eq_some_iff.mp h
    split at h
    · cases h
    · cases h
      exact List.subset_cons_self _ _

theorem readCount_endsInFault_iff {who : Text} {args : List Value} (hports : s.HoldsPorts args)
    (hf : f ≠ .numeralTooLong) :
    (readCount who args).EndsInFault s f ↔ Leaks ev s .readString args f := by
  rw [Leaks, reading?]
  refine (countAndPort_finds who args s).endsInFault_bind_iff.trans ?_
  cases hcounted : counted? args with
  | none => simp
  | some counted =>
    obtain ⟨count, port⟩ := counted
    simp only [Option.some.injEq, exists_eq_left', Option.bind_some]
    have hports' := hports.mono (subset_of_counted? hcounted)
    split
    next extra more =>
      refine iff_of_false ((typeError_finds _ s _).not_endsInFault f) ?_
      rw [if_pos (by simp)]
      rintro ⟨_, _, h, _⟩
      cases h
    next hone =>
      -- The match leaves at most one argument for the port.
      have hlength : ¬1 < port.length := by
        intro hlt
        match port, hlt with
        | _ :: _ :: _, _ => exact hone _ _ _ rfl
      rw [if_neg hlength]
      refine (chosenPort_finds .input who hports').endsInFault_bind_iff.trans
        (Iff.trans ?_ exists_reading_iff.symm)
      refine exists_congr fun p => and_congr_right fun _ => ?_
      cases count with
      | none =>
        rw [endsInFault_bind_guarded_iff hf stringOrFalse_guarded, Port.readRest_endsInFault_iff]
        exact (or_iff_left nofun).symm
      | some k => exact (read_count_endsInFault_iff hf).trans (or_iff_left nofun).symm

theorem run_endsInFault_iff {op : InputOp} {args : List Value} (hports : s.HoldsPorts args)
    (hf : f ≠ .numeralTooLong) : (op.run ev args).EndsInFault s f ↔ op.Leaks ev s args f := by
  cases op with
  | readLine =>
    refine (chosenPort_finds .input _ hports).endsInFault_bind_iff.trans (Iff.trans ?_ exists_reading_iff.symm)
    refine exists_congr fun p => and_congr_right fun _ => ?_
    rw [endsInFault_bind_guarded_iff hf stringOrFalse_guarded, Port.readLine_endsInFault_iff]
    exact (or_iff_left nofun).symm
  | readChar =>
    refine (chosenPort_finds .input _ hports).endsInFault_bind_iff.trans (Iff.trans ?_ exists_reading_iff.symm)
    refine exists_congr fun p => and_congr_right fun _ => ?_
    rw [endsInFault_bind_guarded_iff hf (fun t => by split <;> exact .pure _),
      Port.read_endsInFault_iff (by decide)]
    exact (or_iff_left nofun).symm
  | readString =>
    exact readCount_endsInFault_iff hports hf
  | readDatum =>
    refine (chosenPort_finds .input _ hports).endsInFault_bind_iff.trans (Iff.trans ?_ exists_reading_iff.symm)
    refine exists_congr fun p => and_congr_right fun _ => ?_
    rw [nextDatum_endsInFault_iff hf]
    exact or_congr_right (and_iff_right rfl).symm

end InputOp

end Lisplet
