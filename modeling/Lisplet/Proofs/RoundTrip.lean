import Lisplet.Primitive.InputOutput
import Lisplet.Proofs.Copies
import Lisplet.Proofs.Portions

/-!
# Writing and reading back

Readable values are written on one line each, and reading the lines gives their data again: all of them
from one source, or one after the other through string ports. The values that are made of these data are
equal copies of the values that were written. Writing goes twice as deep as reading, so the bound on
nesting is met by values of half the depth: the bound is the one of the evaluator that writes and reads.
-/

namespace Lisplet

open Token

/-! ### Printing meets no obstacle -/

theorem Atom.obstacle?_of_isReadable {s : Store} {a : Atom} (h : a.IsReadable s) :
    a.obstacle? = none := by
  cases a with
  | int n => exact if_pos h
  | _ => rfl

mutual

/-- A readable value is printed if it is nested half as deep as printing may go. -/
theorem Value.obstacle?_of_isReadable {s : Store} {room : Nat} : ∀ {v : Value}, v.IsReadable s →
    2 * v.nesting ≤ room → v.obstacle? room = none
  | .atom _, ha, _ => Atom.obstacle?_of_isReadable ha
  | .nil, _, _ => rfl
  | .list _ head rest last, ⟨_, hhead, hrest, hlast⟩, h => by
    have hdeep : ∀ depth ≤ room, 2 * head.nesting ≤ room - depth →
        2 * Value.rowNesting rest ≤ room - depth →
        (if room < depth then some PrintFault.nestedTooDeeply
          else match head.obstacle? (room - depth) with
            | some fault => some fault
            | none => Value.obstacleIn? (room - depth) last rest) = none := by
      intro depth hdepth hh hr
      rw [if_neg (Nat.not_lt_of_le hdepth), Value.obstacle?_of_isReadable hhead hh]
      exact Value.obstacleIn?_of_isReadable hlast hrest hr
    rw [Value.nesting] at h
    rw [Value.obstacle?]
    cases hshort : Value.hasShorthand head rest last with
    | true =>
      -- A shorthand stands for a symbol and one datum, and a symbol has no depth.
      have hatom : head.nesting = 0 := by
        unfold Value.hasShorthand at hshort
        split at hshort
        · rfl
        · simp at hshort
      simp only [hshort, if_true] at h ⊢
      exact hdeep shorthandDepth (by simp only [shorthandDepth]; omega) (by omega)
        (by simp only [shorthandDepth]; omega)
    | false =>
      simp only [hshort, Bool.false_eq_true, if_false] at h ⊢
      exact hdeep listDepth (by simp only [listDepth]; omega) (by simp only [listDepth]; omega)
        (by simp only [listDepth]; omega)

theorem Value.obstacleIn?_of_isReadable {s : Store} {room : Nat} {last : Option Atom}
    (hlast : ∀ a ∈ last, a.IsReadable s) : ∀ {vs : List Value}, Value.RowIsReadable s vs →
    2 * Value.rowNesting vs ≤ room → Value.obstacleIn? room last vs = none
  | [], _, _ => by
    cases last with
    | none => rfl
    | some a => exact Atom.obstacle?_of_isReadable (hlast a rfl)
  | v :: vs, ⟨hv, hvs⟩, h => by
    rw [Value.rowNesting] at h
    rw [Value.obstacleIn?, Value.obstacle?_of_isReadable hv (by omega)]
    exact Value.obstacleIn?_of_isReadable hlast hvs (by omega)

end

/-- A readable value that is not nested too deeply has a printed form. -/
theorem Store.print_of_isReadable {s : Store} {v : Value} {room : Nat} (h : v.IsReadable s)
    (hnesting : 2 * v.nesting ≤ room) : s.print .write v room = .ok ((s.datum v).print .write) := by
  rw [Store.print, Value.obstacle?_of_isReadable h hnesting]

/-! ### Lines -/

/-- The text that a value is written as. -/
def Store.written (s : Store) (v : Value) : Text := (s.datum v).print .write

theorem newline_not_mem_written {s : Store} {v : Value} (h : v.IsReadable s) : newline ∉ s.written v :=
  (written_of_isReadable s v h).oneLine

/-- The written forms of readable values, on a line each, are made of tokens that are their data. -/
theorem exists_spells_lines (s : Store) {vs : List Value} (h : Value.RowIsReadable s vs) :
    ∃ ts, Spells ts (Text.join [newline] (vs.map s.written)) [] ∧
      DenotesAll ts (vs.map s.datum) (Value.rowNesting vs) ∧ ∀ token ∈ ts, ¬token.IsTooLong := by
  induction vs with
  | nil => exact ⟨[], .nil, .nil, by simp⟩
  | cons v vs ih =>
    obtain ⟨ts, hts, hd, hlong⟩ := (written_of_isReadable s v h.1).exists_tokens
    obtain ⟨us, hus, hds, hlong'⟩ := ih h.2
    refine ⟨ts ++ us, ?_, .cons hd hds, ?_⟩
    · cases vs with
      | nil =>
        cases hds
        have hline := hts [] closes_nil
        simpa [Text.join, Store.written] using hline
      | cons w vs =>
        rw [List.map_cons, List.map_cons, Text.join, List.intercalate_cons_cons, List.append_assoc]
        exact (hts _ (closes_newline _)).append (hus.prepend gap_newline hds.ne_nil)
    · intro token htoken
      exact (List.mem_append.mp htoken).elim (hlong token) (hlong' token)

/-- The lines of readable values are read as their data. -/
theorem readAll_lines (limit : Nat) {s : Store} {vs : List Value} (h : Value.RowIsReadable s vs)
    (hlimit : Value.rowNesting vs < limit) :
    readAll limit (Text.join [newline] (vs.map s.written)) = ⟨vs.map s.datum, none⟩ := by
  obtain ⟨ts, hts, hds, hlong⟩ := exists_spells_lines s h
  have hscan := scan_eq_iff.mpr ⟨[], hts, .finished (.gap .nil)⟩
  refine readAll_of_denotesAll (by rw [hscan]) (n := Value.rowNesting vs) ?_ hlimit ?_
  · rw [hscan]
    exact hds
  · rw [hscan]
    exact hlong

/-! ### String ports -/

/-- Writes values to a port, each on a line of its own. -/
def writeLines (ev : Evaluator) (port : Value) : List Value → Action Unit
  | [] => pure ()
  | v :: vs => do
    let _ ← OutputOp.run .write ev [v, port]
    let _ ← OutputOp.run .newline ev [port]
    writeLines ev port vs

/-- Reads so many data from a port. -/
def readData (ev : Evaluator) (port : Value) : Nat → Action (List Value)
  | 0 => pure []
  | count + 1 => do
    let w ← InputOp.run .readDatum ev [port]
    let ws ← readData ev port count
    pure (w :: ws)

/-- Writes values to a string port and gives the string that came of it. -/
def writeToString (ev : Evaluator) (scope : ScopeId) (vs : List Value) : Action Value := do
  let port ← PortOp.run .openOutputString ev [] scope
  writeLines ev port vs
  PortOp.run .getOutputString ev [port] scope

/-- Reads so many data from a string port over a string. -/
def readFromString (ev : Evaluator) (scope : ScopeId) (written : Value) (count : Nat) :
    Action (List Value) := do
  let port ← PortOp.run .openInputString ev [written] scope
  readData ev port count

/-- Writes values to a string port and reads as many from a string port over the text that came of it. -/
def writeThenRead (ev : Evaluator) (scope : ScopeId) (vs : List Value) : Action (List Value) := do
  let written ← writeToString ev scope vs
  readFromString ev scope written vs.length

theorem Action.portOf_spec {id : PortId} {p : Port} {s : Store} (hp : s.ports[id]? = some p) :
    Action.portOf id s = .ok p s := by
  show Action.orFault .operandMissing s.ports[id]? s = .ok p s
  rw [hp]
  rfl

theorem Action.chosenPort_of_port {wanted : Direction} {who : Text} {id : PortId} {p : Port} {s : Store}
    (hp : s.ports[id]? = some p) (hwanted : p.isInput = decide (wanted = .input)) :
    Action.chosenPort wanted who [.atom (.port id)] s = .ok p s := by
  have hid : Action.asPort (some who) (.atom (.port id)) s = .ok id s := rfl
  rw [Action.chosenPort, bind_of_ok hid, bind_of_ok (Action.portOf_spec hp),
    if_pos hwanted]
  rfl

theorem Port.checkOpen_eq {p : Port} (hopen : p.isClosed = false) : p.checkOpen = pure () := by
  rw [Port.checkOpen, hopen]
  rfl

/-- Writing to an open string port puts the text behind what was written. -/
theorem Port.write_sink {p : Port} {s : Store} {pieces : List Text} (hopen : p.isClosed = false)
    (hstream : s.streams[p.stream]? = some (.sink pieces)) (t : Text) :
    p.write t s = .ok () { s with streams := s.streams.set! p.stream (.sink (t :: pieces)) } := by
  rw [Port.write, Port.checkOpen_eq hopen, pure_bind, modifyGet_bind, hstream]
  rfl

/-- A line that the stream of an open port gives is read without its line feed. -/
theorem Port.readLine_of_read {p : Port} {s : Store} {stream after : Stream} {line : Text}
    (hopen : p.isClosed = false) (hstream : s.streams[p.stream]? = some stream)
    (hread : stream.read s.files .line = ⟨.ok line, after⟩) (hline : line ≠ []) :
    p.readLine s = .ok (some (dropNewline line)) { s with streams := s.streams.set! p.stream after } := by
  have hby : p.readBy (fun files stream => stream.read files .line) s =
      .ok (some line) { s with streams := s.streams.set! p.stream after } := by
    rw [Port.readBy, modifyGet_bind, hstream]
    simp only [Option.getD_some, hread, List.isEmpty_eq_false_iff.mpr hline]
    rfl
  rw [Port.readLine, Port.checkOpen_eq hopen, pure_bind, bind_of_ok hby]
  rfl

/-- Reading a line from an open string port takes it off the text. -/
theorem Port.readLine_source {p : Port} {s : Store} {line rest : Text} (hopen : p.isClosed = false)
    (hline : newline ∉ line)
    (hstream : s.streams[p.stream]? = some (.source (line ++ newline :: rest))) :
    p.readLine s = .ok (some line) { s with streams := s.streams.set! p.stream (.source rest) } := by
  have hread : (Stream.source (line ++ newline :: rest)).read s.files .line =
      ⟨.ok (line ++ [newline]), .source rest⟩ := by
    simp only [Stream.read, Demand.split, splitLine_append hline]
  rw [Port.readLine_of_read hopen hstream hread (by simp)]
  simp [dropNewline]

/-- The lines of some values. -/
def Store.lines (s : Store) (vs : List Value) : Text :=
  vs.flatMap fun v => s.written v ++ [newline]

theorem Store.Keeps.lines {s s' : Store} (h : s.Keeps s') {vs : List Value}
    (hvs : Value.RowIsReadable s vs) : s'.lines vs = s.lines vs := by
  induction vs with
  | nil => rfl
  | cons v vs ih =>
    rw [Store.lines, Store.lines, List.flatMap_cons, List.flatMap_cons, Store.written, Store.written,
      h.datum hvs.1]
    exact congrArg _ (ih hvs.2)

/-- A stream that has been replaced is the new one. -/
theorem getElem?_set!_self {streams : Array Stream} {i : StreamId} {old : Stream}
    (h : streams[i]? = some old) (new : Stream) : (streams.set! i new)[i]? = some new := by
  obtain ⟨hlt, _⟩ := Array.getElem?_eq_some_iff.mp h
  simp [hlt]

/-- A value that has a printed form is written as that to its port. -/
theorem OutputOp.run_write {ev : Evaluator} {p : Port} {v : Value} {port : List Value} {t : Text} {s s' : Store}
    (hport : Action.chosenPort .output OutputOp.write.name port s = .ok p s)
    (hprint : s.print .write v ev.nesting = .ok t) (hwrite : p.write t s = .ok () s') :
    OutputOp.run .write ev (v :: port) s = .ok .void s' := by
  have htext : Action.print .write v ev.nesting s = .ok t s := by
    rw [Action.print, get_bind, hprint]
    rfl
  show OutputOp.emit ev.nesting OutputOp.write.name .write v port s = _
  rw [OutputOp.emit, bind_of_ok hport, bind_of_ok htext, bind_of_ok hwrite]
  rfl

/-- Writing a readable value to a string port puts its text behind what was written. -/
theorem write_spec (ev : Evaluator) {id : PortId} {p : Port} {v : Value} {s : Store} {pieces : List Text}
    (hv : v.IsReadable s) (hnesting : 2 * v.nesting ≤ ev.nesting)
    (hp : s.ports[id]? = some p) (houtput : p.isInput = false) (hopen : p.isClosed = false)
    (hstream : s.streams[p.stream]? = some (.sink pieces)) :
    OutputOp.run .write ev [v, .atom (.port id)] s =
      .ok .void { s with streams := s.streams.set! p.stream (.sink (s.written v :: pieces)) } :=
  OutputOp.run_write (Action.chosenPort_of_port hp houtput) (Store.print_of_isReadable hv hnesting)
    (Port.write_sink hopen hstream (s.written v))

/-- Ending a line of a string port. -/
theorem newline_spec (ev : Evaluator) {id : PortId} {p : Port} {s : Store} {pieces : List Text}
    (hp : s.ports[id]? = some p) (houtput : p.isInput = false) (hopen : p.isClosed = false)
    (hstream : s.streams[p.stream]? = some (.sink pieces)) :
    OutputOp.run .newline ev [.atom (.port id)] s =
      .ok .void { s with streams := s.streams.set! p.stream (.sink ([newline] :: pieces)) } := by
  have hport : Action.chosenPort .output OutputOp.newline.name [.atom (.port id)] s = .ok p s :=
    Action.chosenPort_of_port hp houtput
  show (do
    let p ← Action.chosenPort .output OutputOp.newline.name [.atom (.port id)]
    p.write [newline]
    pure .void : Action Value) s = _
  rw [bind_of_ok hport, bind_of_ok (Port.write_sink hopen hstream [newline])]
  rfl

/-- Writing readable values to a string port adds their lines and changes nothing else. -/
theorem writeLines_spec (ev : Evaluator) {id : PortId} {p : Port} {vs : List Value} {s : Store}
    (pieces : List Text) (hvs : Value.RowIsReadable s vs) (hnesting : 2 * Value.rowNesting vs ≤ ev.nesting)
    (hp : s.ports[id]? = some p) (houtput : p.isInput = false) (hopen : p.isClosed = false)
    (hstream : s.streams[p.stream]? = some (.sink pieces)) :
    ∃ streams pieces', writeLines ev (.atom (.port id)) vs s = .ok () { s with streams := streams } ∧
      streams[p.stream]? = some (.sink pieces') ∧
      Text.gathered pieces' = Text.gathered pieces ++ s.lines vs := by
  -- Over the values, as each of them leaves another stream in the store.
  induction vs generalizing s pieces with
  | nil => exact ⟨s.streams, pieces, rfl, hstream, by simp [Store.lines]⟩
  | cons v vs ih =>
    rw [Value.rowNesting] at hnesting
    have hwrite := write_spec ev hvs.1 (by omega) hp houtput hopen hstream
    have hstream₁ := getElem?_set!_self hstream (.sink (s.written v :: pieces))
    have hnewline := newline_spec ev (s := { s with
      streams := s.streams.set! p.stream (.sink (s.written v :: pieces)) }) hp houtput hopen hstream₁
    have hstream₂ := getElem?_set!_self hstream₁ (.sink ([newline] :: s.written v :: pieces))
    have hkeeps : ∀ streams, s.Keeps { s with streams := streams } := fun _ => ⟨#[], by simp⟩
    obtain ⟨streams, pieces', hrun, hstream', hgathered⟩ := ih (s := { s with
      streams := (s.streams.set! p.stream (.sink (s.written v :: pieces))).set! p.stream
        (.sink ([newline] :: s.written v :: pieces)) }) _ ((hkeeps _).rowIsReadable hvs.2) (by omega) hp
        hstream₂
    refine ⟨streams, pieces', ?_, hstream', ?_⟩
    · rw [writeLines, bind_of_ok hwrite, bind_of_ok hnewline, hrun]
    · rw [hgathered, (hkeeps _).lines hvs.2]
      simp [Text.gathered, Store.lines]

/-- The line of one readable value is read as its datum. -/
theorem readAll_written {s : Store} {v : Value} {limit : Nat} (h : v.IsReadable s)
    (hlimit : v.nesting < limit) : readAll limit (s.written v) = ⟨[s.datum v], none⟩ := by
  have hrow : Value.RowIsReadable s [v] := ⟨h, trivial⟩
  have hlines := readAll_lines limit hrow (by simpa [Value.rowNesting] using hlimit)
  simpa [Text.join] using hlines

/-- A line that is read as one datum gives a value that is made of it. -/
theorem InputOp.run_readDatum (ev : Evaluator) {p : Port} {port : List Value} {line : Text} {d : Datum}
    {s s' : Store} (hport : Action.chosenPort .input InputOp.readDatum.name port s = .ok p s)
    (hline : p.readLine s = .ok (some line) s') (hdatum : readAll ev.nesting line = ⟨[d], none⟩) :
    InputOp.run .readDatum ev port s = Action.instantiate d s' := by
  show (do
    let p ← Action.chosenPort .input InputOp.readDatum.name port
    InputOp.nextDatum ev.nesting p : Action Value) s = _
  rw [bind_of_ok hport, InputOp.nextDatum, bind_of_ok hline]
  simp only [hdatum]

/-- Reading from a string port takes the first line and makes a value of its datum. -/
theorem read_spec (ev : Evaluator) {id : PortId} {p : Port} {v : Value} {s₀ s : Store} {rest : Text}
    (hv : v.IsReadable s₀) (hnesting : v.nesting < ev.nesting)
    (hp : s.ports[id]? = some p) (hinput : p.isInput = true) (hopen : p.isClosed = false)
    (hstream : s.streams[p.stream]? = some (.source (s₀.written v ++ newline :: rest))) :
    ∃ w s', InputOp.run .readDatum ev [.atom (.port id)] s = .ok w s' ∧
      Store.Adds { s with streams := s.streams.set! p.stream (.source rest) } s' ∧
      ∀ s'' : Store, s'.Keeps s'' → s''.datum w = s₀.datum v := by
  obtain ⟨w, s', hw, hadds, hdatum⟩ := Action.instantiate_spec hv.isExact
    { s with streams := s.streams.set! p.stream (.source rest) }
  refine ⟨w, s', ?_, hadds, hdatum⟩
  rw [InputOp.run_readDatum ev (Action.chosenPort_of_port hp hinput)
    (Port.readLine_source hopen (newline_not_mem_written hv) hstream) (readAll_written hv hnesting)]
  exact hw

/-- Reading from a string port over the lines of readable values gives values of the same data. -/
theorem readData_spec (ev : Evaluator) (id : PortId) {p : Port} {vs : List Value} {s₀ s : Store}
    (hvs : Value.RowIsReadable s₀ vs) (hnesting : Value.rowNesting vs < ev.nesting)
    (hp : s.ports[id]? = some p) (hinput : p.isInput = true) (hopen : p.isClosed = false)
    (hstream : s.streams[p.stream]? = some (.source (s₀.lines vs))) :
    ∃ ws s', readData ev (.atom (.port id)) vs.length s = .ok ws s' ∧ s.Keeps s' ∧
      List.Forall₂ (fun v w => ∀ s'' : Store, s'.Keeps s'' → s''.datum w = s₀.datum v) vs ws := by
  induction vs generalizing s with
  | nil => exact ⟨[], s, rfl, .refl s, .nil⟩
  | cons v vs ih =>
    rw [Value.rowNesting] at hnesting
    have hlines : s₀.lines (v :: vs) = s₀.written v ++ newline :: s₀.lines vs := by
      simp [Store.lines]
    rw [hlines] at hstream
    obtain ⟨w, s₁, hread, ⟨more, next, rfl⟩, hdatum⟩ :=
      read_spec ev hvs.1 (by omega) hp hinput hopen hstream
    have hrest := getElem?_set!_self hstream (.source (s₀.lines vs))
    obtain ⟨ws, s', hrun, hkeeps, hws⟩ := ih (s := { s with
      streams := s.streams.set! p.stream (.source (s₀.lines vs)), buffers := s.buffers ++ more,
      nextObject := next }) hvs.2 (by omega) hp hrest
    refine ⟨w :: ws, s', ?_, Store.Keeps.trans ⟨more, rfl⟩ hkeeps, .cons ?_ hws⟩
    · rw [List.length_cons, readData, bind_of_ok hread, bind_of_ok hrun]
      rfl
    · exact fun s'' h => hdatum s'' (hkeeps.trans h)

/-- A string port for output. -/
def outputStringPort (stream : StreamId) : Port := ⟨"string", stream, false, false, false⟩

/-- A string port for input. -/
def inputStringPort (stream : StreamId) : Port := ⟨"string", stream, true, false, false⟩

/-- The text that was written to a string port is made a string. -/
theorem getOutputString_spec (ev : Evaluator) (scope : ScopeId) {id : PortId} {p : Port} {s : Store}
    {pieces : List Text} (hp : s.ports[id]? = some p) (houtput : p.isInput = false)
    (hstream : s.streams[p.stream]? = some (.sink pieces)) :
    PortOp.run .getOutputString ev [.atom (.port id)] scope s =
      .ok (.str s.buffers.size) { s with buffers := s.buffers.push (Text.gathered pieces) } := by
  have hid : Action.asPort (some PortOp.getOutputString.name) (.atom (.port id)) s = .ok id s := rfl
  show PortOp.outputText PortOp.getOutputString.name (.atom (.port id)) s = _
  rw [PortOp.outputText, bind_of_ok hid, bind_of_ok (Action.portOf_spec hp), get_bind, houtput, hstream]
  rfl

/-- The string that comes of writing readable values holds their lines. -/
theorem writeToString_spec (ev : Evaluator) (scope : ScopeId) {vs : List Value} {s : Store}
    (hvs : Value.RowIsReadable s vs) (hnesting : 2 * Value.rowNesting vs ≤ ev.nesting) :
    ∃ buffer s', writeToString ev scope vs s = .ok (.str buffer) s' ∧ s.Keeps s' ∧
      s'.content buffer = s.lines vs := by
  let s₁ : Store := { s with
    streams := s.streams.push (.sink []), ports := s.ports.push (outputStringPort s.streams.size) }
  have hopen : PortOp.run .openOutputString ev [] scope s = .ok (.atom (.port s.ports.size)) s₁ := rfl
  have hkeeps₁ : s.Keeps s₁ := ⟨#[], by simp [s₁]⟩
  have hport : s₁.ports[s.ports.size]? = some (outputStringPort s.streams.size) := by simp [s₁]
  obtain ⟨streams, pieces, hlines, hsink, hgathered⟩ := writeLines_spec ev [] (hkeeps₁.rowIsReadable hvs)
    hnesting hport rfl rfl (by simp [s₁, outputStringPort])
  have hget := getOutputString_spec ev scope (s := { s₁ with streams := streams }) hport rfl hsink
  have hrun : writeToString ev scope vs s = .ok (.str s.buffers.size)
      { s₁ with streams := streams, buffers := s.buffers.push (Text.gathered pieces) } := by
    rw [writeToString, bind_of_ok hopen, bind_of_ok hlines, hget]
  refine ⟨_, _, hrun, ⟨#[Text.gathered pieces], by simp⟩, ?_⟩
  rw [hkeeps₁.lines hvs] at hgathered
  rw [Store.content, Array.getElem?_push_size, hgathered]
  rfl

/-- Reading from a string that holds the lines of readable values gives values of the same data. -/
theorem readFromString_spec (ev : Evaluator) (scope : ScopeId) {vs : List Value} {s₀ s : Store}
    {buffer : BufferId} (hvs : Value.RowIsReadable s₀ vs) (hnesting : Value.rowNesting vs < ev.nesting)
    (hcontent : s.content buffer = s₀.lines vs) :
    ∃ ws s', readFromString ev scope (.str buffer) vs.length s = .ok ws s' ∧ s.Keeps s' ∧
      List.Forall₂ (fun v w => ∀ s'' : Store, s'.Keeps s'' → s''.datum w = s₀.datum v) vs ws := by
  let s₁ : Store := { s with
    streams := s.streams.push (.source (s.content buffer)),
    ports := s.ports.push (inputStringPort s.streams.size) }
  have hopen : PortOp.run .openInputString ev [.str buffer] scope s =
      .ok (.atom (.port s.ports.size)) s₁ := rfl
  have hkeeps : s.Keeps s₁ := ⟨#[], by simp [s₁]⟩
  obtain ⟨ws, s', hdata, hkeeps', hws⟩ := readData_spec ev s.ports.size (s := s₁) hvs hnesting
    (p := inputStringPort s.streams.size) (by simp [s₁]) rfl rfl
    (by simp [s₁, inputStringPort, hcontent])
  refine ⟨ws, s', ?_, hkeeps.trans hkeeps', hws⟩
  rw [readFromString, bind_of_ok hopen, hdata]

/-- Making values of the data of readable values gives values of the same data. -/
theorem mapM_instantiate_spec {s₀ s : Store} {vs : List Value} (hvs : Value.RowIsReadable s₀ vs) :
    ∃ ws s', (vs.map s₀.datum).mapM Action.instantiate s = .ok ws s' ∧ s.Keeps s' ∧
      List.Forall₂ (fun v w => ∀ s'' : Store, s'.Keeps s'' → s''.datum w = s₀.datum v) vs ws := by
  induction vs generalizing s with
  | nil => exact ⟨[], s, rfl, .refl s, .nil⟩
  | cons v vs ih =>
    obtain ⟨w, s₁, hw, hadds, hdatum⟩ := Action.instantiate_spec hvs.1.isExact s
    obtain ⟨ws, s', hrun, hkeeps, hws⟩ := ih (s := s₁) hvs.2
    refine ⟨w :: ws, s', ?_, hadds.keeps.trans hkeeps, .cons ?_ hws⟩
    · rw [List.map_cons, List.mapM_cons, bind_of_ok hw, bind_of_ok hrun]
      rfl
    · exact fun s'' h => hdatum s'' (hkeeps.trans h)

/-- Values of the same data as readable ones are equal copies of them. -/
theorem forall₂_equal {s s' : Store} {vs ws : List Value} (hvs : Value.RowIsReadable s vs)
    (hkeeps : s.Keeps s')
    (h : List.Forall₂ (fun v w => ∀ s'' : Store, s'.Keeps s'' → s''.datum w = s.datum v) vs ws) :
    List.Forall₂ (fun v w => Value.equal s'.content v w = true) vs ws := by
  induction h with
  | nil => exact .nil
  | cons hvw _ ih =>
    refine .cons (Value.equal_of_datum_eq (hkeeps.isReadable hvs.1) ?_) (ih hvs.2)
    rw [hvw s' (.refl s'), hkeeps.datum hvs.1]

/-- Writing readable values and reading them back gives equal values. Each value is written on one line.
The lines are read to the data of the values, and the values that are made of these are equal to the
original ones. Written to a string port and read from a string port over the text, the values come back
equal and in order. -/
theorem write_then_read (ev : Evaluator) (scope : ScopeId) (limit : Nat) {s : Store} {vs : List Value}
    (hvs : ∀ v ∈ vs, v.IsReadable s) (hwrite : 2 * Value.rowNesting vs ≤ ev.nesting)
    (hlimit : Value.rowNesting vs < limit) (hread : Value.rowNesting vs < ev.nesting) :
    (∀ v ∈ vs, s.print .write v ev.nesting = .ok (s.written v) ∧ newline ∉ s.written v) ∧
    readAll limit (Text.join [newline] (vs.map s.written)) = ⟨vs.map s.datum, none⟩ ∧
    (∃ ws s', (vs.map s.datum).mapM Action.instantiate s = .ok ws s' ∧
      List.Forall₂ (fun v w => Value.equal s'.content v w = true) vs ws) ∧
    ∃ ws s', writeThenRead ev scope vs s = .ok ws s' ∧
      List.Forall₂ (fun v w => Value.equal s'.content v w = true) vs ws := by
  have hrow := Value.rowIsReadable_iff.mpr hvs
  refine ⟨fun v hv => ⟨?_, newline_not_mem_written (hvs v hv)⟩, readAll_lines limit hrow hlimit, ?_, ?_⟩
  · have hle := Value.nesting_le_rowNesting hv
    exact Store.print_of_isReadable (hvs v hv) (by omega)
  · obtain ⟨ws, s', hrun, hkeeps, hws⟩ := mapM_instantiate_spec (s := s) hrow
    exact ⟨ws, s', hrun, forall₂_equal hrow hkeeps hws⟩
  · obtain ⟨buffer, s₁, hwritten, hkeeps, hcontent⟩ := writeToString_spec ev scope hrow hwrite
    obtain ⟨ws, s', hrun, hkeeps', hws⟩ := readFromString_spec ev scope hrow hread hcontent
    refine ⟨ws, s', ?_, forall₂_equal hrow (hkeeps.trans hkeeps') hws⟩
    rw [writeThenRead, bind_of_ok hwritten, hrun]

/-- A store with one string in it. -/
def exampleStore : Store :=
  { Store.initial [] ⟨[], [], .ofText "/", []⟩ (.ofText "/") [] with buffers := #[text "a\n\"b\""] }

/-- The dotted list `(a 1 . "...")` of a symbol, an integer and that string. -/
def exampleList : Value := .list 2 (.sym "a") [.int 1] (some (.str 0))

/-- An evaluator that gives the unspecified value for every expression. -/
def exampleEvaluator : Evaluator :=
  ⟨fun _ _ => pure .void, fun _ _ _ => pure (.value .void), 0, nestingLimit⟩

/-- A dotted list with a line feed in a string is written on one line and read back. -/
theorem write_then_read_dottedList :
    (∀ v ∈ [exampleList], v.IsReadable exampleStore) ∧
    readAll nestingLimit (Text.join [newline] ([exampleList].map exampleStore.written)) =
      ⟨[exampleStore.datum exampleList], none⟩ ∧
    ∃ ws s', writeThenRead exampleEvaluator 0 [exampleList] exampleStore = .ok ws s' ∧
      List.Forall₂ (fun v w => Value.equal s'.content v w = true) [exampleList] ws := by
  have hname : IsReadableName (text "a") :=
    ⟨⟨by decide, by decide⟩, by decide, by decide, by decide, by decide, rfl⟩
  have hlast : ∀ a ∈ some (Atom.str 0), a.IsReadable exampleStore := by
    rintro a ⟨⟩
    exact (by decide : 0 < exampleStore.buffers.size)
  have hmerge : ¬Value.MergesMarks (.sym "a") [.int 1] (some (.str 0)) := by
    rintro ⟨name, _, _, hlast, _⟩
    simp at hlast
  have hone : fitsDecimal (1 : Int).natAbs = true := by decide
  have hvs : ∀ v ∈ [exampleList], v.IsReadable exampleStore := by
    simp only [List.mem_singleton, forall_eq]
    exact ⟨hmerge, hname, ⟨hone, trivial⟩, hlast⟩
  have h := write_then_read exampleEvaluator 0 nestingLimit hvs (by decide) (by decide) (by decide)
  exact ⟨hvs, h.2.1, h.2.2.2⟩

end Lisplet
