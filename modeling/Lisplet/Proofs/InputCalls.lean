import Lisplet.Proofs.PortFaults
import Lisplet.Proofs.PortionSizes
import Lisplet.Proofs.WrittenFiles

/-!
# Calls that read

The text that is still to be read through a port is what its stream holds, or what the bytes of its file decode
to. A call that reads cuts it in two: it makes its value from the front, and the rest stays. Only a count that
is too large, for every port or for memory when there is a file below, makes it do something else.
-/

namespace Lisplet

open Lisplet.Action

/-! ### Demands -/

theorem splitLine_append_self (t : Text) : (splitLine t).1 ++ (splitLine t).2 = t := by
  by_cases hmem : newline ∈ t
  · obtain ⟨line, rest, rfl, hline⟩ := List.eq_append_cons_of_mem hmem
    rw [splitLine_append hline, List.append_assoc]
    rfl
  · rw [splitLine_of_not_mem hmem, List.append_nil]

/-- The first line of a text that is not empty is not empty. -/
theorem splitLine_eq_nil_iff {t : Text} : (splitLine t).1 = [] ↔ t = [] := by
  constructor
  · intro hnil
    by_cases hmem : newline ∈ t
    · obtain ⟨line, rest, rfl, hline⟩ := List.eq_append_cons_of_mem hmem
      rw [splitLine_append hline] at hnil
      simp at hnil
    · rwa [splitLine_of_not_mem hmem] at hnil
  · rintro rfl
    rfl

namespace Demand

theorem split_append_self (demand : Demand) (t : Text) : (demand.split t).1 ++ (demand.split t).2 = t := by
  cases demand with
  | points count => exact List.take_append_drop count t
  | line => exact splitLine_append_self t

/-- What a demand takes off a text, or all of it, and what stays. -/
def cut : Option Demand → Text → Text × Text
  | some demand, t => demand.split t
  | none, t => (t, [])

theorem cut_append_self (demand : Option Demand) (t : Text) : (cut demand t).1 ++ (cut demand t).2 = t := by
  cases demand with
  | none => exact List.append_nil t
  | some demand => exact demand.split_append_self t

end Demand

/-! ### Streams -/

namespace Stream

/-- This text is still to be read from a stream. -/
inductive Remains (files : FileTree) : Stream → Text → Prop
  | source (t : Text) : Remains files (.source t) t
  | file {r : FileReader} {t : Text} (h : r.Remains (contentOf files r) t) (hpaced : r.IsPaced) :
      Remains files (.fileSource r) t

/-- Whether a stream is a file that is read. -/
def readsFile : Stream → Bool
  | .fileSource _ => true
  | _ => false

variable {files : FileTree} {stream : Stream} {t : Text}

/-- Before its first byte a file has all its text to be read. -/
theorem remains_start {place : Location} {bytes : Bytes} (hcontent : files.content? place = some bytes)
    (hdecode : Utf8.decode? bytes = some t) : (fileSource (.start place)).Remains files (normalizeNewlines t) := by
  have hbytes : contentOf files (.start place) = bytes := by
    show (files.content? place).getD [] = bytes
    rw [hcontent]
    rfl
  refine .file ?_ (Or.inl rfl)
  rw [hbytes]
  exact FileReader.remains_start hdecode place

/-- What is demanded of a stream is given and the rest stays, or it is a large number of code points of a file,
for which there is no memory. -/
theorem Remains.serve (h : stream.Remains files t) (demand : Option Demand) :
    (stream.serve files demand).after.readsFile = stream.readsFile ∧
      (((stream.serve files demand).outcome = .ok (Demand.cut demand t).1 ∧
        (stream.serve files demand).after.Remains files (Demand.cut demand t).2) ∨
      ((stream.serve files demand).outcome = .error .outOfMemory ∧ stream.readsFile = true ∧
        (∃ k, demand = some (.points k) ∧ FileReader.safeCount < k) ∧
        ∃ lost stay, t = lost ++ stay ∧ (stream.serve files demand).after.Remains files stay)) := by
  cases h with
  | source => cases demand <;> exact ⟨rfl, Or.inl ⟨rfl, .source _⟩⟩
  | @file r _ h hpaced =>
    refine ⟨by cases demand <;> rfl, ?_⟩
    -- Reading moves the reader, not the place that it reads from.
    have hcontent : ∀ {r' : FileReader}, r'.place = r.place → contentOf files r' = contentOf files r := by
      intro r' hplace
      rw [contentOf, hplace, contentOf]
    cases demand with
    | none =>
      obtain ⟨hplace, hpaced'⟩ := hpaced.readAll (contentOf files r)
      exact Or.inl ⟨h.readAll.1, .file ((hcontent hplace).symm ▸ h.readAll.2) hpaced'⟩
    | some demand =>
      obtain ⟨hplace, hpaced'⟩ := hpaced.read (contentOf files r) demand []
      rcases h.read demand [] with ⟨hne, hrefused, lost, stay, hlost, hstay⟩ | ⟨hok, hrest⟩
      · refine Or.inr ⟨hrefused, rfl, ?_, lost, stay, hlost, .file ((hcontent hplace).symm ▸ hstay) hpaced'⟩
        have hcount := hpaced.safeCount_lt hrefused
        cases demand with
        | points k => exact ⟨k, rfl, hcount⟩
        | line => exact absurd rfl hne
      · exact Or.inl ⟨hok, .file ((hcontent hplace).symm ▸ hrest) hpaced'⟩

end Stream

/-! ### Ports -/

/-- The store with another stream under an identity. -/
def Store.withStream (s : Store) (id : StreamId) (stream : Stream) : Store :=
  { s with streams := s.streams.set! id stream }

theorem Store.Adds.push (s : Store) (t : Text) : s.Adds { s with buffers := s.buffers.push t } :=
  ⟨#[t], s.nextObject, by simp⟩

/-- The argument that names a port, if one is named. -/
def portArgument (port : Option PortId) : List Value := (port.map fun id => .atom (.port id)).toList

/-- The port that is named, or else the one on the current input, is open for input, and this text is still to be
read through it. -/
structure Store.HasInput (s : Store) (port : Option PortId) (p : Port) (t : Text) : Prop where
  chosen : s.chosen? .input (portArgument port) = some p
  isOpen : p.isClosed = false
  remains : (s.streamOf p).Remains s.files t

namespace Store

variable {s s' : Store} {port : Option PortId} {p q : Port} {t : Text} {stream : Stream}

theorem streamOf_withStream (h : (s.streamOf p) ≠ .closed) (stream : Stream) :
    (s.withStream p.stream stream).streamOf p = stream := by
  have hlt : p.stream < s.streams.size := by
    by_contra hge
    refine h ?_
    rw [streamOf, Array.getElem?_eq_none (Nat.not_lt.mp hge)]
    rfl
  simp [streamOf, withStream, hlt]

theorem streamOf_withStream_of_ne (h : q.stream ≠ p.stream) (stream : Stream) :
    (s.withStream p.stream stream).streamOf q = s.streamOf q := by
  simp [streamOf, withStream, h.symm]

/-- What is left of one store in another one, in which strings and objects were added, is a port and its stream. -/
theorem HasInput.of_adds (h : s.HasInput port p t) (hadds : s.Adds s') : s'.HasInput port p t := by
  obtain ⟨more, next, rfl⟩ := hadds
  refine ⟨?_, h.isOpen, h.remains⟩
  cases port <;> exact h.chosen

theorem HasInput.streamOf_ne_closed (h : s.HasInput port p t) : s.streamOf p ≠ .closed := by
  intro hclosed
  have hremains := h.remains
  rw [hclosed] at hremains
  cases hremains

theorem HasInput.withStream (h : s.HasInput port p t) {u : Text} (hu : stream.Remains s.files u) :
    (s.withStream p.stream stream).HasInput port p u := by
  refine ⟨?_, h.isOpen, ?_⟩
  · cases port <;> exact h.chosen
  · rwa [streamOf_withStream h.streamOf_ne_closed]

theorem HasInput.withStream_of_ne (h : s.HasInput port q t) (hne : q.stream ≠ p.stream) (stream : Stream) :
    (s.withStream p.stream stream).HasInput port q t := by
  refine ⟨?_, h.isOpen, ?_⟩
  · cases port <;> exact h.chosen
  · rw [streamOf_withStream_of_ne hne]
    exact h.remains

end Store

/-- Through a port on a string that has just been opened, all of the string is to be read. -/
theorem PortOp.hasInput_openInputString (ev : Evaluator) (scope : ScopeId) (s : Store) (buffer : BufferId) :
    ∃ p s', PortOp.run .openInputString ev [.str buffer] scope s = .ok (.atom (.port s.ports.size)) s' ∧
      s'.HasInput (some s.ports.size) p (s.content buffer) := by
  refine ⟨⟨"string", s.streams.size, true, false, false⟩, _, rfl, ?_, rfl, ?_⟩
  · simp [Store.chosen?, portArgument, Value.port?]
  · simp only [Store.streamOf, Array.getElem?_push_size, Option.getD_some]
    exact .source _

/-- Through a port on a file that has just been opened, all of its text is to be read, with line ends made
uniform. -/
theorem PortOp.hasInput_openInputFile {ev : Evaluator} {scope : ScopeId} {name port : Value} {s s' : Store}
    (h : PortOp.run .openInputFile ev [name] scope s = .ok port s') :
    ∃ p place, port = .atom (.port s.ports.size) ∧ ∀ bytes t, s'.files.content? place = some bytes →
      Utf8.decode? bytes = some t → s'.HasInput (some s.ports.size) p (normalizeNewlines t) := by
  obtain ⟨buffer, path, place, files, rfl, -, -, rfl, rfl⟩ :=
    openFile_ok_iff.mp (show openFile .input PortOp.openInputFile.name name s = .ok port s' from h)
  refine ⟨.opened path s.streams.size .input, place, rfl, fun bytes t hcontent hdecode => ⟨?_, rfl, ?_⟩⟩
  · simp [Store.chosen?, portArgument, Value.port?, Store.opened, Port.opened]
  · simp only [Store.streamOf, Store.opened, Port.opened, Array.getElem?_push_size, Option.getD_some]
    exact Stream.remains_start hcontent hdecode

/-- A port that has been chosen is found. -/
theorem Action.chosenPort_of_hasInput {s : Store} {port : Option PortId} {p : Port} {t : Text}
    (h : s.HasInput port p t) (who : Text) : chosenPort .input who (portArgument port) s = .ok p s := by
  have hholds : s.HoldsPorts (portArgument port) := by
    intro id hid
    cases port with
    | none => cases hid
    | some id' =>
      obtain rfl : id = id' := by simpa [portArgument] using hid
      obtain ⟨p', hp', -⟩ := Option.bind_eq_some_iff.mp h.chosen
      exact (Array.getElem?_eq_some_iff.mp hp').1
  exact (chosenPort_finds .input who hholds).ok_iff.mpr ⟨h.chosen, rfl⟩

namespace Port

variable {p : Port} {s : Store} {demand : Option Demand} {after : Stream}

/-- What is demanded of the stream behind a port is read. -/
def readAs (p : Port) (demand : Option Demand) : Action (Option Text) :=
  p.readBy fun files stream => stream.serve files demand

theorem readLine_eq (h : p.isClosed = false) : p.readLine = Option.map dropNewline <$> p.readAs (some .line) := by
  rw [readLine, checkOpen_eq h, pure_bind, map_eq_pure_bind]
  rfl

theorem read_eq (h : p.isClosed = false) (count : Nat) : p.read count = p.readAs (some (.points count)) := by
  rw [read, checkOpen_eq h, pure_bind]
  rfl

theorem readRest_eq (h : p.isClosed = false) : p.readRest = p.readAs none := by
  rw [readRest, checkOpen_eq h, pure_bind]
  rfl

theorem readAs_of_ok {front : Text} (h : (s.streamOf p).serve s.files demand = ⟨.ok front, after⟩) :
    p.readAs demand s = .ok (if front.isEmpty then none else some front) (s.withStream p.stream after) := by
  rw [Store.streamOf] at h
  rw [readAs, readBy, modifyGet_bind, h]
  rfl

theorem readAs_of_error {fault : StreamFault}
    (h : (s.streamOf p).serve s.files demand = ⟨.error fault, after⟩) :
    p.readAs demand s = .error (.failure (.fault (.stream fault))) (s.withStream p.stream after) := by
  rw [Store.streamOf] at h
  rw [readAs, readBy, modifyGet_bind, h]
  rfl

end Port

/-! ### Calls -/

/-- A call that reads. -/
inductive ReadCall where
  /-- The next character. -/
  | char
  /-- The next characters, at most so many, or all of them. -/
  | text (count : Option Nat)
  /-- The next line. -/
  | line
  /-- The first datum on the next line. -/
  | datum

namespace ReadCall

/-- The procedure that is called. -/
def op : ReadCall → InputOp
  | .char => .readChar
  | .text _ => .readString
  | .line => .readLine
  | .datum => .readDatum

/-- The arguments of the call. -/
def args (port : Option PortId) : ReadCall → List Value
  | .text (some k) => .int k :: portArgument port
  | _ => portArgument port

/-- Makes the call. -/
def run (ev : Evaluator) (port : Option PortId) (c : ReadCall) : Action Value := c.op.run ev (c.args port)

/-- What the call demands of the stream, if not all there is. -/
def demand : ReadCall → Option Demand
  | .char => some (.points 1)
  | .text count => count.map .points
  | .line | .datum => some .line

/-- The front of a text that the call takes off: a character, so many characters or all of them, or everything up
to and including the first line feed. -/
def front : ReadCall → Text → Text
  | .char, t => t.take 1
  | .text none, t => t
  | .text (some k), t => t.take k
  | .line, t | .datum, t => (splitLine t).1

theorem front_eq (c : ReadCall) (t : Text) : c.front t = (Demand.cut c.demand t).1 := by
  cases c with
  | text count => cases count <;> rfl
  | _ => rfl

/-- The first datum of a line, or why there is none. -/
def datumOf (nesting : Nat) : Option Text → Action Value
  | none => evaluationError .endOfInput
  | some t =>
    match (readAll nesting t).failure with
    | some (.malformed e) => evaluationError (.unreadableInput e)
    | some (.fault f) => fault (.reading f)
    | some .numeralTooLong => fault .numeralTooLong
    | some .nestedTooDeeply => fault .nestedTooDeeply
    | none =>
      match (readAll nesting t).forms with
      | [] => evaluationError .emptyInput
      | d :: _ => instantiate d

/-- What a call makes of what was read for it; nothing is read at the end of the input. -/
def answer (ev : Evaluator) : ReadCall → Option Text → Action Value
  | .char, some (c :: _) => pure (.char c)
  | .char, _ => pure (.bool false)
  | .text _, t => InputOp.stringOrFalse t
  | .line, t => InputOp.stringOrFalse (t.map dropNewline)
  | .datum, t => datumOf ev.nesting (t.map dropNewline)

/-- How a call ends when it takes this off a text, in a store from whose stream it has been taken. -/
inductive Gives (ev : Evaluator) (s : Store) : ReadCall → Text → EStateM.Result Signal Store Value → Prop
  /-- The character that was taken. -/
  | char (c : CodePoint) : Gives ev s .char [c] (.ok (.char c) s)
  /-- A new string of what was taken. -/
  | text (count : Option Nat) {t : Text} (hne : t ≠ []) :
      Gives ev s (.text count) t (.ok (.str s.buffers.size) { s with buffers := s.buffers.push t })
  /-- A new string of the line without its line feed. -/
  | line {t : Text} (hne : t ≠ []) :
      Gives ev s .line t (.ok (.str s.buffers.size) { s with buffers := s.buffers.push (dropNewline t) })
  /-- The datum that the line says, or why it says none. -/
  | datum {t : Text} (hne : t ≠ []) : Gives ev s .datum t (datumOf ev.nesting (some (dropNewline t)) s)
  | endOfInput (c : ReadCall) (hc : c ≠ .datum) : Gives ev s c [] (.ok (.bool false) s)
  | noDatum : Gives ev s .datum [] (.error (.failure (.evaluation .endOfInput)) s)

variable {ev : Evaluator} {port : Option PortId} {s : Store} {p : Port} {t : Text} {after : Stream}
  {c : ReadCall}

theorem readCount_none (who : Text) (port : Option PortId) :
    InputOp.readCount who (portArgument port) = (do
      let p ← chosenPort .input who (portArgument port)
      let t ← p.readRest
      InputOp.stringOrFalse t) := by
  cases port <;> rfl

theorem readCount_some (who : Text) (k : Nat) (port : Option PortId) :
    InputOp.readCount who (.int k :: portArgument port) = (do
      let p ← chosenPort .input who (portArgument port)
      p.checkOpen
      if StringOp.maxCount < k then fault .countTooLarge
      else
        let t ← p.read k
        InputOp.stringOrFalse t) := by
  have hcounted : InputOp.countAndPort who (.int k :: portArgument port) = pure (some k, portArgument port) := by
    show (do
      let k ← pure (k : Int)
      if k < 0 then typeError (.negative "count" who k) (.int k)
      else pure (some k.toNat, portArgument port) : Action (Option Nat × List Value)) = _
    rw [pure_bind, if_neg (Int.not_lt.mpr (Int.natCast_nonneg k)), Int.toNat_natCast]
  rw [InputOp.readCount, hcounted, pure_bind]
  cases port <;> rfl

/-- A call reads what it demands and makes its answer of that. -/
theorem run_eq (h : s.HasInput port p t) (hcount : ∀ k, c = .text (some k) → k ≤ StringOp.maxCount)
    (ev : Evaluator) : c.run ev port s = (p.readAs c.demand >>= c.answer ev) s := by
  have hchosen := Action.chosenPort_of_hasInput h
  cases c with
  | char =>
    refine (bind_of_ok (hchosen _)).trans ?_
    rw [Port.read_eq h.isOpen]
    refine congrFun (congrArg (p.readAs _ >>= ·) (funext fun front => ?_)) s
    rcases front with _ | _ | _ <;> rfl
  | text count =>
    cases count with
    | none =>
      refine (congrFun (readCount_none _ port) s).trans ((bind_of_ok (hchosen _)).trans ?_)
      rw [Port.readRest_eq h.isOpen]
      rfl
    | some k =>
      refine (congrFun (readCount_some _ k port) s).trans ((bind_of_ok (hchosen _)).trans ?_)
      rw [Port.checkOpen_eq h.isOpen, pure_bind, if_neg (Int.not_lt.mpr (hcount k rfl)), Port.read_eq h.isOpen]
      rfl
  | line =>
    refine (bind_of_ok (hchosen _)).trans ?_
    rw [Port.readLine_eq h.isOpen, map_eq_pure_bind, bind_assoc]
    rfl
  | datum =>
    refine (bind_of_ok (hchosen _)).trans ?_
    rw [InputOp.nextDatum, Port.readLine_eq h.isOpen, map_eq_pure_bind, bind_assoc]
    refine congrFun (congrArg (p.readAs _ >>= ·) (funext fun front => ?_)) s
    cases front <;> rfl

theorem adds_datumOf (nesting : Nat) (line : Option Text) (s : Store) :
    s.Adds ((datumOf nesting line).after s) := by
  unfold datumOf
  split
  · exact .refl s
  · split
    case h_5 =>
      split
      · exact .refl s
      · next d _ _ =>
        obtain ⟨w, s', hw, hadds, -⟩ := instantiate_makes d s
        rwa [after_of_ok hw]
    all_goals exact .refl s

/-- An answer adds strings and objects at most. -/
theorem Gives.adds {front : Text} {act : Action Value} {start : Store} (h : c.Gives ev s front (act start)) :
    s.Adds (act.after start) := by
  obtain ⟨outcome, hact⟩ : ∃ outcome, act start = outcome := ⟨_, rfl⟩
  rw [hact] at h
  rw [Action.after, hact]
  cases h with
  | char | endOfInput | noDatum => exact .refl s
  | text | line => exact .push s _
  | datum => exact adds_datumOf ev.nesting (some (dropNewline front)) s

/-- The answer to nothing is false, or that the input has ended; any other answer is made of what was read. -/
theorem answer_gives (ev : Evaluator) (c : ReadCall) (t : Text) (s : Store) :
    c.Gives ev s (c.front t) (c.answer ev (if (c.front t).isEmpty then none else some (c.front t)) s) := by
  cases hfront : c.front t with
  | nil =>
    cases c with
    | datum => exact .noDatum
    | _ => exact .endOfInput _ nofun
  | cons x front =>
    have hne := List.cons_ne_nil x front
    cases c with
    | char =>
      cases t with
      | nil => cases hfront
      | cons y t =>
        cases hfront
        exact .char x
    | text count => exact .text count hne
    | line => exact .line hne
    | datum => exact .datum hne

theorem run_of_ok (h : s.HasInput port p t) (hcount : ∀ k, c = .text (some k) → k ≤ StringOp.maxCount)
    (hserve : (s.streamOf p).serve s.files c.demand = ⟨.ok (c.front t), after⟩) :
    c.Gives ev (s.withStream p.stream after) (c.front t) (c.run ev port s) := by
  rw [run_eq h hcount, bind_of_ok (Port.readAs_of_ok hserve)]
  exact c.answer_gives ev t _

theorem run_of_error (h : s.HasInput port p t) (hcount : ∀ k, c = .text (some k) → k ≤ StringOp.maxCount)
    {fault : StreamFault} (hserve : (s.streamOf p).serve s.files c.demand = ⟨.error fault, after⟩) :
    c.run ev port s = .error (.failure (.fault (.stream fault))) (s.withStream p.stream after) := by
  rw [run_eq h hcount]
  exact bind_of_error (Port.readAs_of_error hserve)

theorem run_of_lt {k : Nat} (h : s.HasInput port p t) (hk : StringOp.maxCount < k) :
    (text (some k)).run ev port s = .error (.failure (.fault .countTooLarge)) s := by
  have hrun : (text (some k)).run ev port s = _ := (congrFun (readCount_some _ k port) s).trans
    (bind_of_ok (Action.chosenPort_of_hasInput h _))
  rw [hrun, Port.checkOpen_eq h.isOpen, pure_bind, if_pos hk]
  rfl

/-- What a call does to a store with this text to be read through a port: what it takes off, and what stays. -/
inductive Does (ev : Evaluator) (port : Option PortId) (s : Store) (p : Port) (t : Text) :
    ReadCall → Text → Text → Prop
  /-- The front is read, and the call ends as that says. -/
  | reads {c : ReadCall} {rest : Text} (stream : Stream) (htext : t = c.front t ++ rest)
      (hremains : stream.Remains s.files rest) (hfile : stream.readsFile = (s.streamOf p).readsFile)
      (hgives : c.Gives ev (s.withStream p.stream stream) (c.front t) (c.run ev port s)) :
      Does ev port s p t c (c.front t) rest
  /-- A count that is larger than every size is refused before anything is read. -/
  | tooLarge {k : Nat} (hk : StringOp.maxCount < k)
      (hrun : (text (some k)).run ev port s = .error (.failure (.fault .countTooLarge)) s) :
      Does ev port s p t (.text (some k)) [] t
  /-- Memory refuses a large number of characters of a file, and what was read of them is lost. -/
  | outOfMemory {k : Nat} {lost rest : Text} (stream : Stream) (hk : FileReader.safeCount < k)
      (hreadsFile : (s.streamOf p).readsFile = true) (htext : t = lost ++ rest)
      (hremains : stream.Remains s.files rest) (hfile : stream.readsFile = (s.streamOf p).readsFile)
      (hrun : (text (some k)).run ev port s =
        .error (.failure (.fault (.stream .outOfMemory))) (s.withStream p.stream stream)) :
      Does ev port s p t (.text (some k)) lost rest

/-- Only `read-string` demands many characters. -/
theorem eq_text_of_demand_eq {k : Nat} (h : c.demand = some (.points k)) (hk : 1 < k) : c = .text (some k) := by
  cases c with
  | char =>
    cases h
    exact absurd hk (Nat.lt_irrefl 1)
  | text count =>
    cases count with
    | none => cases h
    | some k =>
      cases h
      rfl
  | line | datum => cases h

/-- Every call reads or is refused. -/
theorem exists_does (h : s.HasInput port p t) (ev : Evaluator) (c : ReadCall) :
    ∃ front rest, Does ev port s p t c front rest := by
  by_cases hcount : ∀ k, c = .text (some k) → (k : Int) ≤ StringOp.maxCount
  · have hserves := h.remains.serve c.demand
    obtain ⟨⟨outcome, stream⟩, hserve⟩ : ∃ result, (s.streamOf p).serve s.files c.demand = result := ⟨_, rfl⟩
    rw [hserve] at hserves
    obtain ⟨hfile, ⟨rfl, hrest⟩ | ⟨rfl, hreadsFile, ⟨k, hdemand, hk⟩, lost, rest, htext, hrest⟩⟩ := hserves
    · rw [← front_eq] at hserve
      refine ⟨_, _, .reads stream ?_ hrest hfile (run_of_ok h hcount hserve)⟩
      rw [front_eq, Demand.cut_append_self]
    · have hone : 1 < FileReader.safeCount := by decide
      obtain rfl := eq_text_of_demand_eq hdemand (Nat.lt_trans hone hk)
      exact ⟨_, _, .outOfMemory stream hk hreadsFile htext hrest hfile (run_of_error h hcount hserve)⟩
  · simp only [not_forall, Int.not_le] at hcount
    obtain ⟨k, rfl, hk⟩ := hcount
    exact ⟨_, _, .tooLarge hk (run_of_lt h hk)⟩

end ReadCall

end Lisplet
