import Lisplet.Proofs.InputCalls

/-!
# Reading in turn

Calls that read, made one after another on one port, take the text apart: the parts that they consume and what
stays put together are the text, and nothing else changes. A loop that reads until it is told false has consumed
all of it.
-/

namespace Lisplet

open Lisplet.Action

namespace Store

variable {s s' s'' : Store} {p q : Port} {port : Option PortId} {t : Text}

/-- Only one stream has been read: strings and objects were added, and everything else is as it was. -/
def ReadsOnly (s : Store) (id : StreamId) (s' : Store) : Prop := ∃ stream, (s.withStream id stream).Adds s'

theorem ReadsOnly.refl (s : Store) (id : StreamId) : s.ReadsOnly id s := by
  have hsame : s.streams.set! id (s.streams[id]?.getD .closed) = s.streams := by
    refine Array.ext_getElem? fun i => ?_
    by_cases hi : id = i
    · subst hi
      by_cases hlt : id < s.streams.size <;> simp [hlt]
    · simp [hi]
  refine ⟨s.streams[id]?.getD .closed, ?_⟩
  rw [withStream, hsame]
  exact .refl s

theorem ReadsOnly.trans {id : StreamId} (h : s.ReadsOnly id s') (h' : s'.ReadsOnly id s'') :
    s.ReadsOnly id s'' := by
  obtain ⟨stream, more, next, rfl⟩ := h
  obtain ⟨stream', more', next', rfl⟩ := h'
  refine ⟨stream', more ++ more', next', ?_⟩
  simp [withStream, Array.append_assoc]

/-- A store in which only the stream of a port was read: through the ports on other streams there is the same
text to be read, what was written there is the same, and so are the strings. -/
structure ReadsThrough (s : Store) (p : Port) (s' : Store) : Prop where
  readsOnly : s.ReadsOnly p.stream s'
  keeps : s.Keeps s'
  streams (q : Port) (hne : q.stream ≠ p.stream) : s'.streamOf q = s.streamOf q
  inputs {port : Option PortId} {q : Port} {u : Text} (hne : q.stream ≠ p.stream) (h : s.HasInput port q u) :
    s'.HasInput port q u

theorem ReadsOnly.readsThrough (h : s.ReadsOnly p.stream s') : s.ReadsThrough p s' := by
  obtain ⟨stream, hadds⟩ := id h
  refine ⟨h, ?_, fun q hne => ?_, fun hne hq => (hq.withStream_of_ne hne stream).of_adds hadds⟩
  · exact hadds.keeps
  · obtain ⟨more, next, rfl⟩ := hadds
    exact streamOf_withStream_of_ne hne stream

end Store

namespace ReadCall

/-! ### What calls consume -/

/-- A call for a number of characters is refused and gives no string. -/
inductive Refused (ev : Evaluator) (port : Option PortId) (s : Store) (p : Port) : ReadCall → Text → Prop
  /-- The number is larger than every size, and nothing is consumed. -/
  | tooLarge {k : Nat} (hk : StringOp.maxCount < k)
      (hrun : (text (some k)).run ev port s = .error (.failure (.fault .countTooLarge)) s) :
      Refused ev port s p (.text (some k)) []
  /-- The number is large, and memory cannot hold the bytes of a file for it. -/
  | outOfMemory {k : Nat} (front : Text) (hk : FileReader.safeCount < k) (hfile : (s.streamOf p).readsFile = true)
      {s' : Store} (hrun : (text (some k)).run ev port s = .error (.failure (.fault (.stream .outOfMemory))) s') :
      Refused ev port s p (.text (some k)) front

/-- A call consumes the front of the text that is read through a port and leaves the rest. -/
structure Consumes (ev : Evaluator) (port : Option PortId) (p : Port) (s : Store) (t : Text) (c : ReadCall)
    (front rest : Text) : Prop where
  text_eq : front ++ rest = t
  hasInput : ((c.run ev port).after s).HasInput port p rest
  readsThrough : s.ReadsThrough p ((c.run ev port).after s)
  /-- Unless the call is refused, what it consumes is what it is made for, and its value is made of that. -/
  answer : front = c.front t ∧
      (front ≠ [] → ∃ stream, c.Gives ev (s.withStream p.stream stream) front (c.run ev port s)) ∨
    c.Refused ev port s p front

/-- Calls are made in turn, however each of them ends, and these are the parts that they consume. -/
inductive ConsumeInTurn (ev : Evaluator) (port : Option PortId) (p : Port) :
    Store → Text → List ReadCall → List Text → Store → Text → Prop
  | done (s : Store) (t : Text) : ConsumeInTurn ev port p s t [] [] s t
  | next {s s' : Store} {t rest t' front : Text} {c : ReadCall} {cs : List ReadCall} {fronts : List Text}
      (hfirst : c.Consumes ev port p s t front rest)
      (hmore : ConsumeInTurn ev port p ((c.run ev port).after s) rest cs fronts s' t') :
      ConsumeInTurn ev port p s t (c :: cs) (front :: fronts) s' t'

variable {ev : Evaluator} {port : Option PortId} {s : Store} {p : Port} {t front rest : Text} {c : ReadCall}

theorem Does.consumes (h : s.HasInput port p t) (hdoes : Does ev port s p t c front rest) :
    c.Consumes ev port p s t front rest := by
  cases hdoes with
  | reads stream htext hremains hfile hgives =>
    have hadds := hgives.adds
    exact ⟨htext.symm, (h.withStream hremains).of_adds hadds, Store.ReadsOnly.readsThrough ⟨stream, hadds⟩,
      .inl ⟨rfl, fun _ => ⟨_, hgives⟩⟩⟩
  | tooLarge hk hrun =>
    have hafter := after_of_error hrun
    refine ⟨rfl, ?_, ?_, .inr (.tooLarge hk hrun)⟩
    · rwa [hafter]
    · rw [hafter]
      exact (Store.ReadsOnly.refl s p.stream).readsThrough
  | outOfMemory stream hk hreadsFile htext hremains hfile hrun =>
    have hafter := after_of_error hrun
    refine ⟨htext.symm, hafter ▸ h.withStream hremains, ?_, .inr (.outOfMemory _ hk hreadsFile hrun)⟩
    exact Store.ReadsOnly.readsThrough ⟨stream, hafter ▸ .refl _⟩

/-- Calls in turn take the text apart, and nothing is lost or taken twice: the parts and what stays are the text.
All else is as it was. -/
theorem calls_in_turn_conserve_text (h : s.HasInput port p t) (ev : Evaluator) (cs : List ReadCall) :
    ∃ fronts s' rest, ConsumeInTurn ev port p s t cs fronts s' rest ∧ fronts.flatten ++ rest = t ∧
      s'.HasInput port p rest ∧ s.ReadsThrough p s' := by
  induction cs generalizing s t with
  | nil => exact ⟨[], s, t, .done s t, rfl, h, (Store.ReadsOnly.refl s p.stream).readsThrough⟩
  | cons c cs ih =>
    obtain ⟨front, rest, hdoes⟩ := exists_does h ev c
    have hfirst := hdoes.consumes h
    obtain ⟨fronts, s', rest', hmore, htext, hinput, hreads⟩ := ih hfirst.hasInput
    refine ⟨front :: fronts, s', rest', .next hfirst hmore, ?_, hinput, ?_⟩
    · rw [List.flatten_cons, List.append_assoc, htext, hfirst.text_eq]
    · exact (hfirst.readsThrough.readsOnly.trans hreads.readsOnly).readsThrough

/-- A text of two lines as the current input. -/
def exampleInput : Store := Store.initial "ab\ncd" ⟨[], [], .ofText "/", []⟩ (.ofText "/") []

/-- The port on the current input. -/
def inputPort : Port := ⟨"stdin", standardInput, true, false, false⟩

theorem hasInput_exampleInput : exampleInput.HasInput none inputPort "ab\ncd" := ⟨rfl, rfl, .source _⟩

theorem calls_in_turn_conserve_text_twoLines : exampleInput.HasInput none inputPort "ab\ncd" ∧
    ∃ fronts s' rest, ConsumeInTurn exampleEvaluator none inputPort exampleInput "ab\ncd"
      [.char, .line, .text none] fronts s' rest ∧ fronts.flatten ++ rest = "ab\ncd" ∧
      s'.HasInput none inputPort rest ∧ exampleInput.ReadsThrough inputPort s' :=
  ⟨hasInput_exampleInput,
    calls_in_turn_conserve_text hasInput_exampleInput exampleEvaluator [.char, .line, .text none]⟩

/-- Two ports on the current input. -/
def twoInputPorts : Store := { exampleInput with ports := #[inputPort, inputPort] }

/-- Ports on one stream share its text: reading through one of them changes what is to be read through the other.
A count that is larger than every size consumes nothing, although there is something to be read. -/
theorem not_every_call_consumes_own_text_alone :
    twoInputPorts.HasInput (some 0) inputPort "ab\ncd" ∧ twoInputPorts.HasInput (some 1) inputPort "ab\ncd" ∧
    ¬((char.run exampleEvaluator (some 0)).after twoInputPorts).HasInput (some 1) inputPort "ab\ncd" ∧
    (text (some (2 ^ 64))).run exampleEvaluator (some 0) twoInputPorts =
      .error (.failure (.fault .countTooLarge)) twoInputPorts := by
  have h : twoInputPorts.HasInput (some 0) inputPort "ab\ncd" := ⟨rfl, rfl, .source _⟩
  refine ⟨h, ⟨rfl, rfl, .source _⟩, fun hother => ?_, run_of_lt h (by decide)⟩
  have hremains : Stream.Remains twoInputPorts.files (.source "b\ncd") "ab\ncd" := hother.remains
  cases hremains

/-! ### The end of the input -/

/-- A call is for no more characters than there are sizes for, and if there is a file below, than memory can
hold. -/
def IsSized (stream : Stream) (c : ReadCall) : Prop :=
  ∀ k, c = .text (some k) → k ≤ StringOp.maxCount ∧ (stream.readsFile = true → k ≤ FileReader.safeCount)

theorem IsSized.of_readsFile_eq {stream stream' : Stream} (h : c.IsSized stream)
    (hfile : stream'.readsFile = stream.readsFile) : c.IsSized stream' := by
  rwa [IsSized, hfile]

/-- Such a call is not refused. -/
theorem IsSized.not_refused (h : c.IsSized (s.streamOf p)) (front : Text) : ¬c.Refused ev port s p front := by
  intro hrefused
  cases hrefused with
  | @tooLarge k hk _ => exact absurd (h k rfl).1 (Int.not_le.mpr hk)
  | @outOfMemory k _ hk hfile _ _ => exact absurd ((h k rfl).2 hfile) (Nat.not_le.mpr hk)

/-- A call reads characters, a line or all there is, and asks for one character at least. -/
def IsProgressive (c : ReadCall) : Prop := c ≠ .datum ∧ c ≠ .text (some 0)

/-- Such a call takes something off every text that is not empty. -/
theorem IsProgressive.front_eq_nil_iff (hc : c.IsProgressive) : c.front t = [] ↔ t = [] := by
  cases c with
  | text count =>
    cases count with
    | none => rfl
    | some k =>
      have hk : k ≠ 0 := fun hzero => hc.2 (by rw [hzero])
      simp [ReadCall.front, List.take_eq_nil_iff, hk]
  | char => simp [ReadCall.front]
  | line => exact splitLine_eq_nil_iff
  | datum => exact absurd rfl hc.1

/-- Every answer but that about a datum is a value, and it is false where nothing was taken. -/
theorem Gives.exists_ok {outcome : EStateM.Result Signal Store Value} (h : c.Gives ev s front outcome)
    (hc : c ≠ .datum) : ∃ v s', outcome = .ok v s' ∧ s.Adds s' ∧ (v = .bool false ↔ front = []) := by
  cases h with
  | char => exact ⟨_, _, rfl, .refl s, by simp [Value.char, Value.bool]⟩
  | text _ hne | line hne => exact ⟨_, _, rfl, .push s _, by simp [Value.str, Value.bool, hne]⟩
  | datum | noDatum => exact absurd rfl hc
  | endOfInput => exact ⟨_, _, rfl, .refl s, by simp⟩

/-- A call that is not refused takes the front off. -/
theorem reads_of_not_refused (h : s.HasInput port p t) (hc : ∀ front, ¬c.Refused ev port s p front) :
    ∃ stream rest, t = c.front t ++ rest ∧ stream.Remains s.files rest ∧
      stream.readsFile = (s.streamOf p).readsFile ∧
      c.Gives ev (s.withStream p.stream stream) (c.front t) (c.run ev port s) := by
  obtain ⟨front, rest, hdoes⟩ := exists_does h ev c
  cases hdoes with
  | reads stream htext hremains hfile hgives => exact ⟨stream, rest, htext, hremains, hfile, hgives⟩
  | tooLarge hk hrun => exact absurd (.tooLarge hk hrun) (hc _)
  | outOfMemory stream hk hreadsFile _ _ _ hrun => exact absurd (.outOfMemory front hk hreadsFile hrun) (hc _)

/-- Its value is false where there is nothing to be read. -/
theorem ok_of_not_refused (h : s.HasInput port p t) (hc : ∀ front, ¬c.Refused ev port s p front)
    (hprogressive : c.IsProgressive) :
    ∃ v s' rest, c.run ev port s = .ok v s' ∧ t = c.front t ++ rest ∧ s'.HasInput port p rest ∧
      (s'.streamOf p).readsFile = (s.streamOf p).readsFile ∧ (v = .bool false ↔ t = []) := by
  obtain ⟨stream, rest, htext, hremains, hfile, hgives⟩ := reads_of_not_refused h hc
  obtain ⟨v, s', hrun, hadds, hv⟩ := hgives.exists_ok hprogressive.1
  have hstream : s'.streamOf p = stream := by
    obtain ⟨more, next, rfl⟩ := hadds
    exact Store.streamOf_withStream h.streamOf_ne_closed stream
  exact ⟨v, s', rest, hrun, htext, (h.withStream hremains).of_adds hadds, hstream ▸ hfile,
    hv.trans hprogressive.front_eq_nil_iff⟩

/-- Calls are made one after another until one gives false; these are the values that the others give. -/
inductive ReadsUntilFalse (ev : Evaluator) (port : Option PortId) :
    (Nat → ReadCall) → Store → List Value → Store → Prop
  | stop {calls : Nat → ReadCall} {s s' : Store} (hrun : (calls 0).run ev port s = .ok (.bool false) s') :
      ReadsUntilFalse ev port calls s [] s'
  | go {calls : Nat → ReadCall} {s s' s'' : Store} {v : Value} {values : List Value}
      (hrun : (calls 0).run ev port s = .ok v s') (hv : v ≠ .bool false)
      (hmore : ReadsUntilFalse ev port (fun i => calls (i + 1)) s' values s'') :
      ReadsUntilFalse ev port calls s (v :: values) s''

/-- A loop that reads until it is told false ends, and it has consumed all there was. -/
theorem exists_readsUntilFalse (h : s.HasInput port p t) (ev : Evaluator) {calls : Nat → ReadCall}
    (hcalls : ∀ i, (calls i).IsProgressive ∧ (calls i).IsSized (s.streamOf p)) :
    ∃ values s', ReadsUntilFalse ev port calls s values s' ∧ s'.HasInput port p [] := by
  -- Every call but the last takes something off.
  induction hlength : t.length using Nat.strongRecOn generalizing s t calls with
  | ind n ih =>
    obtain ⟨hprogressive, hsized⟩ := hcalls 0
    obtain ⟨v, s', rest, hrun, htext, hinput, hfile, hv⟩ := ok_of_not_refused h hsized.not_refused hprogressive
    by_cases ht : t = []
    · obtain rfl := hv.mpr ht
      have hrest : rest = [] := (List.append_eq_nil_iff.mp (htext.symm.trans ht)).2
      exact ⟨[], s', .stop hrun, hrest ▸ hinput⟩
    · have hless : rest.length < t.length := by
        have hfront := List.length_pos_of_ne_nil (mt hprogressive.front_eq_nil_iff.mp ht)
        have hlength := congrArg List.length htext
        rw [List.length_append] at hlength
        omega
      have hlater : ∀ i, (calls (i + 1)).IsProgressive ∧ (calls (i + 1)).IsSized (s'.streamOf p) :=
        fun i => ⟨(hcalls (i + 1)).1, (hcalls (i + 1)).2.of_readsFile_eq hfile⟩
      obtain ⟨values, s'', hmore, hend⟩ := ih _ (hlength ▸ hless) hinput hlater rfl
      exact ⟨v :: values, s'', .go hrun (mt hv.mp ht) hmore, hend⟩

/-- What false says of the text that is read through a port. -/
structure FalseIsEnd (ev : Evaluator) (port : Option PortId) (s : Store) (p : Port) (t : Text) : Prop where
  /-- Unless the call is refused, there is nothing to be read. -/
  false_iff {c : ReadCall} (hc : c.IsProgressive) (haccepted : ∀ front, ¬c.Refused ev port s p front) :
    (∃ s', c.run ev port s = .ok (.bool false) s') ↔ t = []
  /-- If there is something, a number of characters gives a new string of so many, or of all there are. -/
  string {k : Nat} (hk : k ≠ 0) (haccepted : ∀ front, ¬(text (some k)).Refused ev port s p front) (ht : t ≠ []) :
    ∃ s', (text (some k)).run ev port s = .ok (.str s.buffers.size) s' ∧ s'.content s.buffers.size = t.take k
  /-- No call is refused up to the sizes of the host. -/
  accepted {c : ReadCall} (hsized : c.IsSized (s.streamOf p)) (front : Text) : ¬c.Refused ev port s p front
  /-- A loop that reads until it is told false consumes all there is. -/
  loop {calls : Nat → ReadCall} (hcalls : ∀ i, (calls i).IsProgressive ∧ (calls i).IsSized (s.streamOf p)) :
    ∃ values s', ReadsUntilFalse ev port calls s values s' ∧ s'.HasInput port p []

/-- False says that the input has ended, and nothing else, when one character at least is asked for. -/
theorem false_is_end (h : s.HasInput port p t) (ev : Evaluator) : FalseIsEnd ev port s p t where
  false_iff := by
    intro c hc haccepted
    obtain ⟨v, s', rest, hrun, -, -, -, hv⟩ := ok_of_not_refused h haccepted hc
    rw [hrun, ← hv]
    constructor
    · rintro ⟨_, hfalse⟩
      cases hfalse
      rfl
    · rintro rfl
      exact ⟨s', rfl⟩
  string := by
    intro k hk haccepted ht
    have hc : (text (some k)).IsProgressive := ⟨nofun, fun hzero => hk (by cases hzero; rfl)⟩
    -- The demand takes something off a text that is not empty, so false is not given.
    have hne : (text (some k)).front t ≠ [] := mt hc.front_eq_nil_iff.mp ht
    obtain ⟨stream, rest, -, -, -, hgives⟩ := reads_of_not_refused h haccepted
    obtain ⟨outcome, hrun⟩ : ∃ outcome, (text (some k)).run ev port s = outcome := ⟨_, rfl⟩
    obtain ⟨front, hfront⟩ : ∃ front, (text (some k)).front t = front := ⟨_, rfl⟩
    rw [hrun, hfront] at hgives
    rw [hrun]
    cases hgives with
    | text =>
      refine ⟨_, rfl, ?_⟩
      show (s.buffers.push front)[s.buffers.size]?.getD [] = t.take k
      rw [Array.getElem?_push_size, ← hfront]
      rfl
    | endOfInput => exact absurd hfront hne
  accepted hsized := hsized.not_refused
  loop hcalls := exists_readsUntilFalse h ev hcalls

theorem false_is_end_twoLines : exampleInput.HasInput none inputPort "ab\ncd" ∧
    FalseIsEnd exampleEvaluator none exampleInput inputPort "ab\ncd" :=
  ⟨hasInput_exampleInput, false_is_end hasInput_exampleInput exampleEvaluator⟩

/-- There is something to be read, and no characters of it are false. -/
theorem not_false_only_at_end : exampleInput.HasInput none inputPort "ab\ncd" ∧
    ∃ s', (text (some 0)).run exampleEvaluator none exampleInput = .ok (.bool false) s' :=
  ⟨hasInput_exampleInput, _, rfl⟩

end ReadCall

end Lisplet
