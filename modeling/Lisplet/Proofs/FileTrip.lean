import Lisplet.Proofs.RoundTrip
import Lisplet.Proofs.WrittenFiles

/-!
# Data in files

A value that is written to a new file and read from it again comes back as an equal one. What is read is the
first line of the written form as the file gives it back: with every line end made uniform. A written form
has no line feed, and it has a carriage return only where a carriage return is written as a character, since
strings escape theirs and no name has one. So the data without that character survive; with it the line ends
early, and something else is read.
-/

namespace Lisplet

open Lisplet.Action

/-! ### Texts of written values -/

/-- What a written form consists of besides the written forms of its atoms. -/
def writtenMarks : Text := text "()'`,@ ."

/-- The written form of an atom is made of code points of a class. -/
def Atom.IsWrittenIn (s : Store) (p : CodePoint → Prop) (a : Atom) : Prop :=
  ∀ c ∈ (s.atomDatum a).printAtom .write, p c

mutual

/-- The written form of a value is made of the written forms of its atoms and of parentheses, quotation
marks, spaces and dots. -/
theorem Store.forall_mem_written {s : Store} {p : CodePoint → Prop}
    (hmarks : ∀ c ∈ writtenMarks, p c) : ∀ v : Value, v.Everywhere (·.IsWrittenIn s p) →
    ∀ c ∈ s.written v, p c
  | .atom a, h => by
    rw [Store.written, Store.datum, Store.print_atomDatum]
    exact h
  | .nil, _ => fun c hc => hmarks c ((by decide : ∀ c ∈ text "()", c ∈ writtenMarks) c hc)
  | .list _ head rest last, ⟨hhead, hrest, hlast⟩ => by
    have hmarked : ∀ mark : Text, (∀ c ∈ mark, c ∈ writtenMarks) → ∀ c ∈ mark, p c :=
      fun _ hsub c hc => hmarks c (hsub c hc)
    have hrow := Store.forall_mem_rowText hmarks rest hrest
    rw [Store.written, Store.datum_list, Datum.print]
    rcases s.shorthand?_cases head rest last with ⟨name, mark, v, rfl, rfl, rfl, hmem, _, hs⟩ | ⟨_, hs⟩
    · have hmark : ∀ c ∈ mark, c ∈ writtenMarks := by
        simp only [shorthands, List.mem_cons, Prod.mk.injEq, List.not_mem_nil, or_false] at hmem
        rcases hmem with ⟨_, rfl⟩ | ⟨_, rfl⟩ | ⟨_, rfl⟩ | ⟨_, rfl⟩ <;> decide
      rw [hs]
      exact List.forall_mem_append.mpr
        ⟨hmarked mark hmark, Store.forall_mem_written hmarks v hrest.1⟩
    · rw [hs]
      dsimp only
      rw [Store.printRest_rowDatum]
      have hending : ∀ c ∈ s.endingText .write last, p c := by
        cases last with
        | none => exact hmarked (text ")") (by decide)
        | some a =>
          exact List.forall_mem_append.mpr ⟨List.forall_mem_append.mpr
            ⟨hmarked _ (by decide), hlast a rfl⟩, hmarked _ (by decide)⟩
      exact List.forall_mem_append.mpr ⟨List.forall_mem_append.mpr
        ⟨hmarked _ (by decide), Store.forall_mem_written hmarks head hhead⟩,
        List.forall_mem_append.mpr ⟨hrow, hending⟩⟩

theorem Store.forall_mem_rowText {s : Store} {p : CodePoint → Prop}
    (hmarks : ∀ c ∈ writtenMarks, p c) : ∀ vs : List Value, Value.EverywhereInRow (·.IsWrittenIn s p) vs →
    ∀ c ∈ s.rowText .write vs, p c
  | [], _ => fun c hc => (List.not_mem_nil hc).elim
  | v :: vs, ⟨hv, hvs⟩ => by
    have hspace : ∀ c ∈ text " ", p c :=
      fun c hc => hmarks c ((by decide : ∀ c ∈ text " ", c ∈ writtenMarks) c hc)
    rw [Store.rowText, List.flatMap_cons]
    exact List.forall_mem_append.mpr ⟨List.forall_mem_append.mpr
      ⟨hspace, Store.forall_mem_written hmarks v hv⟩, Store.forall_mem_rowText hmarks vs hvs⟩

end

/-- A code point that a file gives back as it was written: no surrogate and no carriage return. -/
def CodePoint.IsKept (c : CodePoint) : Prop := c.isSurrogate = false ∧ c ≠ carriageReturn

instance (c : CodePoint) : Decidable c.IsKept := inferInstanceAs (Decidable (_ ∧ _))

/-- An atom of which only the carriage return, as a character, is changed in a file: an integer of not too
many digits, a truth value, a character or string without surrogates, or a readable symbol that does not
begin with an at sign. -/
def Atom.IsPortable (s : Store) : Atom → Prop
  | .int n => fitsDecimal n.natAbs = true
  | .bool _ => True
  | .char c => c.isSurrogate = false
  | .str buffer => buffer < s.buffers.size ∧ ∀ c ∈ s.content buffer, c.isSurrogate = false
  | .sym name => IsReadableName name ∧ (∀ c ∈ name, c.isSurrogate = false) ∧
      name.head? ≠ some ('@' : CodePoint)
  | _ => False

theorem Atom.IsPortable.isReadable {s : Store} {a : Atom} (h : a.IsPortable s) : a.IsReadable s := by
  cases a with
  | int n => exact h
  | bool b => trivial
  | char c => trivial
  | str buffer => exact h.1
  | sym name => exact h.1
  | _ => exact h.elim

mutual

/-- Values of portable atoms are readable. -/
theorem Value.isReadable_of_isPortable {s : Store} : ∀ {v : Value}, v.Everywhere (·.IsPortable s) →
    v.IsReadable s
  | .atom _, h => h.isReadable
  | .nil, _ => trivial
  | .list _ _ _ _, ⟨hhead, hrest, hlast⟩ => by
    refine ⟨?_, Value.isReadable_of_isPortable hhead, Value.rowIsReadable_of_isPortable hrest,
      fun a ha => (hlast a ha).isReadable⟩
    rintro ⟨name, rfl, rfl, rfl, hat⟩
    exact hrest.1.2.2 hat

theorem Value.rowIsReadable_of_isPortable {s : Store} : ∀ {vs : List Value},
    Value.EverywhereInRow (·.IsPortable s) vs → Value.RowIsReadable s vs
  | [], _ => trivial
  | _ :: _, ⟨hv, hvs⟩ => ⟨Value.isReadable_of_isPortable hv, Value.rowIsReadable_of_isPortable hvs⟩

end

/-- A string is written without carriage returns. -/
theorem isKept_of_mem_escaped {c d : CodePoint} (hc : c.isSurrogate = false) (hd : d ∈ escaped c) :
    d.IsKept := by
  unfold escaped at hd
  cases hlookup : stringEscapes.lookup c with
  | some letter =>
    have hmem : (c, letter) ∈ stringEscapes := (Reader.lookup_eq_some_iff_mem (by decide)).mp hlookup
    have hletters : ∀ p ∈ stringEscapes, ∀ d ∈ [('\\' : CodePoint), p.2], d.IsKept := by decide
    rw [hlookup] at hd
    exact hletters _ hmem d hd
  | none =>
    rw [hlookup] at hd
    obtain rfl := List.mem_singleton.mp hd
    refine ⟨hc, ?_⟩
    rintro rfl
    exact absurd hlookup (by decide)

theorem isKept_of_mem_integerText {n : Int} {c : CodePoint} (h : c ∈ integerText 10 n) : c.IsKept := by
  have hdigit : ∀ d < 10, (digitCode d).IsKept := by decide
  rcases mem_integerText h with rfl | ⟨d, hd, rfl⟩
  · decide
  · exact hdigit d hd

/-- The written form of a portable atom is kept, but for the carriage return. -/
theorem Atom.IsPortable.isWrittenIn {s : Store} {a : Atom} (h : a.IsPortable s)
    (hreturn : a ≠ .char carriageReturn) : a.IsWrittenIn s CodePoint.IsKept := by
  intro c hc
  cases a with
  | int n => exact isKept_of_mem_integerText hc
  | bool b =>
    have htexts : ∀ b, ∀ c ∈ booleanText b, c.IsKept := by decide
    exact htexts b c hc
  | sym name =>
    refine ⟨h.2.1 c hc, ?_⟩
    rintro rfl
    exact absurd (h.1.word.2 _ hc) (by decide)
  | str buffer =>
    have hquote : ∀ c ∈ text "\"", c.IsKept := by decide
    have hinner : ∀ c ∈ (s.content buffer).flatMap escaped, c.IsKept := by
      intro c hc
      obtain ⟨d, hd, hc⟩ := List.mem_flatMap.mp hc
      exact isKept_of_mem_escaped (h.2 d hd) hc
    exact List.forall_mem_append.mpr ⟨List.forall_mem_append.mpr ⟨hquote, hinner⟩, hquote⟩ c hc
  | char d =>
    have hmark : ∀ c ∈ text "#\\", c.IsKept := by decide
    have hname : ∀ c ∈ (writtenNames.lookup d).getD [d], c.IsKept := by
      cases hlookup : writtenNames.lookup d with
      | some name =>
        have hmem := (Reader.lookup_eq_some_iff_mem (by decide)).mp hlookup
        have hnames : ∀ p ∈ writtenNames, ∀ c ∈ p.2, c.IsKept := by decide
        exact hnames _ hmem
      | none =>
        intro c hc
        obtain rfl := List.mem_singleton.mp hc
        exact ⟨h, fun he => hreturn (congrArg Atom.char he)⟩
    exact List.forall_mem_append.mpr ⟨hmark, hname⟩ c hc
  | _ => exact h.elim

/-! ### Writing a file -/

/-- Writes a value to a new file. -/
def writeToFile (ev : Evaluator) (scope : ScopeId) (name v : Value) : Action Unit := do
  let port ← PortOp.run .openOutputFile ev [name] scope
  let _ ← OutputOp.run .write ev [v, port]
  let _ ← PortOp.run .closeOutput ev [port] scope

/-- Writes a value to a new file and reads a value from it. -/
def writeThenReadFile (ev : Evaluator) (scope : ScopeId) (name v : Value) : Action Value := do
  writeToFile ev scope name v
  let port ← PortOp.run .openInputFile ev [name] scope
  InputOp.run .readDatum ev [port]

/-- A text is written through an open port on a file. -/
theorem Port.write_fileSink {p : Port} {s : Store} {place : Location} {position : Nat}
    {outer inner written bytes : Bytes} {t : Text} (hopen : p.isClosed = false)
    (hstream : s.streams[p.stream]? = some (.fileSink place position outer inner))
    (hgathers : Stream.Gathers s.files place position outer inner written)
    (hbytes : Utf8.encode? t = some bytes) :
    ∃ files position' outer' inner',
      p.write t s = .ok () { s with
        streams := s.streams.set! p.stream (.fileSink place position' outer' inner'), files := files } ∧
      Stream.Gathers files place position' outer' inner' (written ++ bytes) ∧
      s.files.Rewrites place files := by
  obtain ⟨files, position', outer', inner', hwrite, hgathers', hrewrites⟩ := hgathers.write hbytes
  refine ⟨files, position', outer', inner', ?_, hgathers', hrewrites⟩
  rw [Port.write, Port.checkOpen_eq hopen, pure_bind, modifyGet_bind, hstream, Option.getD_some, hwrite]
  rfl

/-- Closing an open port that owns its stream closes the stream, and what that holds back reaches its file. -/
theorem Store.closePort_of_open {s : Store} {id : PortId} {p : Port} {stream : Stream}
    (hp : s.ports[id]? = some p) (hopen : p.isClosed = false) (howns : p.ownsStream = true)
    (hstream : s.streams[p.stream]? = some stream) :
    s.closePort id = { s with
      ports := s.ports.set! id { p with isClosed := true }
      streams := s.streams.set! p.stream .closed
      files := stream.flush s.files } := by
  simp [Store.closePort, Store.closeStream, hp, hopen, howns, hstream]

/-- Closing an output port on a file. -/
theorem PortOp.run_closeOutput (ev : Evaluator) (scope : ScopeId) {s : Store} {id : PortId} {p : Port}
    {stream : Stream} (hp : s.ports[id]? = some p) (houtput : p.isInput = false)
    (hopen : p.isClosed = false) (howns : p.ownsStream = true)
    (hstream : s.streams[p.stream]? = some stream) :
    PortOp.run .closeOutput ev [.atom (.port id)] scope s = .ok .void { s with
      ports := s.ports.set! id { p with isClosed := true }
      streams := s.streams.set! p.stream .closed
      files := stream.flush s.files } := by
  show PortOp.close .output PortOp.closeOutput.name (.atom (.port id)) s = _
  have hport : Action.chosenPort .output PortOp.closeOutput.name [.atom (.port id)] s = .ok p s :=
    Action.chosenPort_of_port hp houtput
  rw [PortOp.close, bind_of_ok hport, ← Store.closePort_of_open hp hopen howns hstream]
  rfl

/-- The bytes of a written value are in the file that it was written to, and nothing else but ports and
streams has changed. -/
theorem writeToFile_spec (ev : Evaluator) (scope : ScopeId) {s : Store} {buffer : BufferId} {path : Path}
    {place : Location} {made : FileTree} {v : Value} {t : Text} {bytes : Bytes}
    (hpath : s.files.pathIn s.directory (s.content buffer) = .ok path)
    (hopen : s.files.openForWriting path = .ok (place, made))
    (hprint : (s.opened path place made .output).print .write v ev.nesting = .ok t)
    (hbytes : Utf8.encode? t = some bytes) :
    ∃ streams ports files, writeToFile ev scope (.str buffer) v s =
        .ok () { s with streams := streams, ports := ports, files := files } ∧
      made.Rewrites place files ∧ files.content? place = some bytes := by
  -- Opened, written and closed: three stores, of which each has the file where the text is gathered.
  let s₁ := s.opened path place made .output
  let p := Port.opened path s.streams.size .output
  have hopened : PortOp.run .openOutputFile ev [.str buffer] scope s = .ok (.atom (.port s.ports.size)) s₁ :=
    show openFile .output PortOp.openOutputFile.name (.str buffer) s = _ from
      openFile_ok_iff.mpr ⟨buffer, path, place, made, rfl, hpath, hopen, rfl, rfl⟩
  have hp : s₁.ports[s.ports.size]? = some p := Array.getElem?_push_size
  have hsink : s₁.streams[p.stream]? = some (.fileSink place 0 [] []) := Array.getElem?_push_size
  obtain ⟨files, position, outer, inner, hwrite, hgathers, hrewrites⟩ := Port.write_fileSink (p := p) rfl
    hsink ⟨[], FileTree.content?_of_openForWriting hopen, rfl, rfl⟩ hbytes
  let s₂ : Store := { s₁ with
    streams := s₁.streams.set! p.stream (.fileSink place position outer inner), files := files }
  have hwritten : OutputOp.run .write ev [v, .atom (.port s.ports.size)] s₁ = .ok .void s₂ :=
    OutputOp.run_write (Action.chosenPort_of_port hp rfl) hprint hwrite
  have hsink' : s₂.streams[p.stream]? = some (.fileSink place position outer inner) :=
    getElem?_set!_self hsink _
  have hclosed := PortOp.run_closeOutput ev scope (s := s₂) (p := p) hp rfl rfl rfl hsink'
  have hflush := hgathers.flush
  have hrun : writeToFile ev scope (.str buffer) v s = .ok () { s₂ with
      ports := s₂.ports.set! s.ports.size { p with isClosed := true }
      streams := s₂.streams.set! p.stream .closed
      files := Stream.flush files (.fileSink place position outer inner) } := by
    rw [writeToFile, bind_of_ok hopened, bind_of_ok hwritten, bind_of_ok hclosed]
    rfl
  exact ⟨_, _, _, hrun, hrewrites.trans hflush.2, hflush.1⟩

/-! ### Reading it again -/

/-- The line that a file with this content gives first. -/
def firstLine (t : Text) : Text := dropNewline (splitLine (normalizeNewlines t)).1

/-- The first line of a file is read through a port on it that has just been opened. -/
theorem Port.readLine_start {p : Port} {s : Store} {place : Location} {bytes : Bytes} {t : Text}
    (hopen : p.isClosed = false) (hstream : s.streams[p.stream]? = some (.fileSource (.start place)))
    (hcontent : s.files.content? place = some bytes) (hdecode : Utf8.decode? bytes = some t)
    (hline : (splitLine (normalizeNewlines t)).1 ≠ []) :
    ∃ after, p.readLine s =
      .ok (some (firstLine t)) { s with streams := s.streams.set! p.stream after } := by
  have hbytes : Stream.contentOf s.files (.start place) = bytes := by
    show (s.files.content? place).getD [] = bytes
    rw [hcontent]
    rfl
  rcases (FileReader.remains_start hdecode place).read .line [] with ⟨hne, -⟩ | ⟨hread, -⟩
  · exact (hne rfl).elim
  · have hsource : (Stream.fileSource (.start place)).read s.files .line =
        ⟨.ok (splitLine (normalizeNewlines t)).1,
          .fileSource (FileReader.read bytes (.start place) .line []).after⟩ := by
      rw [Stream.read, hbytes, Stream.ReadResult.ofFile, hread]
      rfl
    exact ⟨_, Port.readLine_of_read hopen hstream hsource hline⟩

/-- A value that is written to a new file is read from it as what the first line of its written form denotes. -/
theorem writeThenReadFile_eq (ev : Evaluator) (scope : ScopeId) {s s₁ : Store} {name port v : Value}
    {t : Text} {d : Datum} (hopen : PortOp.run .openOutputFile ev [name] scope s = .ok port s₁)
    (hprint : s₁.print .write v ev.nesting = .ok t) (ht : ∀ c ∈ t, c.isSurrogate = false)
    (hline : (splitLine (normalizeNewlines t)).1 ≠ [])
    (hdatum : readAll ev.nesting (firstLine t) = ⟨[d], none⟩) :
    ∃ s', s.Keeps s' ∧ writeThenReadFile ev scope name v s = Action.instantiate d s' := by
  obtain ⟨buffer, path, place, made, rfl, hpath, hmade, rfl, rfl⟩ := openFile_ok_iff.mp
    (show openFile .output PortOp.openOutputFile.name name s = .ok port s₁ from hopen)
  have hbytes := Utf8.encode?_of_not_surrogate ht
  obtain ⟨streams, ports, files, hwritten, hrewrites, hcontent⟩ :=
    writeToFile_spec ev scope hpath hmade hprint hbytes
  -- When it has been written the name still leads to the file, which is then opened for reading.
  let s₂ : Store := { s with streams := streams, ports := ports, files := files }
  let s₃ := s₂.opened path place files .input
  have hfound : s₂.files.openIn path .input = .ok (place, files) := by
    rw [FileTree.openIn, hrewrites.openForReading hmade]
    rfl
  have hpath' : s₂.files.pathIn s₂.directory (s₂.content buffer) = .ok path :=
    (((FileTree.rewrites_of_openForWriting hmade).trans hrewrites).pathIn _ _).trans hpath
  have hopened : PortOp.run .openInputFile ev [.str buffer] scope s₂ = .ok (.atom (.port ports.size)) s₃ :=
    show openFile .input PortOp.openInputFile.name (.str buffer) s₂ = _ from
      openFile_ok_iff.mpr ⟨buffer, path, place, files, rfl, hpath', hfound, rfl, rfl⟩
  have hp : s₃.ports[ports.size]? = some (.opened path streams.size .input) := Array.getElem?_push_size
  obtain ⟨after, hread⟩ := Port.readLine_start (p := .opened path streams.size .input) (s := s₃) rfl
    Array.getElem?_push_size hcontent (Utf8.decode?_of_encode? hbytes) hline
  have hkeeps : s.Keeps { s₃ with streams := s₃.streams.set! streams.size after } :=
    ⟨#[], by simp [s₃, s₂, Store.opened]⟩
  refine ⟨_, hkeeps, ?_⟩
  rw [writeThenReadFile, bind_of_ok hwritten, bind_of_ok hopened,
    InputOp.run_readDatum ev (Action.chosenPort_of_port hp rfl) hread hdatum]
  rfl

/-- A text on one line without carriage returns is the first line of a file that holds it. -/
theorem splitLine_normalizeNewlines {t : Text} (hreturn : carriageReturn ∉ t) (hline : newline ∉ t) :
    (splitLine (normalizeNewlines t)).1 = t ∧ firstLine t = t := by
  have hsplit : (splitLine (normalizeNewlines t)).1 = t := by
    rw [normalizeNewlines_of_not_mem hreturn, splitLine_of_not_mem hline]
  refine ⟨hsplit, ?_⟩
  rw [firstLine, hsplit, dropNewline, if_neg fun h => hline (List.mem_of_getLast? h)]

/-- Data survive in files. A value of integers of not too many digits, truth values, characters and strings
without surrogates and readable symbols that do not begin with an at sign, in lists of any kind, is read back
equal from a new file that it was written to, as long as the carriage return is not among its characters. -/
theorem write_then_read_file (ev : Evaluator) (scope : ScopeId) {s s₁ : Store} {name port v : Value}
    (hopen : PortOp.run .openOutputFile ev [name] scope s = .ok port s₁)
    (hv : v.Everywhere fun a => a.IsPortable s ∧ a ≠ .char carriageReturn)
    (hwrite : 2 * v.nesting ≤ ev.nesting) (hread : v.nesting < ev.nesting) :
    ∃ w s', writeThenReadFile ev scope name v s = .ok w s' ∧ Value.equal s'.content v w = true := by
  have hreadable : v.IsReadable s := Value.isReadable_of_isPortable (hv.imp fun _ h => h.1)
  have hkept : ∀ c ∈ s.written v, c.IsKept :=
    s.forall_mem_written (by decide) v (hv.imp fun _ h => h.1.isWrittenIn h.2)
  have hkeeps : s.Keeps s₁ := by
    obtain ⟨_, path, place, files, _, _, _, _, rfl⟩ := openFile_ok_iff.mp
      (show openFile .output PortOp.openOutputFile.name name s = .ok port s₁ from hopen)
    exact ⟨#[], by simp [Store.opened]⟩
  have hprint : s₁.print .write v ev.nesting = .ok (s.written v) := by
    rw [Store.print_of_isReadable (hkeeps.isReadable hreadable) hwrite, hkeeps.datum hreadable]
    rfl
  obtain ⟨hsplit, hfirst⟩ := splitLine_normalizeNewlines (fun hc => (hkept _ hc).2 rfl)
    (newline_not_mem_written hreadable)
  obtain ⟨s₂, hkeeps₂, hrun⟩ := writeThenReadFile_eq ev scope (d := s.datum v) hopen hprint
    (fun c hc => (hkept c hc).1)
    (by
      obtain ⟨c, t, he, -⟩ := exists_head_written hreadable
      rw [hsplit, Store.written, he]
      exact List.cons_ne_nil _ _)
    (by rw [hfirst, readAll_written hreadable hread])
  obtain ⟨w, s', hw, hadds, hdatum⟩ := Action.instantiate_spec hreadable.isExact s₂
  have hkeeps' := hkeeps₂.trans hadds.keeps
  refine ⟨w, s', hrun.trans hw, Value.equal_of_datum_eq (hkeeps'.isReadable hreadable) ?_⟩
  rw [hdatum s' (.refl s'), hkeeps'.datum hreadable]

/-- A store with a name for a file and another string in it, and no files but the root. -/
def namingStore : Store :=
  { Store.initial [] ⟨[], [], .ofText "/", []⟩ (.ofText "/") [] with buffers := #["f", "a\r\n"] }

/-- The name is that of a file that may be made. -/
theorem exists_openOutputFile_namingStore :
    ∃ port s₁, PortOp.run .openOutputFile exampleEvaluator [.str 0] 0 namingStore = .ok port s₁ :=
  ⟨_, _, rfl⟩

/-- A dotted list of a symbol, a character and a string with both kinds of line end survives in a file. -/
theorem write_then_read_file_dottedList :
    (∃ port s₁, PortOp.run .openOutputFile exampleEvaluator [.str 0] 0 namingStore = .ok port s₁) ∧
    (∀ a ∈ [Atom.sym (text "a"), .char newline, .str 1], a.IsPortable namingStore) ∧
    ∃ w s', writeThenReadFile exampleEvaluator 0 (.str 0)
        (.list 2 (.sym "a") [.char newline] (some (.str 1))) namingStore = .ok w s' ∧
      Value.equal s'.content (.list 2 (.sym "a") [.char newline] (some (.str 1))) w = true := by
  have hname : IsReadableName (text "a") :=
    ⟨⟨by decide, by decide⟩, by decide, by decide, by decide, by decide, rfl⟩
  have hsym : (Atom.sym (text "a")).IsPortable namingStore := ⟨hname, by decide, by decide⟩
  have hchar : (Atom.char newline).IsPortable namingStore := rfl
  have hstr : (Atom.str 1).IsPortable namingStore := ⟨by decide, by decide⟩
  obtain ⟨port, s₁, hopen⟩ := exists_openOutputFile_namingStore
  have hne : Atom.char newline ≠ .char carriageReturn := fun he => absurd (Atom.char.inj he) (by decide)
  have hlast : ∀ a ∈ some (Atom.str 1), a.IsPortable namingStore ∧ a ≠ .char carriageReturn := by
    rintro a ⟨⟩
    exact ⟨hstr, nofun⟩
  exact ⟨⟨port, s₁, hopen⟩, by simp [hsym, hchar, hstr], write_then_read_file exampleEvaluator 0 hopen
    ⟨⟨hsym, nofun⟩, ⟨⟨hchar, hne⟩, trivial⟩, hlast⟩ (by decide) (by decide)⟩

/-- The carriage return as a character is written as it is and read as the end of a line, so that the mark in
front of it is taken for a symbol. -/
theorem write_then_read_file_carriageReturn :
    ∃ w s', writeThenReadFile exampleEvaluator 0 (.str 0) (.char carriageReturn) namingStore = .ok w s' ∧
      Value.equal s'.content (.char carriageReturn) w = false := by
  obtain ⟨port, s₁, hopen⟩ := exists_openOutputFile_namingStore
  have hdatum : readAll nestingLimit (firstLine (text "#\\\r")) = ⟨[.sym "#\\"], none⟩ := rfl
  obtain ⟨s', -, hrun⟩ := writeThenReadFile_eq exampleEvaluator 0 (t := text "#\\\r")
    (v := .char carriageReturn) hopen rfl (by decide) (by decide) hdatum
  refine ⟨_, _, hrun, ?_⟩
  rw [Value.equal, Value.comparePending_eq_all]
  rfl

end Lisplet
