import Lisplet.Proofs.Leaks
import Lisplet.Proofs.StringBuffers
import Lisplet.Proofs.TakenTexts

/-!
# Ranges of strings

`substring`, `string-copy`, `string-copy!` and `write-string` take the part of a string that optional arguments ask
for. The first three check the start, the end and their order one by one, the last compares all of them at once; yet
they take the same ranges and find the same part. A call fails if there is no such part, or no place for it: in a
string that is too short, or on a port that does not take it. Then nothing has changed.
-/

namespace Lisplet

open Lisplet.Action

namespace StringOp

open OutputOp (bound?)

/-- The part of a text from a start to an end, if they are in order within the text. -/
def cut? (t : Text) (start finish : Int) : Option Text :=
  if 0 ≤ start ∧ start ≤ finish ∧ finish ≤ t.length then some (slice t start.toNat finish.toNat) else none

/-- The part of a text that optional arguments ask for, which have to be integers. A missing start is zero, and a
missing end is the length of the text. -/
def part? (t : Text) (bounds : List Value) : Option Text :=
  (bound? 0 bounds).bind fun start => (bound? t.length (bounds.drop 1)).bind fun finish => cut? t start finish

variable {t piece : Text} {bounds : List Value} {who : Text} {s : Store} {b : BufferId}

/-! ### Two checks of a range -/

theorem selects_iff {size start finish : Nat} : StringMutator.Selects size bounds start finish ↔
    bound? 0 bounds = some (start : Int) ∧ bound? size (bounds.drop 1) = some (finish : Int) ∧
      start ≤ finish ∧ finish ≤ size := by
  constructor
  · intro h
    refine ⟨?_, ?_, h.le⟩
    · cases h <;> rfl
    · cases h <;> rfl
  · rintro ⟨hstart, hfinish, hle, hsize⟩
    match bounds with
    | [] =>
      obtain rfl : start = 0 := Int.ofNat_inj.mp (Option.some.inj hstart).symm
      obtain rfl : finish = size := Int.ofNat_inj.mp (Option.some.inj hfinish).symm
      exact .all
    | [_] =>
      obtain rfl := Value.integer?_eq_some_iff.mp hstart
      obtain rfl : finish = size := Int.ofNat_inj.mp (Option.some.inj hfinish).symm
      exact .rest hle
    | _ :: _ :: more =>
      obtain rfl := Value.integer?_eq_some_iff.mp hstart
      obtain rfl := Value.integer?_eq_some_iff.mp hfinish
      exact .range more hle hsize

/-- To compare start, end and size at once is to select a range. -/
theorem part?_eq_some_iff : part? t bounds = some piece ↔
    ∃ start finish, StringMutator.Selects t.length bounds start finish ∧ slice t start finish = piece := by
  constructor
  · intro h
    obtain ⟨start, hstart, h⟩ := Option.bind_eq_some_iff.mp h
    obtain ⟨finish, hfinish, h⟩ := Option.bind_eq_some_iff.mp h
    obtain ⟨⟨hnonneg, hle, hsize⟩, hpiece⟩ := Option.ite_none_right_eq_some.mp h
    lift start to Nat using hnonneg
    lift finish to Nat using Int.le_trans (Int.natCast_nonneg start) hle
    have hselects := selects_iff.mpr ⟨hstart, hfinish, Int.ofNat_le.mp hle, Int.ofNat_le.mp hsize⟩
    exact ⟨start, finish, hselects, Option.some.inj hpiece⟩
  · rintro ⟨start, finish, hselects, rfl⟩
    obtain ⟨hstart, hfinish, hle, hsize⟩ := selects_iff.mp hselects
    rw [part?, hstart, Option.bind_some, hfinish, Option.bind_some]
    exact if_pos ⟨Int.natCast_nonneg start, Int.ofNat_le.mpr hle, Int.ofNat_le.mpr hsize⟩

/-- To check start, end and their order one by one finds the same part. -/
theorem map_range? (t : Text) (bounds : List Value) :
    (range? t.length bounds).map (fun r => slice t r.1 r.2) = part? t bounds := by
  refine Option.ext fun piece => ?_
  rw [Option.map_eq_some_iff, part?_eq_some_iff]
  constructor
  · rintro ⟨⟨start, finish⟩, hrange, hpiece⟩
    exact ⟨start, finish, StringMutator.selects_of_range? hrange, hpiece⟩
  · rintro ⟨start, finish, hselects, hpiece⟩
    exact ⟨(start, finish), hselects.range?_eq, hpiece⟩

/-! ### New strings -/

theorem part_of_some (h : part? (s.content b) bounds = some piece) :
    part who (.str b) bounds s = .ok (.str s.buffers.size) { s with buffers := s.buffers.push piece } := by
  obtain ⟨start, finish, hselects, rfl⟩ := part?_eq_some_iff.mp h
  have htext : asText (some who) (.str b) s = .ok (s.content b) s := rfl
  have hrange := (range_finds who s (s.content b).length bounds).ok_iff.mpr ⟨hselects.range?_eq, rfl⟩
  rw [part, bind_of_ok htext, bind_of_ok hrange]
  rfl

theorem part_of_none (h : part? (s.content b) bounds = none) : ∃ e, part who (.str b) bounds s = .error e s := by
  have htext : asText (some who) (.str b) s = .ok (s.content b) s := rfl
  have hrange := range_finds who s (s.content b).length bounds
  rw [Option.map_eq_none_iff.mp ((map_range? _ _).trans h)] at hrange
  cases hrange with
  | refused hrange _ => exact ⟨_, (bind_of_ok htext).trans (bind_of_error hrange)⟩

/-! ### Strings that are overwritten -/

theorem copyInto_of_some {target : BufferId} (h : part? (s.content b) bounds = some piece)
    (hfits : piece.length ≤ (s.content target).length) :
    ∃ s', StringOp.copyInto.run (.str target :: .int 0 :: .str b :: bounds) s = .ok .void s' ∧
      s.Overwrites target 0 piece s' := by
  obtain ⟨start, finish, hselects, rfl⟩ := part?_eq_some_iff.mp h
  rw [length_slice hselects.le.2] at hfits
  exact StringMutator.run_of_writes (.copyInto (k := 0) hselects (by omega))

/-- What is copied into a string is a part that fits behind the place. -/
theorem StringMutator.part?_eq_of_writes {target b' : BufferId} {k : Int} {start : Nat}
    (h : copyInto.Writes s (.str target :: .int k :: .str b :: bounds) b' start piece) :
    part? (s.content b) bounds = some piece ∧ k + piece.length ≤ (s.content target).length := by
  have hfits := h.fits
  cases h with
  | copyInto hselects _ => exact ⟨part?_eq_some_iff.mpr ⟨_, _, hselects, rfl⟩, Int.ofNat_le.mpr hfits⟩

theorem copyInto_fails {target : BufferId}
    (h : ¬∃ piece, part? (s.content b) bounds = some piece ∧ piece.length ≤ (s.content target).length) :
    ∃ e, StringOp.copyInto.run (.str target :: .int 0 :: .str b :: bounds) s = .error e s := by
  rcases StringMutator.copyInto.run_writes_or_fails (.str target :: .int 0 :: .str b :: bounds) s with
    ⟨_, _, piece, _, hwrites, _, _⟩ | ⟨_, hrun⟩
  · obtain ⟨hpart, hfits⟩ := StringMutator.part?_eq_of_writes hwrites
    exact absurd ⟨piece, hpart, by omega⟩ h
  · exact hrun

end StringOp

/-! ### Texts that are written -/

namespace OutputOp

open StringOp (slice cut? part?)

variable {s : Store} {b : BufferId} {bounds : List Value} {piece : Text}

/-- The part from a start to an end, which are compared with the length at once. -/
def cut (t : Text) (start finish : Int) : Action Text :=
  if 0 ≤ start ∧ start ≤ finish ∧ finish ≤ t.length then pure (slice t start.toNat finish.toNat)
  else evaluationError (.rangeOutOfBounds start finish)

theorem cut_finds (t : Text) (start finish : Int) (s : Store) : (cut t start finish).Finds s (cut? t start finish) := by
  rw [cut, cut?]
  split
  · exact .pure _ s
  · exact evaluationError_finds s _

theorem cut_bind {α : Type} (t : Text) (start finish : Int) (next : Text → Action α) :
    cut t start finish >>= next =
      if 0 ≤ start ∧ start ≤ finish ∧ finish ≤ t.length then next (slice t start.toNat finish.toNat)
      else evaluationError (.rangeOutOfBounds start finish) := by
  rw [cut]
  split <;> rfl

/-- The part that optional arguments ask for, looked for as it is before it is written. -/
def findPart (who : Text) (t : Text) (bounds : List Value) : Action Text := do
  let start ← match bounds with
    | a :: _ => asInteger (some who) a
    | [] => pure 0
  let finish ← match bounds.drop 1 with
    | b :: _ => asInteger (some who) b
    | [] => pure (t.length : Int)
  cut t start finish

theorem findPart_finds (who t : Text) (bounds : List Value) (s : Store) :
    (findPart who t bounds).Finds s (part? t bounds) := by
  match bounds with
  | [] => exact cut_finds t 0 t.length s
  | [a] => exact (asInteger_finds _ a s).bind _ fun start _ => cut_finds t start t.length s
  | a :: b :: _ =>
    exact (asInteger_finds _ a s).bind _ fun start _ => (asInteger_finds _ b s).bind _ fun finish _ =>
      cut_finds t start finish s

/-- First the port is chosen, then the part is looked for, and only then is it written. -/
theorem emitPart_eq (who : Text) (b : BufferId) (v : Value) (bounds : List Value) (s : Store) :
    emitPart who (.str b) (v :: bounds) s = (do
      let p ← chosenPort .output who [v]
      let piece ← findPart who (s.content b) bounds
      p.write piece
      pure .void : Action Value) s := by
  have htext : asText (some who) (.str b) s = .ok (s.content b) s := rfl
  rw [emitPart, bind_of_ok htext]
  refine congrFun (bind_congr fun p => ?_) s
  have hcut := fun start finish => (cut_bind (s.content b) start finish fun piece => do
    p.write piece
    pure Value.void).symm
  match bounds with
  | [] => exact hcut 0 (s.content b).length
  | [a] => exact (bind_congr fun start => hcut start (s.content b).length).trans (bind_assoc _ _ _).symm
  | a :: b' :: _ =>
    refine Eq.trans (bind_congr fun start => ?_) (bind_assoc _ _ _).symm
    exact (bind_congr fun finish => hcut start finish).trans (bind_assoc _ _ _).symm

/-- A port that a text is written to: it is there for output, and it takes the text. -/
def WritesTo (s : Store) (id : PortId) (t : Text) (p : Port) : Prop :=
  s.ports[id]? = some p ∧ p.isInput = false ∧ p.Takes s t

theorem writeString_of_some (ev : Evaluator) {id : PortId} {p : Port} (h : part? (s.content b) bounds = some piece)
    (hp : WritesTo s id piece p) :
    ∃ s', OutputOp.writeString.run ev (.str b :: .atom (.port id) :: bounds) s = .ok .void s' ∧
      s.Gains p piece s' := by
  obtain ⟨hid, houtput, htakes⟩ := hp
  obtain ⟨s', hwrite, hgains⟩ := htakes.write
  have hport : chosenPort .output OutputOp.writeString.name [.atom (.port id)] s = .ok p s :=
    chosenPort_of_port hid houtput
  have hpart := (findPart_finds OutputOp.writeString.name (s.content b) bounds s).ok_iff.mpr ⟨h, rfl⟩
  refine ⟨s', (emitPart_eq _ b _ bounds s).trans ?_, hgains⟩
  rw [bind_of_ok hport, bind_of_ok hpart, bind_of_ok hwrite]
  rfl

theorem writeString_fails (ev : Evaluator) {id : PortId}
    (h : ¬∃ piece, part? (s.content b) bounds = some piece ∧ ∃ p, WritesTo s id piece p) :
    ∃ e, OutputOp.writeString.run ev (.str b :: .atom (.port id) :: bounds) s = .error e s := by
  have hfound := findPart_finds OutputOp.writeString.name (s.content b) bounds s
  cases hport : chosenPort .output OutputOp.writeString.name [.atom (.port id)] s with
  | error e s' =>
    obtain rfl : s' = s := (after_of_error hport).symm.trans (chosenPort_looks _ _ _ s)
    exact ⟨e, (emitPart_eq _ b _ bounds s').trans (bind_of_error hport)⟩
  | ok p s' =>
    obtain ⟨rfl, hid, houtput⟩ := chosenPort_eq_ok_iff.mp hport
    cases hpart : part? (s'.content b) bounds with
    | none =>
      rw [hpart] at hfound
      cases hfound with
      | refused hfound _ =>
        exact ⟨_, (emitPart_eq _ b _ bounds s').trans ((bind_of_ok hport).trans (bind_of_error hfound))⟩
    | some piece =>
      obtain ⟨e, hwrite⟩ := Port.write_of_not_takes fun htakes => h ⟨piece, hpart, p, hid, houtput, htakes⟩
      refine ⟨e, (emitPart_eq _ b _ bounds s').trans ?_⟩
      rw [bind_of_ok hport, bind_of_ok (hfound.ok_iff.mpr ⟨hpart, rfl⟩), bind_of_error hwrite]

end OutputOp

/-! ### Calls -/

/-- A procedure that takes a part of a string, with what it puts the part in. -/
inductive PartTaker where
  | substring
  | copy
  | copyInto (target : BufferId)
  | writeString (id : PortId)

namespace PartTaker

open StringOp (part?)

/-- Calls the procedure with optional start and end; what is copied into a string goes to its beginning. -/
def call (ev : Evaluator) (scope : ScopeId) (source : BufferId) (bounds : List Value) : PartTaker → Action Step
  | .substring => (Primitive.strings .substring).call ev (.str source :: bounds) scope
  | .copy => (Primitive.strings .copy).call ev (.str source :: bounds) scope
  | .copyInto target => (Primitive.strings .copyInto).call ev (.str target :: .int 0 :: .str source :: bounds) scope
  | .writeString id => (Primitive.output .writeString).call ev (.str source :: .atom (.port id) :: bounds) scope

/-- There may be a start and an end; `substring` has to be told the start. -/
def Allows (bounds : List Value) (c : PartTaker) : Prop := bounds.length ≤ 2 ∧ (c = .substring → bounds ≠ [])

/-- A part has a place: in a string that is long enough, or behind an open output port that takes it. -/
def HasPlace (s : Store) (piece : Text) : PartTaker → Prop
  | .substring | .copy => True
  | .copyInto target => piece.length ≤ (s.content target).length
  | .writeString id => ∃ p, OutputOp.WritesTo s id piece p

/-- What comes of a part: a new string, the first cells of a string, or text behind what was written. -/
inductive Delivers (s : Store) (piece : Text) : PartTaker → Value → Store → Prop
  | substring : Delivers s piece .substring (.str s.buffers.size) { s with buffers := s.buffers.push piece }
  | copy : Delivers s piece .copy (.str s.buffers.size) { s with buffers := s.buffers.push piece }
  | copyInto {target : BufferId} {s' : Store} (h : s.Overwrites target 0 piece s') :
      Delivers s piece (.copyInto target) .void s'
  | writeString {id : PortId} {p : Port} {s' : Store} (hp : s.ports[id]? = some p) (h : s.Gains p piece s') :
      Delivers s piece (.writeString id) .void s'

variable {s : Store} {source : BufferId} {bounds : List Value} {piece : Text} {c : PartTaker}

/-- What a call runs if the number of its arguments is right. -/
def run (ev : Evaluator) (source : BufferId) (bounds : List Value) : PartTaker → Action Value
  | .substring => StringOp.substring.run (.str source :: bounds)
  | .copy => StringOp.copy.run (.str source :: bounds)
  | .copyInto target => StringOp.copyInto.run (.str target :: .int 0 :: .str source :: bounds)
  | .writeString id => OutputOp.writeString.run ev (.str source :: .atom (.port id) :: bounds)

theorem call_eq (ev : Evaluator) (scope : ScopeId) (h : c.Allows bounds) :
    c.call ev scope source bounds = .value <$> c.run ev source bounds := by
  obtain ⟨hlength, hstart⟩ := h
  match bounds, c with
  | [], .substring => exact absurd rfl (hstart rfl)
  | [], .copy | [], .copyInto _ | [], .writeString _ => exact Primitive.call_of_accepts rfl ev scope
  | [_], .substring | [_], .copy | [_], .copyInto _ | [_], .writeString _ =>
    exact Primitive.call_of_accepts rfl ev scope
  | [_, _], .substring | [_, _], .copy | [_, _], .copyInto _ | [_, _], .writeString _ =>
    exact Primitive.call_of_accepts rfl ev scope

theorem call_delivers (ev : Evaluator) (scope : ScopeId) (hallows : c.Allows bounds)
    (h : part? (s.content source) bounds = some piece) (hplace : c.HasPlace s piece) :
    ∃ v s', c.call ev scope source bounds s = .ok (.value v) s' ∧ c.Delivers s piece v s' := by
  rw [call_eq ev scope hallows]
  cases c with
  | substring => exact ⟨_, _, map_of_ok _ (StringOp.part_of_some h), .substring⟩
  | copy => exact ⟨_, _, map_of_ok _ (StringOp.part_of_some h), .copy⟩
  | copyInto target =>
    obtain ⟨s', hrun, hdone⟩ := StringOp.copyInto_of_some h hplace
    exact ⟨_, s', map_of_ok _ hrun, .copyInto hdone⟩
  | writeString id =>
    obtain ⟨p, hp⟩ := hplace
    obtain ⟨s', hrun, hgains⟩ := OutputOp.writeString_of_some ev h hp
    exact ⟨_, s', map_of_ok _ hrun, .writeString hp.1 hgains⟩

theorem call_fails (ev : Evaluator) (scope : ScopeId) (hallows : c.Allows bounds)
    (h : ¬∃ piece, part? (s.content source) bounds = some piece ∧ c.HasPlace s piece) :
    ∃ e, c.call ev scope source bounds s = .error e s := by
  have hrun : ∀ {act : Action Value}, (∃ e, act s = .error e s) →
      ∃ e, (Step.value <$> act : Action Step) s = .error e s := fun ⟨e, he⟩ => ⟨e, map_of_error _ he⟩
  rw [call_eq ev scope hallows]
  cases c with
  | substring | copy =>
    refine hrun (StringOp.part_of_none (Option.eq_none_iff_forall_ne_some.mpr fun piece hpiece => ?_))
    exact h ⟨piece, hpiece, trivial⟩
  | copyInto target => exact hrun (StringOp.copyInto_fails h)
  | writeString id => exact hrun (OutputOp.writeString_fails ev h)

/-- A call delivers the part that is asked for, or else it fails and has changed nothing. -/
theorem call_delivers_or_fails (ev : Evaluator) (scope : ScopeId) (s : Store) (source : BufferId)
    (hallows : c.Allows bounds) :
    (∃ piece v s', (part? (s.content source) bounds = some piece ∧ c.HasPlace s piece) ∧
      c.call ev scope source bounds s = .ok (.value v) s' ∧ c.Delivers s piece v s') ∨
    (¬∃ piece, part? (s.content source) bounds = some piece ∧ c.HasPlace s piece) ∧
      ∃ e, c.call ev scope source bounds s = .error e s := by
  by_cases hpart : ∃ piece, part? (s.content source) bounds = some piece ∧ c.HasPlace s piece
  · obtain ⟨piece, hpiece, hplace⟩ := hpart
    obtain ⟨v, s', hok, hdelivers⟩ := call_delivers ev scope hallows hpiece hplace
    exact .inl ⟨piece, v, s', ⟨hpiece, hplace⟩, hok, hdelivers⟩
  · exact .inr ⟨hpart, call_fails ev scope hallows hpart⟩

end PartTaker

/-- What calls make of the part of a string that optional arguments ask for. -/
structure Store.SharesParts (s : Store) (ev : Evaluator) (scope : ScopeId) (source : BufferId)
    (bounds : List Value) : Prop where
  /-- They succeed just if there is a part and a place for it. -/
  succeeds_iff {c : PartTaker} (hallows : c.Allows bounds) : (c.call ev scope source bounds).Succeeds s ↔
    ∃ piece, StringOp.part? (s.content source) bounds = some piece ∧ c.HasPlace s piece
  /-- Then they deliver this part. -/
  delivers {c : PartTaker} (hallows : c.Allows bounds) {step : Step} {s' : Store}
    (h : c.call ev scope source bounds s = .ok step s') :
    ∃ v piece, step = .value v ∧ StringOp.part? (s.content source) bounds = some piece ∧ c.Delivers s piece v s'
  /-- Calls that fail have changed nothing; nothing has been written. -/
  unchanged {c : PartTaker} (hallows : c.Allows bounds) {e : Signal} {s' : Store}
    (h : c.call ev scope source bounds s = .error e s') : s' = s

/-- All procedures that take a part of a string take the same ranges and deliver the same part, if there is a place
for it. -/
theorem string_parts_agree (ev : Evaluator) (scope : ScopeId) (s : Store) (source : BufferId)
    (bounds : List Value) : s.SharesParts ev scope source bounds where
  succeeds_iff {c} hallows := by
    rcases c.call_delivers_or_fails ev scope s source hallows with ⟨piece, v, s', hpart, hok, _⟩ | ⟨hnone, e, herror⟩
    · exact iff_of_true ⟨_, s', hok⟩ ⟨piece, hpart⟩
    · exact iff_of_false (fun ⟨_, _, hok⟩ => nomatch herror.symm.trans hok) hnone
  delivers {c} hallows {step s'} hdone := by
    rcases c.call_delivers_or_fails ev scope s source hallows with ⟨piece, v, _, hpart, hok, h⟩ | ⟨_, _, herror⟩
    · cases hok.symm.trans hdone
      exact ⟨v, piece, rfl, hpart.1, h⟩
    · cases herror.symm.trans hdone
  unchanged {c} hallows {e s'} hfailed := by
    rcases c.call_delivers_or_fails ev scope s source hallows with ⟨_, _, _, _, hok, _⟩ | ⟨_, _, herror⟩
    · cases hok.symm.trans hfailed
    · cases herror.symm.trans hfailed
      rfl

/-- Two strings, and an output port on nothing written yet. -/
def partStore : Store :=
  { exampleStore with
    buffers := #["abcd", "...."]
    streams := #[.sink []]
    ports := #[⟨"string", 0, false, false, false⟩] }

/-- The middle of a string, as a new one, in another one and on a port. -/
theorem string_parts_agree_middle :
    ∀ c ∈ [PartTaker.substring, .copy, .copyInto 1, .writeString 0],
      c.Allows [.int 1, .int 3] ∧ c.HasPlace partStore "bc" ∧
        ∃ v s', c.call exampleEvaluator rootScope 0 [.int 1, .int 3] partStore = .ok (.value v) s' ∧
          c.Delivers partStore "bc" v s' := by
  intro c hc
  have hallows : c.Allows [.int 1, .int 3] := ⟨by decide, fun _ => nofun⟩
  have hplace : c.HasPlace partStore "bc" := by
    simp only [List.mem_cons, List.not_mem_nil, or_false] at hc
    rcases hc with rfl | rfl | rfl | rfl
    · trivial
    · trivial
    · show 2 ≤ 4
      decide
    · exact ⟨_, rfl, rfl, rfl, .sink []⟩
  have hagree := string_parts_agree exampleEvaluator rootScope partStore 0 [.int 1, .int 3]
  obtain ⟨_, s', hok⟩ := (hagree.succeeds_iff hallows).mpr ⟨"bc", rfl, hplace⟩
  obtain ⟨v, piece, rfl, hpiece, hdelivers⟩ := hagree.delivers hallows hok
  obtain rfl : text "bc" = piece := Option.some.inj hpiece
  exact ⟨hallows, hplace, v, s', hok, hdelivers⟩

/-- A string of one surrogate, and an output port on a new file. -/
def surrogateStore : Store :=
  { exampleStore with
    buffers := #[[CodePoint.ofNat 0xD800]]
    streams := #[.fileSink [] 0 [] []]
    ports := #[⟨"f", 0, false, true, false⟩] }

/-- Not every open port takes every part that there is. -/
theorem not_every_port_takes_parts : ¬∀ ev scope s source bounds id p, s.ports[id]? = some p → p.isInput = false →
    p.isClosed = false → s.streamOf p ≠ .closed → PartTaker.copy.Allows bounds →
    ((PartTaker.copy.call ev scope source bounds).Succeeds s ↔
      ((PartTaker.writeString id).call ev scope source bounds).Succeeds s) := by
  intro h
  have hcopied : (PartTaker.copy.call exampleEvaluator rootScope 0 []).Succeeds surrogateStore := ⟨_, _, rfl⟩
  obtain ⟨_, _, hwritten⟩ := (h exampleEvaluator rootScope surrogateStore 0 [] 0 _ rfl rfl rfl nofun
    ⟨by decide, nofun⟩).mp hcopied
  cases hwritten

end Lisplet
