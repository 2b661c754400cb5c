import Lisplet.Proofs.Faults

/-!
# Strings as shared buffers

A string value names a buffer. `string-set!`, `string-fill!` and `string-copy!` check everything they are given
before they write: then they overwrite cells of one buffer in place, or else they are refused and nothing has
changed. What is copied is what the cells held before, be they cells of the same buffer. Every procedure that
gives a string of its own makes a buffer that no other value names.
-/

namespace Lisplet

open Lisplet.Action

/-! ### Cells of a text -/

namespace StringOp

theorem length_slice {t : Text} {start finish : Nat} (h : finish ≤ t.length) :
    (slice t start finish).length = finish - start := by
  simp only [slice, List.length_drop, List.length_take, Nat.min_eq_left h]

theorem getElem?_splice_piece {t piece : Text} {start i : Nat} (h : start + piece.length ≤ t.length)
    (hi : i < piece.length) : (splice t start piece)[start + i]? = piece[i]? := by
  have hfront : (t.take start).length = start := List.length_take_of_le (by omega)
  rw [splice, List.append_assoc, List.getElem?_append_right (by omega), hfront, Nat.add_sub_cancel_left,
    List.getElem?_append_left hi]

theorem getElem?_splice_other {t piece : Text} {start i : Nat} (h : start + piece.length ≤ t.length)
    (hi : i < start ∨ start + piece.length ≤ i) : (splice t start piece)[i]? = t[i]? := by
  have hfront : (t.take start).length = start := List.length_take_of_le (by omega)
  rcases hi with hbefore | hbehind
  · rw [splice, List.append_assoc, List.getElem?_append_left (by omega), List.getElem?_take_of_lt hbefore]
  · rw [splice, List.append_assoc, List.getElem?_append_right (by omega),
      List.getElem?_append_right (by omega), hfront, List.getElem?_drop]
    congr 1
    omega

/-- Filling a text is overwriting all of it. -/
theorem map_eq_splice (t : Text) (c : CodePoint) :
    (t.map fun _ => c) = splice t 0 (List.replicate t.length c) := by
  simp [splice]

end StringOp

/-! ### Overwriting a buffer -/

/-- Cells of one buffer hold a piece from a place on, and nothing else is different. -/
structure Store.Overwrites (s : Store) (target : BufferId) (start : Nat) (piece : Text) (s' : Store) : Prop where
  fits : start + piece.length ≤ (s.content target).length
  only : s' = { s with buffers := s'.buffers }
  size : s'.buffers.size = s.buffers.size
  others {b : BufferId} (hne : b ≠ target) : s'.content b = s.content b
  length : (s'.content target).length = (s.content target).length
  written {i : Nat} (hi : i < piece.length) : (s'.content target)[start + i]? = piece[i]?
  kept {i : Nat} (hi : i < start ∨ start + piece.length ≤ i) : (s'.content target)[i]? = (s.content target)[i]?

/-- The store in which a buffer has this content. -/
def Store.withContent (s : Store) (target : BufferId) (t : Text) : Store :=
  { s with buffers := s.buffers.set! target t }

theorem Store.overwrites_splice {s : Store} {target : BufferId} {start : Nat} {piece : Text}
    (h : start + piece.length ≤ (s.content target).length) :
    s.Overwrites target start piece (s.withContent target (StringOp.splice (s.content target) start piece)) := by
  have hcontent : (s.withContent target (StringOp.splice (s.content target) start piece)).content target =
      StringOp.splice (s.content target) start piece := by
    by_cases hlt : target < s.buffers.size
    · simp [withContent, content, hlt]
    · -- A buffer that does not exist is empty, so the piece is.
      have hempty : s.content target = [] := by simp [content, hlt]
      rw [hempty, List.length_nil, Nat.le_zero, Nat.add_eq_zero_iff] at h
      rw [List.eq_nil_of_length_eq_zero h.2, hempty, h.1]
      simp [withContent, content, hlt, StringOp.splice]
  refine ⟨h, rfl, by simp [withContent], fun hne => ?_, ?_, fun hi => ?_, fun hi => ?_⟩
  · simp [withContent, content, Ne.symm hne]
  · rw [hcontent, StringOp.length_splice h]
  · rw [hcontent, StringOp.getElem?_splice_piece h hi]
  · rw [hcontent, StringOp.getElem?_splice_other h hi]

/-- What a buffer holds after it has been overwritten. -/
theorem Store.Overwrites.content_eq {s s' : Store} {target : BufferId} {start : Nat} {piece : Text}
    (h : s.Overwrites target start piece s') :
    s'.content target = StringOp.splice (s.content target) start piece := by
  refine List.ext_getElem? fun i => ?_
  by_cases hi : i < start ∨ start + piece.length ≤ i
  · rw [h.kept hi, StringOp.getElem?_splice_other h.fits hi]
  · obtain ⟨j, rfl⟩ : ∃ j, i = start + j := ⟨i - start, by omega⟩
    have hj : j < piece.length := by omega
    rw [h.written hj, StringOp.getElem?_splice_piece h.fits hj]

/-! ### Checks before writing -/

namespace StringOp

/-- The index that an argument gives. -/
def index? (limit : Int) (v : Value) : Option Nat :=
  v.integer?.bind fun k => if 0 ≤ k ∧ k ≤ limit then some k.toNat else none

/-- The range that optional arguments select. -/
def range? (size : Nat) (args : List Value) : Option (Nat × Nat) :=
  (match args with
    | a :: _ => index? size a
    | [] => some 0).bind fun start =>
  (match args with
    | _ :: b :: _ => index? size b
    | _ => some size).bind fun finish =>
  if finish < start then none else some (start, finish)

theorem index?_eq_some_iff {limit : Int} {v : Value} {k : Nat} :
    index? limit v = some k ↔ v = .int k ∧ (k : Int) ≤ limit := by
  rw [index?, Option.bind_eq_some_iff]
  constructor
  · rintro ⟨n, hn, h⟩
    obtain ⟨⟨hpos, hle⟩, heq⟩ := Option.ite_none_right_eq_some.mp h
    obtain rfl : n = k := by rw [← Option.some.inj heq, Int.toNat_of_nonneg hpos]
    exact ⟨Value.integer?_eq_some_iff.mp hn, hle⟩
  · rintro ⟨rfl, hle⟩
    exact ⟨k, rfl, by rw [if_pos ⟨Int.natCast_nonneg k, hle⟩, Int.toNat_natCast]⟩

section

variable (who : Text) (s : Store)

theorem index_finds (limit : Int) (v : Value) : (index who limit v).Finds s (index? limit v) := by
  refine (asInteger_finds _ v s).bind _ fun k _ => ?_
  split
  · exact .pure _ s
  · exact evaluationError_finds s _

theorem range_finds (size : Nat) (args : List Value) : (range who size args).Finds s (range? size args) := by
  have hrange : ∀ start finish : Nat, (if finish < start then
      evaluationError (.startAfterEnd start finish who) else pure (start, finish) : Action (Nat × Nat)).Finds s
      (if finish < start then none else some (start, finish)) := by
    intro start finish
    split
    · exact evaluationError_finds s _
    · exact .pure _ s
  match args with
  | [] => exact hrange 0 size
  | [a] => exact (index_finds who s size a).bind _ fun start _ => hrange start size
  | a :: b :: _ =>
    exact (index_finds who s size a).bind _ fun start _ => (index_finds who s size b).bind _ fun finish _ =>
      hrange start finish

end

/-! ### Procedures that write -/

/-- The procedures that change a string. -/
inductive StringMutator where
  | set
  | fill
  | copyInto

namespace StringMutator

def op : StringMutator → StringOp
  | .set => .set
  | .fill => .fill
  | .copyInto => .copyInto

/-- Calls the procedure. -/
def run (m : StringMutator) (args : List Value) : Action Value := m.op.run args

/-- The buffer that a call writes to, and what it will hold. -/
def rewriting? (s : Store) : StringMutator → List Value → Option (BufferId × Text)
  | .set, [v, k, c] =>
    v.buffer?.bind fun b => (index? ((s.content b).length - 1) k).bind fun k => c.char?.bind fun c =>
      some (b, splice (s.content b) k [c])
  | .fill, [v, c] =>
    v.buffer?.bind fun b => c.char?.bind fun c => some (b, (s.content b).map fun _ => c)
  | .copyInto, target :: position :: source :: bounds =>
    target.buffer?.bind fun b => (index? (s.content b).length position).bind fun k =>
    (source.buffer?.map s.content).bind fun t => (range? t.length bounds).bind fun part =>
      if (s.content b).length < k + (part.2 - part.1) then none
      else some (b, splice (s.content b) k (slice t part.1 part.2))
  | _, _ => none

/-- The range that optional bounds select in a text of this size. -/
inductive Selects (size : Nat) : List Value → Nat → Nat → Prop
  | all : Selects size [] 0 size
  | rest {start : Nat} (h : start ≤ size) : Selects size [.int start] start size
  | range {start finish : Nat} (more : List Value) (h : start ≤ finish) (hsize : finish ≤ size) :
      Selects size (.int start :: .int finish :: more) start finish

/-- A call is given what it asks for, and this is the piece that it writes to a buffer from a place on. -/
inductive Writes (s : Store) : StringMutator → List Value → BufferId → Nat → Text → Prop
  /-- One cell of the string gets the character. -/
  | set {b : BufferId} {k : Nat} {c : CodePoint} (h : k < (s.content b).length) :
      Writes s .set [.str b, .int k, .char c] b k [c]
  /-- All cells get the character. -/
  | fill (b : BufferId) (c : CodePoint) :
      Writes s .fill [.str b, .char c] b 0 (List.replicate (s.content b).length c)
  /-- As many cells as are selected get what the selected cells hold, be the strings one or two. -/
  | copyInto {b source : BufferId} {k start finish : Nat} {bounds : List Value}
      (hbounds : Selects (s.content source).length bounds start finish)
      (hfits : k + (finish - start) ≤ (s.content b).length) :
      Writes s .copyInto (.str b :: .int k :: .str source :: bounds) b k
        (slice (s.content source) start finish)

variable {s : Store} {m : StringMutator} {args : List Value} {b : BufferId} {start finish : Nat} {piece t : Text}

theorem Selects.le {size : Nat} (h : Selects size args start finish) : start ≤ finish ∧ finish ≤ size := by
  cases h with
  | all => exact ⟨Nat.zero_le _, Nat.le_refl _⟩
  | rest h => exact ⟨h, Nat.le_refl _⟩
  | range _ h hsize => exact ⟨h, hsize⟩

theorem selects_of_range? {size : Nat} (h : range? size args = some (start, finish)) :
    Selects size args start finish := by
  obtain ⟨start', hstart, h⟩ := Option.bind_eq_some_iff.mp h
  obtain ⟨finish', hfinish, h⟩ := Option.bind_eq_some_iff.mp h
  obtain ⟨hle, heq⟩ := Option.ite_none_left_eq_some.mp h
  cases heq
  match args with
  | [] =>
    cases hstart
    cases hfinish
    exact .all
  | [_] =>
    obtain ⟨rfl, hsize⟩ := index?_eq_some_iff.mp hstart
    cases hfinish
    exact .rest (Int.ofNat_le.mp hsize)
  | _ :: _ :: more =>
    obtain ⟨rfl, -⟩ := index?_eq_some_iff.mp hstart
    obtain ⟨rfl, hsize⟩ := index?_eq_some_iff.mp hfinish
    exact .range more (Nat.not_lt.mp hle) (Int.ofNat_le.mp hsize)

theorem Selects.range?_eq {size : Nat} (h : Selects size args start finish) :
    range? size args = some (start, finish) := by
  have hindex : ∀ {k : Nat}, k ≤ size → index? size (.int k) = some k :=
    fun hk => index?_eq_some_iff.mpr ⟨rfl, Int.ofNat_le.mpr hk⟩
  cases h with
  | all => simp [range?]
  | rest h => simp [range?, hindex h, h]
  | range more h hsize => simp [range?, hindex hsize, hindex (Nat.le_trans h hsize), h]

/-- A piece fits into the buffer that it is written to. -/
theorem Writes.fits (h : m.Writes s args b start piece) : start + piece.length ≤ (s.content b).length := by
  cases h with
  | set h => exact h
  | fill => simp
  | copyInto hbounds hfits => rwa [length_slice hbounds.le.2]

/-- What is found for a call is what it is to write. -/
theorem exists_writes_of_rewriting? (h : m.rewriting? s args = some (b, t)) :
    ∃ start piece, m.Writes s args b start piece ∧ t = splice (s.content b) start piece := by
  unfold rewriting? at h
  split at h
  next v k c =>
    obtain ⟨b', hb, h⟩ := Option.bind_eq_some_iff.mp h
    obtain ⟨k', hk, h⟩ := Option.bind_eq_some_iff.mp h
    obtain ⟨c', hc, h⟩ := Option.bind_eq_some_iff.mp h
    cases h
    obtain rfl := Value.buffer?_eq_some_iff.mp hb
    obtain rfl := Value.char?_eq_some_iff.mp hc
    obtain ⟨rfl, hle⟩ := index?_eq_some_iff.mp hk
    exact ⟨k', [c'], .set (by omega), rfl⟩
  next v c =>
    obtain ⟨b', hb, h⟩ := Option.bind_eq_some_iff.mp h
    obtain ⟨c', hc, h⟩ := Option.bind_eq_some_iff.mp h
    cases h
    obtain rfl := Value.buffer?_eq_some_iff.mp hb
    obtain rfl := Value.char?_eq_some_iff.mp hc
    exact ⟨0, _, .fill b c', map_eq_splice _ c'⟩
  next target position source bounds =>
    obtain ⟨b', hb, h⟩ := Option.bind_eq_some_iff.mp h
    obtain ⟨k, hk, h⟩ := Option.bind_eq_some_iff.mp h
    obtain ⟨t', ht, h⟩ := Option.bind_eq_some_iff.mp h
    obtain ⟨⟨start, finish⟩, hbounds, h⟩ := Option.bind_eq_some_iff.mp h
    obtain ⟨hfits, heq⟩ := Option.ite_none_left_eq_some.mp h
    cases heq
    obtain ⟨source', hsource, rfl⟩ := Option.map_eq_some_iff.mp ht
    obtain rfl := Value.buffer?_eq_some_iff.mp hb
    obtain rfl := Value.buffer?_eq_some_iff.mp hsource
    obtain ⟨rfl, -⟩ := index?_eq_some_iff.mp hk
    exact ⟨k, _, .copyInto (selects_of_range? hbounds) (Nat.not_lt.mp hfits), rfl⟩
  next => cases h

theorem Writes.rewriting?_eq (h : m.Writes s args b start piece) :
    m.rewriting? s args = some (b, splice (s.content b) start piece) := by
  cases h with
  | set h =>
    have hk := index?_eq_some_iff.mpr ⟨rfl, Int.le_sub_one_of_lt (Int.ofNat_lt.mpr h)⟩
    simp [rewriting?, Value.buffer?, Value.char?, hk]
  | fill b c =>
    rw [← map_eq_splice]
    rfl
  | copyInto hbounds hfits =>
    have hk := index?_eq_some_iff.mpr ⟨rfl, Int.ofNat_le.mpr (Nat.le_of_add_right_le hfits)⟩
    simp [rewriting?, Value.buffer?, hk, hbounds.range?_eq, Nat.not_lt.mpr hfits]

/-- A call writes what is found for it; if nothing is found, it fails, and nothing has changed. -/
def WritesFound (m : StringMutator) (args : List Value) (s : Store) : Prop :=
  (∃ b t, m.rewriting? s args = some (b, t) ∧ m.run args s = .ok .void (s.withContent b t)) ∨
  m.rewriting? s args = none ∧ ∃ e, m.run args s = .error e s

/-- A call that checks first and then writes. -/
theorem WritesFound.of_finds {check : Action (BufferId × Text)} (h : check.Finds s (m.rewriting? s args))
    (hrun : m.run args s = (check >>= fun p => do setContent p.1 p.2; pure .void) s) :
    m.WritesFound args s := by
  rw [WritesFound, hrun]
  cases hfound : m.rewriting? s args with
  | none =>
    rw [hfound] at h
    cases h with
    | refused h _ => exact .inr ⟨rfl, _, bind_of_error h⟩
  | some p =>
    rw [hfound] at h
    exact .inl ⟨p.1, p.2, rfl, bind_of_ok (h.ok_iff.mpr ⟨rfl, rfl⟩)⟩

theorem content_bind {α : Type} {b : BufferId} {next : Text → Action α} {found : Option α}
    (h : (next (s.content b)).Finds s found) : (content b >>= next).Finds s found := h.congr (bind_of_ok rfl)

section

variable (s)

theorem set_writesFound (v k c : Value) : set.WritesFound [v, k, c] s := by
  have hcheck : (do
      let b ← asString (some StringOp.set.name) v
      let t ← content b
      let k ← index StringOp.set.name ((t.length : Int) - 1) k
      let c ← asChar (some StringOp.set.name) c
      pure (b, splice t k [c]) : Action (BufferId × Text)).Finds s (rewriting? s .set [v, k, c]) :=
    (asString_finds _ v s).bind _ fun b _ => content_bind <|
      (index_finds _ s _ k).bind _ fun k _ => (asChar_finds _ c s).bind _ fun c _ => .pure _ s
  refine .of_finds hcheck ?_
  show setPlace StringOp.set.name v k c s = _
  simp only [setPlace, bind_assoc, pure_bind]

theorem fill_writesFound (v c : Value) : fill.WritesFound [v, c] s := by
  have hcheck : (do
      let b ← asString (some StringOp.fill.name) v
      let c ← asChar (some StringOp.fill.name) c
      let t ← content b
      pure (b, t.map fun _ => c) : Action (BufferId × Text)).Finds s (rewriting? s .fill [v, c]) :=
    (asString_finds _ v s).bind _ fun b _ => (asChar_finds _ c s).bind _ fun c _ => content_bind (.pure _ s)
  refine .of_finds hcheck ?_
  simp only [bind_assoc, pure_bind]
  rfl

theorem copyInto_writesFound (target position source : Value) (bounds : List Value) :
    copyInto.WritesFound (target :: position :: source :: bounds) s := by
  -- The checks alone, without the write behind them, in the order in which they are made.
  have hcheck : (do
      let b ← asString (some StringOp.copyInto.name) target
      let old ← content b
      let k ← index StringOp.copyInto.name old.length position
      let t ← asText (some StringOp.copyInto.name) source
      let part ← range StringOp.copyInto.name t.length bounds
      if old.length < k + (part.2 - part.1) then
        evaluationError (.copyDoesNotFit (part.2 - part.1) k)
      else pure (b, splice old k (slice t part.1 part.2)) : Action (BufferId × Text)).Finds s
        (rewriting? s .copyInto (target :: position :: source :: bounds)) := by
    refine (asString_finds _ target s).bind _ fun b _ => content_bind <|
      (index_finds _ s _ position).bind _ fun k _ => (asText_finds _ source s).bind _ fun t _ =>
      (range_finds _ s t.length bounds).bind _ fun part _ => ?_
    split
    · exact evaluationError_finds s _
    · exact .pure _ s
  refine .of_finds hcheck ?_
  show copyPart StringOp.copyInto.name target position source bounds s = _
  -- Both sides check the same in turn, and only then do they choose.
  simp only [copyPart, bind_assoc]
  refine congrFun (bind_congr fun b => bind_congr fun old => bind_congr fun k => bind_congr fun t =>
    bind_congr fun part => ?_) s
  split <;> rfl

end

/-- Given other numbers of arguments than they take, the procedures fail as well. -/
theorem writesFound (m : StringMutator) (args : List Value) (s : Store) : m.WritesFound args s := by
  cases m with
  | set =>
    rcases args with _ | ⟨v, _ | ⟨k, _ | ⟨c, _ | ⟨_, _⟩⟩⟩⟩
    case cons.cons.cons.nil => exact set_writesFound s v k c
    all_goals exact .inr ⟨rfl, _, rfl⟩
  | fill =>
    rcases args with _ | ⟨v, _ | ⟨c, _ | ⟨_, _⟩⟩⟩
    case cons.cons.nil => exact fill_writesFound s v c
    all_goals exact .inr ⟨rfl, _, rfl⟩
  | copyInto =>
    rcases args with _ | ⟨target, _ | ⟨position, _ | ⟨source, bounds⟩⟩⟩
    case cons.cons.cons => exact copyInto_writesFound s target position source bounds
    all_goals exact .inr ⟨rfl, _, rfl⟩

theorem run_of_writes (h : m.Writes s args b start piece) :
    ∃ s', m.run args s = .ok .void s' ∧ s.Overwrites b start piece s' := by
  rcases m.writesFound args s with ⟨_, _, hfound, hrun⟩ | ⟨hfound, _⟩
  · cases hfound.symm.trans h.rewriting?_eq
    exact ⟨_, hrun, Store.overwrites_splice h.fits⟩
  · cases hfound.symm.trans h.rewriting?_eq

/-- A call writes what its arguments say, or else it fails and has written nothing. -/
theorem run_writes_or_fails (m : StringMutator) (args : List Value) (s : Store) :
    (∃ b start piece s', m.Writes s args b start piece ∧ m.run args s = .ok .void s' ∧
      s.Overwrites b start piece s') ∨
    (¬∃ b start piece, m.Writes s args b start piece) ∧ ∃ e, m.run args s = .error e s := by
  rcases m.writesFound args s with ⟨b, t, hfound, hrun⟩ | ⟨hfound, hrun⟩
  · obtain ⟨start, piece, hwrites, rfl⟩ := exists_writes_of_rewriting? hfound
    exact .inl ⟨b, start, piece, _, hwrites, hrun, Store.overwrites_splice hwrites.fits⟩
  · refine .inr ⟨?_, hrun⟩
    rintro ⟨b, start, piece, hwrites⟩
    cases hfound.symm.trans hwrites.rewriting?_eq

theorem run_succeeds_iff : (m.run args).Succeeds s ↔ ∃ b start piece, m.Writes s args b start piece := by
  rcases run_writes_or_fails m args s with ⟨b, start, piece, s', hwrites, hrun, _⟩ | ⟨hnot, e, hrun⟩
  · exact ⟨fun _ => ⟨b, start, piece, hwrites⟩, fun _ => ⟨_, _, hrun⟩⟩
  · exact ⟨fun ⟨_, _, hok⟩ => (nomatch hrun.symm.trans hok), fun hwrites => absurd hwrites hnot⟩

theorem set_succeeds_iff {k : Int} {c : CodePoint} :
    (set.run [.str b, .int k, .char c]).Succeeds s ↔ 0 ≤ k ∧ k < (s.content b).length := by
  rw [run_succeeds_iff]
  constructor
  · rintro ⟨_, _, _, hwrites⟩
    cases hwrites with
    | set h => exact ⟨Int.natCast_nonneg _, Int.ofNat_lt.mpr h⟩
  · rintro ⟨hpos, hlt⟩
    lift k to Nat using hpos
    exact ⟨b, k, [c], .set (Int.ofNat_lt.mp hlt)⟩

/-- Copying succeeds when the place, the range and the cells that are overwritten are within the strings. -/
theorem copyInto_succeeds_iff {source : BufferId} {k start finish : Int} :
    (copyInto.run [.str b, .int k, .str source, .int start, .int finish]).Succeeds s ↔
      (0 ≤ k ∧ k ≤ (s.content b).length) ∧
      (0 ≤ start ∧ start ≤ finish ∧ finish ≤ (s.content source).length) ∧
      k + (finish - start) ≤ (s.content b).length := by
  rw [run_succeeds_iff]
  constructor
  · rintro ⟨_, _, _, hwrites⟩
    cases hwrites with
    | copyInto hbounds hfits =>
      cases hbounds with
      | range _ h hsize => omega
  · rintro ⟨⟨hk, _⟩, ⟨hstart, hle, hsize⟩, hfits⟩
    lift k to Nat using hk
    lift finish to Nat using Int.le_trans hstart hle
    lift start to Nat using hstart
    exact ⟨b, k, _, .copyInto (.range [] (Int.ofNat_le.mp hle) (Int.ofNat_le.mp hsize)) (by omega)⟩

/-- The cells that are overwritten hold what the cells that were copied held before. -/
theorem copyInto_cells {source : BufferId} {k start finish : Nat} {v : Value} {s' : Store}
    (h : copyInto.run [.str b, .int k, .str source, .int start, .int finish] s = .ok v s') {i : Nat}
    (hi : i < finish - start) : (s'.content b)[k + i]? = (s.content source)[start + i]? := by
  rcases run_writes_or_fails copyInto _ s with ⟨_, _, _, _, hwrites, hrun, hdone⟩ | ⟨_, e, hrun⟩
  · cases hrun.symm.trans h
    cases hwrites with
    | copyInto hbounds hfits =>
      cases hbounds with
      | range _ hle hsize =>
        rw [hdone.written (by rwa [length_slice hsize]), slice, List.getElem?_drop,
          List.getElem?_take_of_lt (by omega)]
  · cases hrun.symm.trans h

/-- Copying within one string, the ranges overlapping. -/
example : (copyInto.run [.str 0, .int 1, .str 0, .int 0, .int 3]).after { s with buffers := #[text "abcde"] } =
    { s with buffers := #[text "aabce"] } := rfl

end StringMutator

end StringOp

end Lisplet
