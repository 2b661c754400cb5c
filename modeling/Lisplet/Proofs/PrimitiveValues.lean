import Lisplet.Proofs.References

/-!
# What primitive procedures do and give

Primitive procedures that make no call let a store drift: they leave scopes, closures and the count of fresh
symbols alone, and whatever else they change, they only make changes that a store may undergo. Their values are
plain, or put together from the arguments: items, tails and rows of these, or the argument that was chosen.
-/

namespace Lisplet

open Lisplet.Action

namespace Value

@[grind ←] theorem isPlain_int (n : Int) : (Value.int n).IsPlain := trivial

@[grind ←] theorem isPlain_float (x : Float) (id : ObjectId) : (Value.atom (.float x id)).IsPlain := trivial

@[grind ←] theorem isPlain_bool (b : Bool) : (Value.bool b).IsPlain := trivial

@[grind ←] theorem isPlain_char (c : CodePoint) : (Value.char c).IsPlain := trivial

@[grind ←] theorem isPlain_sym (name : Text) : (Value.sym name).IsPlain := trivial

@[grind ←] theorem isPlain_void : Value.void.IsPlain := trivial

@[grind ←] theorem isPlain_nil : Value.nil.IsPlain := trivial

end Value

/-! ### Drifting stores -/

/-- A store has undergone changes that leave scopes, closures and the count of fresh symbols as they are and give
up no port. -/
structure Store.Drifts (s s' : Store) : Prop where
  evolves : s.Evolves s'
  scopes : s'.scopes = s.scopes
  closures : s'.closures = s.closures
  ports : s.ports.size ≤ s'.ports.size
  fresh : s'.nextFresh = s.nextFresh

theorem Store.Drifts.refl (s : Store) : s.Drifts s := ⟨.refl s, rfl, rfl, Nat.le_refl _, rfl⟩

theorem Store.Drifts.trans {s s' s'' : Store} (h : s.Drifts s') (h' : s'.Drifts s'') : s.Drifts s'' :=
  ⟨h.evolves.trans h'.evolves, h'.scopes.trans h.scopes, h'.closures.trans h.closures,
    Nat.le_trans h.ports h'.ports, h'.fresh.trans h.fresh⟩

/-- Closing a port only touches ports, streams and files. -/
theorem Store.closePort_drifts (s : Store) (id : PortId) : s.Drifts (s.closePort id) := by
  have hchange : s.Change (s.closePort id) := .closing id
  rcases s.closePort_cases id with h | ⟨p, -, streams, files, h⟩
  · rw [h]
    exact .refl s
  · rw [h] at hchange ⊢
    exact ⟨.change hchange, rfl, rfl, Nat.le_of_eq Array.size_setIfInBounds.symm, rfl⟩

namespace Action

variable {α β : Type}

/-- From a store on an action lets the store drift, and its value is good. -/
def DriftsFrom (act : Action α) (s : Store) (good : α → Prop) : Prop :=
  s.Drifts (act.after s) ∧ ∀ a s', act s = .ok a s' → good a

/-- From every store on an action lets the store drift, and its value is good. -/
def Drifts (act : Action α) (good : α → Prop) : Prop := ∀ s, act.DriftsFrom s good

namespace DriftsFrom

variable {act : Action α} {s : Store} {good : α → Prop} {good' : β → Prop}

theorem pure {a : α} (h : good a) : (Pure.pure a : Action α).DriftsFrom s good := by
  refine ⟨.refl s, fun b s' hb => ?_⟩
  cases hb
  exact h

theorem throw (e : Signal) : (MonadExcept.throw e : Action α).DriftsFrom s good :=
  ⟨.refl s, fun b s' hb => by cases hb⟩

theorem bind {next : α → Action β} (h : act.DriftsFrom s good)
    (hnext : ∀ a s', good a → (next a).DriftsFrom s' good') : (act >>= next).DriftsFrom s good' := by
  obtain ⟨hdrifts, hgood⟩ := h
  cases hact : act s with
  | ok a s' =>
    rw [after_of_ok hact] at hdrifts
    obtain ⟨hdrifts', hgood'⟩ := hnext a s' (hgood a s' hact)
    have hafter : (act >>= next).after s = (next a).after s' := by
      rw [after, after, bind_of_ok hact]
    rw [DriftsFrom, hafter, bind_of_ok hact]
    exact ⟨hdrifts.trans hdrifts', hgood'⟩
  | error e s' =>
    rw [after_of_error hact] at hdrifts
    rw [DriftsFrom, after_of_error (bind_of_error hact), bind_of_error hact]
    exact ⟨hdrifts, fun b s'' hb => by cases hb⟩

/-- What follows an action that leaves the store alone. -/
theorem look_bind {next : α → Action β} (hact : act.Looks)
    (h : ∀ a, act s = .ok a s → (next a).DriftsFrom s good') : (act >>= next).DriftsFrom s good' := by
  cases ha : act s with
  | ok a s' =>
    obtain rfl := hact.eq_of_ok ha
    rw [DriftsFrom, after, bind_of_ok ha]
    exact h a ha
  | error e s' =>
    obtain rfl : s' = s := (after_of_error ha).symm.trans (hact s)
    rw [DriftsFrom, after_of_error (bind_of_error ha), bind_of_error ha]
    exact ⟨.refl s', fun b s'' hb => by cases hb⟩

/-- A change that gives a value. -/
theorem modifyGet {change : Store → α × Store} (h : s.Drifts (change s).2) (hgood : good (change s).1) :
    (MonadStateOf.modifyGet change : Action α).DriftsFrom s good := by
  refine ⟨h, fun a s' ha => ?_⟩
  cases ha
  exact hgood

end DriftsFrom

namespace Drifts

variable {act : Action α} {good : α → Prop} {good' : β → Prop}

theorem pure {a : α} (h : good a) : (Pure.pure a : Action α).Drifts good := fun _ => .pure h

theorem throw (e : Signal) : (MonadExcept.throw e : Action α).Drifts good := fun _ => .throw e

theorem imp {good' : α → Prop} (h : act.Drifts good) (himp : ∀ a, good a → good' a) : act.Drifts good' :=
  fun s => ⟨(h s).1, fun a s' ha => himp a ((h s).2 a s' ha)⟩

theorem bind_of {next : α → Action β} (h : act.Drifts good) (hnext : ∀ a, good a → (next a).Drifts good') :
    (act >>= next).Drifts good' := fun s => (h s).bind fun a s' ha => hnext a ha s'

theorem bind {next : α → Action β} (h : act.Drifts fun _ => True) (hnext : ∀ a, (next a).Drifts good') :
    (act >>= next).Drifts good' := h.bind_of fun a _ => hnext a

theorem modifyGet {change : Store → α × Store} (h : ∀ s : Store, s.Drifts (change s).2)
    (hgood : ∀ s, good (change s).1) : (MonadStateOf.modifyGet change : Action α).Drifts good :=
  fun s => .modifyGet (h s) (hgood s)

/-- What is plain is put together from anything. -/
theorem isMadeOf {act : Action Value} (h : act.Drifts Value.IsPlain) (parts : List Value) :
    act.Drifts fun v => v.IsMadeOf parts :=
  h.imp fun _ hv => hv.isMadeOf parts

end Drifts

theorem Looks.drifts {act : Action α} (h : act.Looks) : act.Drifts fun _ => True := by
  intro s
  rw [DriftsFrom, h s]
  exact ⟨.refl s, fun _ _ _ => trivial⟩

attribute [grind ←] Drifts.pure Drifts.throw Drifts.bind Looks.drifts

/-! ### Operations on the store -/

variable {good : α → Prop}

@[grind ←] theorem fault_drifts (f : Fault) : (fault f : Action α).Drifts good := .throw _

@[grind ←] theorem typeError_drifts (e : TypeError) (v : Value) : (typeError e v : Action α).Drifts good :=
  .throw _

@[grind ←] theorem evaluationError_drifts (e : EvaluationError) : (evaluationError e : Action α).Drifts good :=
  .throw _

@[grind ←] theorem freshObject_drifts : freshObject.Drifts fun _ => True :=
  .modifyGet (fun _ => ⟨.change .object, rfl, rfl, Nat.le_refl _, rfl⟩) fun _ => trivial

@[grind ←] theorem newFloat_drifts (x : Float) : (newFloat x).Drifts Value.IsPlain := by
  grind [newFloat]

@[grind ←] theorem newString_drifts (t : Text) : (newString t).Drifts Value.IsPlain :=
  .modifyGet (fun _ => ⟨.change (.string t), rfl, rfl, Nat.le_refl _, rfl⟩) fun _ => trivial

/-- A string may be overwritten by one of the same length. -/
theorem setContent_driftsFrom {s : Store} (buffer : BufferId) {t : Text}
    (h : t.length = (s.content buffer).length) : (setContent buffer t).DriftsFrom s fun _ => True :=
  .modifyGet ⟨.change (.content buffer t h), rfl, rfl, Nat.le_refl _, rfl⟩ trivial

@[grind ←] theorem newStream_drifts (stream : Stream) : (newStream stream).Drifts fun _ => True :=
  .modifyGet (fun _ => ⟨.change (.newStream stream), rfl, rfl, Nat.le_refl _, rfl⟩) fun _ => trivial

/-- Data refer to nothing. -/
@[grind ←] theorem instantiate_drifts (d : Datum) : (instantiate d).Drifts Value.IsPlain := by
  induction d with
  | pair head tail ihead itail =>
    rw [instantiate]
    refine ihead.bind_of fun h hh => itail.bind_of fun t ht => .bind (by grind) fun id => .pure ?_
    exact Value.everywhere_cons_iff.mpr ⟨hh, ht⟩
  | _ => grind [instantiate]

theorem newList_drifts {vs : List Value} {good : Value → Prop} (h : ∀ id, good (.ofList id vs)) :
    (newList vs).Drifts good := by
  rw [newList]
  exact .bind (by grind) fun id => .pure (h id)

end Action

namespace Port

@[grind ←] theorem write_drifts (p : Port) (t : Text) : (p.write t).Drifts fun _ => True := by
  refine .bind (by grind) fun _ => .bind (.modifyGet (fun s => ?_) fun _ => trivial) fun outcome => ?_
  · split
    · exact ⟨.change (.stream _ _ _), rfl, rfl, Nat.le_refl _, rfl⟩
    · exact .refl s
  · split <;> grind

@[grind ←] theorem readBy_drifts (p : Port) (operation : FileTree → Stream → Stream.ReadResult) :
    (p.readBy operation).Drifts fun _ => True := by
  refine .bind (.modifyGet (fun s => ?_) fun _ => trivial) fun outcome => ?_
  · exact ⟨.change (.stream _ _ s.files), rfl, rfl, Nat.le_refl _, rfl⟩
  · split <;> grind

@[grind ←] theorem readLine_drifts (p : Port) : p.readLine.Drifts fun _ => True := by
  grind [readLine]

@[grind ←] theorem read_drifts (p : Port) (count : Nat) : (p.read count).Drifts fun _ => True := by
  grind [read]

@[grind ←] theorem readRest_drifts (p : Port) : p.readRest.Drifts fun _ => True := by
  grind [readRest]

end Port

/-! ### Numbers and tests -/

namespace Primitive

@[grind ←] theorem ofNumber_drifts (n : Number) : (ofNumber n).Drifts Value.IsPlain := by
  cases n <;> grind [ofNumber]

@[grind ←] theorem arithmetic_looks {α : Type} (r : Except ArithmeticError α) : (arithmetic r).Looks := by
  unfold arithmetic
  split <;> grind

@[grind ←] theorem accumulate_drifts (op : Number → Number → Except ArithmeticError Number)
    (first : Number) (more : List Number) : (accumulate op first more).Drifts Value.IsPlain := by
  grind [accumulate]

/-- The chosen value is one of the candidates. -/
theorem select_mem (better : Ordering) (best : Value × Number) (candidates : List (Value × Number)) :
    ∃ candidate ∈ best :: candidates, select better best candidates = candidate.1 := by
  induction candidates generalizing best with
  | nil => exact ⟨best, List.mem_cons_self, rfl⟩
  | cons candidate more ih =>
    rw [select]
    split
    · obtain ⟨chosen, hmem, heq⟩ := ih candidate
      exact ⟨chosen, List.mem_cons_of_mem _ hmem, heq⟩
    · obtain ⟨chosen, hmem, heq⟩ := ih best
      refine ⟨chosen, ?_, heq⟩
      rcases List.mem_cons.mp hmem with rfl | hmem
      · exact List.mem_cons_self
      · exact List.mem_cons_of_mem _ (List.mem_cons_of_mem _ hmem)

/-- The chosen argument is an argument. -/
theorem select_isMadeOf (better : Ordering) (args : List Value) (a : Number) (more : List Number) :
    (select better (args.headD .void, a) ((args.drop 1).zip more)).IsMadeOf args := by
  obtain ⟨candidate, hmem, heq⟩ := select_mem better (args.headD .void, a) ((args.drop 1).zip more)
  rw [heq]
  rcases List.mem_cons.mp hmem with rfl | hmem
  · cases args with
    | nil => exact Value.isPlain_void.isMadeOf []
    | cons v vs => exact Value.isMadeOf_of_mem List.mem_cons_self
  · exact Value.isMadeOf_of_mem (List.mem_of_mem_drop (List.of_mem_zip hmem).1)

end Primitive

open Primitive in
theorem NumberOp.run_drifts (op : NumberOp) (args : List Value) :
    (op.run args).Drifts fun v => v.IsMadeOf args := by
  have hnumbers : (args.mapM (number op.name)).Drifts fun _ => True :=
    Looks.drifts (.mapM (number_looks op.name) args)
  have hselect : ∀ (better : Ordering) (a : Number) (more : List Number),
      (pure (select better (args.headD .void, a) ((args.drop 1).zip more)) : Action Value).Drifts
        fun v => v.IsMadeOf args := fun better a more => .pure (select_isMadeOf better args a more)
  cases op
  case quotient | remainder | modulo => exact .isMadeOf (by grind [NumberOp.run]) args
  all_goals
    refine hnumbers.bind fun nums => ?_
    split
    any_goals first | exact hselect _ _ _ | exact .isMadeOf (by grind) args

theorem TestOp.run_drifts (op : TestOp) (args : List Value) : (op.run args).Drifts Value.IsPlain := by
  unfold TestOp.run
  split <;> grind

theorem CharOp.run_drifts (op : CharOp) (args : List Value) : (op.run args).Drifts Value.IsPlain := by
  have hanswer : ∀ c, (op.answer c).IsPlain := by
    intro c
    cases op <;> grind [CharOp.answer]
  unfold CharOp.run
  split <;> grind

/-! ### Lists -/

namespace Value

variable {v w : Value} {parts : List Value}

theorem IsMadeOf.of_items (hv : v ∈ parts) (hw : w ∈ v.items) : w.IsMadeOf parts :=
  fun p _ hparts => (everywhere_iff (p := p).mp (hparts v hv)).1 w hw

/-- A list of parts. -/
theorem isMadeOf_ofList {id : ObjectId} {vs : List Value} (h : ∀ w ∈ vs, w.IsMadeOf parts) :
    (ofList id vs).IsMadeOf parts :=
  fun p hplain hparts => everywhere_ofList_iff.mpr fun w hw => h w hw p hplain hparts

/-- Some of the items of a part before its ending. -/
theorem isMadeOf_assemble {id : ObjectId} {vs : List Value} (hv : v ∈ parts) (hvs : vs ⊆ v.items) :
    (assemble id vs v.ending).IsMadeOf parts := by
  intro p hplain hparts
  obtain ⟨hitems, hending⟩ := everywhere_iff.mp (hparts v hv)
  exact everywhere_assemble_iff.mpr ⟨fun w hw => hitems w (hvs hw), hending⟩

theorem isMadeOf_cons {id : ObjectId} : (cons id v w).IsMadeOf [v, w] :=
  fun _ _ hparts => everywhere_cons_iff.mpr
    ⟨hparts v List.mem_cons_self, hparts w (List.mem_cons_of_mem v List.mem_cons_self)⟩

end Value

namespace Action

variable (who : Option Text) (v : Value)

theorem asList_drifts : (asList who v).Drifts fun l => l = v := by
  unfold asList
  split
  · exact .pure rfl
  · exact .throw _

theorem asItems_drifts : (asItems who v).Drifts fun vs => vs = v.items := by
  unfold asItems
  split
  · exact .pure rfl
  · exact .throw _

end Action

namespace ListOp

theorem head_drifts (who : Text) (v : Value) : (head who v).Drifts fun w => w.IsMadeOf [v] := by
  refine (asList_drifts _ v).bind_of fun l hl => ?_
  subst hl
  cases l with
  | list id first rest last => exact .pure (.of_items List.mem_cons_self List.mem_cons_self)
  | _ => exact .throw _

theorem rest_drifts (l : Value) : (rest l).Drifts fun w => w.IsMadeOf [l] := by
  refine .bind freshObject_drifts fun id => ?_
  cases l with
  | list id' first rest last =>
    exact .pure (Value.isMadeOf_assemble List.mem_cons_self (List.subset_cons_self first rest))
  | _ => exact .throw _

theorem tail_drifts (who : Text) (v : Value) : (tail who v).Drifts fun w => w.IsMadeOf [v] := by
  refine (asList_drifts _ v).bind_of fun l hl => ?_
  subst hl
  exact rest_drifts l

theorem allItems_drifts (who : Text) (vs : List Value) :
    (allItems who vs).Drifts fun ws => ∀ w ∈ ws, w.IsMadeOf vs := by
  induction vs with
  | nil => exact .pure fun w hw => absurd hw List.not_mem_nil
  | cons v vs ih =>
    refine (asItems_drifts _ v).bind_of fun items hitems => ih.bind_of fun ws hws => .pure fun w hw => ?_
    rcases List.mem_append.mp hw with hw | hw
    · exact .of_items List.mem_cons_self (hitems ▸ hw)
    · exact fun p hplain hparts => hws w hw p hplain fun u hu => hparts u (List.mem_cons_of_mem v hu)

theorem appendAll_drifts (who : Text) (args : List Value) :
    (appendAll who args).Drifts fun w => w.IsMadeOf args := by
  unfold appendAll
  split
  · exact .isMadeOf (.pure Value.isPlain_nil) args
  next last hlast =>
    refine (allItems_drifts who _).bind_of fun items hitems => .bind freshObject_drifts fun id => .pure ?_
    refine fun p hplain hparts => Value.everywhere_append_iff.mpr ⟨fun w hw => ?_, ?_⟩
    · exact hitems w hw p hplain fun u hu => hparts u (args.dropLast_subset hu)
    · exact hparts last (List.mem_of_getLast? hlast)

/-- Every round gives something made of what the round before gave. -/
theorem dropTimes_drifts (who : Text) (index : Int) (k : Nat) (v : Value) :
    (dropTimes who index k v).Drifts fun w => w.IsMadeOf [v] := by
  induction k generalizing v with
  | zero => exact .pure (Value.isMadeOf_of_mem List.mem_cons_self)
  | succ k ih =>
    rw [dropTimes]
    split
    · refine (rest_drifts v).bind_of fun w hw => (ih w).imp fun u hu p hplain hparts => ?_
      exact hu p hplain (List.forall_mem_singleton.mpr (hw p hplain hparts))
    · exact .throw _

theorem dropPlaces_drifts (who : Text) (v : Value) (k : Int) :
    (dropPlaces who v k).Drifts fun w => w.IsMadeOf [v] := by
  unfold dropPlaces
  split
  · exact .throw _
  · exact dropTimes_drifts who k k.toNat v

theorem itemAt_drifts (who : Text) (v : Value) (k : Int) :
    (itemAt who v k).Drifts fun w => w.IsMadeOf [v] := by
  unfold itemAt
  split
  next w hw =>
    obtain ⟨-, hw⟩ := Option.ite_none_left_eq_some.mp hw
    exact .pure (.of_items List.mem_cons_self (List.mem_of_getElem? hw))
  · exact .throw _

/-- A value made of the first of some arguments. -/
theorem spares_first {act : Action Value} {v : Value} (h : act.Drifts fun w => w.IsMadeOf [v])
    (more : List Value) : act.Drifts fun w => w.IsMadeOf (v :: more) :=
  h.imp fun _ hw p hplain hparts => hw p hplain fun u hu => hparts u (List.mem_cons.mpr
    (.inl (List.mem_singleton.mp hu)))

theorem run_drifts (op : ListOp) (args : List Value) : (op.run args).Drifts fun v => v.IsMadeOf args := by
  unfold run
  split
  · exact .bind freshObject_drifts fun id => .pure Value.isMadeOf_cons
  · exact head_drifts _ _
  · exact tail_drifts _ _
  · exact newList_drifts fun id => Value.isMadeOf_ofList fun w hw => Value.isMadeOf_of_mem hw
  · exact .isMadeOf (by grind) _
  · exact appendAll_drifts _ _
  next v =>
    refine (asItems_drifts _ v).bind_of fun vs hvs => newList_drifts fun id => ?_
    subst hvs
    exact Value.isMadeOf_ofList fun w hw => .of_items List.mem_cons_self (List.mem_reverse.mp hw)
  next v k =>
    refine (asList_drifts _ v).bind_of fun l hl => .bind (by grind) fun n => ?_
    subst hl
    exact spares_first (dropPlaces_drifts _ l n) [k]
  next v k =>
    refine (asList_drifts _ v).bind_of fun l hl => .bind (by grind) fun n => ?_
    subst hl
    exact spares_first (itemAt_drifts _ l n) [k]
  all_goals exact .isMadeOf (by grind) _

end ListOp

/-! ### Strings and conversions -/

namespace StringOp

@[grind ←] theorem part_drifts (who : Text) (v : Value) (bounds : List Value) :
    (part who v bounds).Drifts Value.IsPlain := by
  grind [part]

@[grind ←] theorem makeString_drifts (who : Text) (count : Value) (filler : List Value) :
    (makeString who count filler).Drifts Value.IsPlain := by
  cases filler <;> grind [makeString]

/-- A part of a string is replaced by a text of the same length. -/
theorem setContent_splice_driftsFrom {s : Store} {buffer : BufferId} {start : Nat} {piece : Text}
    (h : start + piece.length ≤ (s.content buffer).length) :
    (do
      setContent buffer (splice (s.content buffer) start piece)
      pure Value.void : Action Value).DriftsFrom s Value.IsPlain :=
  (setContent_driftsFrom buffer (length_splice h)).bind fun _ _ _ => .pure Value.isPlain_void

@[grind ←] theorem setPlace_drifts (who : Text) (v k c : Value) :
    (setPlace who v k c).Drifts Value.IsPlain := by
  refine fun s => .look_bind (by grind) fun buffer _ => .look_bind (by grind) fun t ht =>
    .look_bind (by grind) fun place hplace => .look_bind (by grind) fun c _ => ?_
  have hle := index_le hplace
  cases ht
  refine setContent_splice_driftsFrom ?_
  rw [List.length_singleton]
  omega

@[grind ←] theorem copyPart_drifts (who : Text) (target position source : Value) (bounds : List Value) :
    (copyPart who target position source bounds).Drifts Value.IsPlain := by
  refine fun s => .look_bind (by grind) fun buffer _ => .look_bind (by grind) fun old hold =>
    .look_bind (by grind) fun k _ => .look_bind (by grind) fun t _ =>
    .look_bind (by grind) fun bounds _ => ?_
  obtain ⟨start, finish⟩ := bounds
  cases hold
  dsimp only
  split
  next => exact .throw _
  next hfits =>
    refine setContent_splice_driftsFrom ?_
    simp only [slice, List.length_drop, List.length_take]
    omega

/-- Filling a string keeps its length. -/
theorem fill_drifts (who : Text) (v c : Value) : (do
    let buffer ← asString (some who) v
    let c ← asChar (some who) c
    let t ← content buffer
    setContent buffer (t.map fun _ => c)
    pure Value.void : Action Value).Drifts Value.IsPlain := by
  refine fun s => .look_bind (by grind) fun buffer _ => .look_bind (by grind) fun c _ =>
    .look_bind (by grind) fun t ht => ?_
  cases ht
  exact (setContent_driftsFrom buffer (List.length_map _)).bind fun _ _ _ => .pure Value.isPlain_void

@[grind ←] theorem compareTexts_drifts (who : Text) (holds : Text → Text → Bool) (a b : Value) :
    (compareTexts who holds a b).Drifts Value.IsPlain := by
  grind [compareTexts]

theorem run_drifts (op : StringOp) (args : List Value) : (op.run args).Drifts Value.IsPlain := by
  unfold run
  split
  case h_4 => exact fill_drifts _ _ _
  all_goals grind

end StringOp

namespace ConversionOp

@[grind ←] theorem readNumber_drifts (r : Nat) (t : Text) : (readNumber r t).Drifts Value.IsPlain := by
  unfold readNumber
  split
  · split <;> grind [ofNumeral]
  · split <;> grind

theorem run_drifts (op : ConversionOp) (args : List Value) : (op.run args).Drifts Value.IsPlain := by
  unfold run
  split
  case h_5 =>
    refine .bind (by grind) fun t => newList_drifts fun id => Value.everywhere_ofList_iff.mpr fun w hw => ?_
    obtain ⟨c, -, rfl⟩ := List.mem_map.mp hw
    exact Value.isPlain_char c
  case h_8 =>
    refine .bind (by grind) fun n => ?_
    split <;> grind
  all_goals grind

end ConversionOp

/-! ### Input and output -/

namespace OutputOp

@[grind ←] theorem emit_drifts (nesting : Nat) (who : Text) (mode : PrintMode) (v : Value)
    (port : List Value) : (emit nesting who mode v port).Drifts Value.IsPlain := by
  grind [emit]

@[grind ←] theorem emitPart_drifts (who : Text) (v : Value) (more : List Value) :
    (emitPart who v more).Drifts Value.IsPlain := by
  refine .bind (by grind) fun t => .bind (by grind) fun p => ?_
  split <;> split <;> grind

theorem run_drifts (op : OutputOp) (ev : Evaluator) (args : List Value) :
    (op.run ev args).Drifts Value.IsPlain := by
  unfold run
  split <;> grind

end OutputOp

namespace InputOp

@[grind ←] theorem stringOrFalse_drifts (t : Option Text) : (stringOrFalse t).Drifts Value.IsPlain := by
  cases t <;> grind [stringOrFalse]

@[grind ←] theorem nextDatum_drifts (nesting : Nat) (p : Port) :
    (nextDatum nesting p).Drifts Value.IsPlain := by
  refine .bind (by grind) fun line => ?_
  split
  · grind
  dsimp only
  split
  case h_5 => split <;> grind
  all_goals grind

@[grind ←] theorem readCount_drifts (who : Text) (args : List Value) :
    (readCount who args).Drifts Value.IsPlain := by
  refine .bind (by grind) fun counted => ?_
  dsimp only
  split
  · grind
  · refine .bind (by grind) fun p => ?_
    split <;> grind

theorem run_drifts (op : InputOp) (ev : Evaluator) (args : List Value) :
    (op.run ev args).Drifts Value.IsPlain := by
  cases op with
  | readChar =>
    refine .bind (by grind) fun p => .bind (by grind) fun t => ?_
    split <;> grind
  | _ => grind [run]

end InputOp

namespace PortOp

@[grind ←] theorem close_drifts (direction : Direction) (who : Text) (v : Value) :
    (close direction who v).Drifts Value.IsPlain :=
  .bind (by grind) fun _ => .bind (.modifyGet (fun s => s.closePort_drifts _) fun _ => trivial)
    fun _ => .pure Value.isPlain_void

@[grind ←] theorem outputText_drifts (who : Text) (v : Value) : (outputText who v).Drifts Value.IsPlain := by
  refine .bind (by grind) fun id => .bind (by grind) fun p => .bind (by grind) fun s => ?_
  split <;> grind

@[grind ←] theorem hasDirection_drifts (direction : Direction) (v : Value) :
    (hasDirection direction v).Drifts Value.IsPlain := by
  unfold hasDirection
  split <;> grind

/-- A port procedure that opens none and makes no call. -/
def IsQuiet : PortOp → Prop
  | .getOutputString | .closeInput | .closeOutput | .isInput | .isOutput => True
  | _ => False

theorem run_drifts {op : PortOp} (h : op.IsQuiet) (ev : Evaluator) (args : List Value) (scope : ScopeId) :
    (op.run ev args scope).Drifts Value.IsPlain := by
  unfold run
  split
  all_goals first | grind | exact h.elim

end PortOp

namespace Primitive

/-- A procedure that makes no call, gives no fresh symbol, opens no port and does not leave. -/
def IsQuiet : Primitive → Prop
  | .control _ | .system _ => False
  | .ports op => op.IsQuiet
  | _ => True

/-- Quiet procedures let the store drift and give what is made of their arguments. -/
theorem run_drifts {p : Primitive} (h : p.IsQuiet) (ev : Evaluator) (args : List Value) (scope : ScopeId) :
    (p.run ev args scope).Drifts fun step => ∃ v, step = .value v ∧ v.IsMadeOf args := by
  have hmade : ∀ {act : Action Value}, (act.Drifts fun v => v.IsMadeOf args) →
      (do return Step.value (← act) : Action Step).Drifts fun step => ∃ v, step = .value v ∧ v.IsMadeOf args :=
    fun hact => hact.bind_of fun v hv => .pure ⟨v, rfl, hv⟩
  cases p with
  | numbers op => exact hmade (op.run_drifts args)
  | lists op => exact hmade (op.run_drifts args)
  | tests op => exact hmade ((op.run_drifts args).isMadeOf args)
  | strings op => exact hmade ((op.run_drifts args).isMadeOf args)
  | characters op => exact hmade ((op.run_drifts args).isMadeOf args)
  | conversions op => exact hmade ((op.run_drifts args).isMadeOf args)
  | output op => exact hmade ((op.run_drifts ev args).isMadeOf args)
  | input op => exact hmade ((op.run_drifts ev args).isMadeOf args)
  | ports op => exact hmade ((PortOp.run_drifts h ev args scope).isMadeOf args)
  | control op => exact h.elim
  | system op => exact h.elim

end Primitive

/-! ### Fresh symbols -/

/-- The name of a fresh symbol. -/
def freshName (start : Text) (n : Nat) : Text := start ++ text "-" ++ natText n

/-- The prefix that a call for a fresh symbol asks for by its arguments. -/
def Store.freshPrefix? (s : Store) : List Value → Option Text
  | [] => some (text "gensym")
  | [.atom (.sym name)] => some name
  | [.atom (.str buffer)] => some (s.content buffer)
  | _ => none

/-- A call for a fresh symbol gives the next one. -/
theorem ControlOp.run_gensym {s : Store} {args : List Value} {start : Text} (h : s.freshPrefix? args = some start)
    (ev : Evaluator) (scope : ScopeId) : ControlOp.gensym.run ev args scope s =
      .ok (.value (.sym (freshName start s.nextFresh))) { s with nextFresh := s.nextFresh + 1 } := by
  unfold Store.freshPrefix? at h
  split at h
  case h_4 => simp at h
  all_goals
    obtain rfl := Option.some.inj h
    rfl

end Lisplet
