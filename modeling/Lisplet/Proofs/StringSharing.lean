import Lisplet.Proofs.EqualityLaws
import Lisplet.Proofs.References
import Lisplet.Proofs.StringBuffers

/-!
# Who sees a string change

Every value that names a buffer sees what is written to it: through `eqv?` values, through variables, through
whatever holds the string. No other string is different, and the strings that procedures make are never among
those that were there, so that writing to one of them, before or after the others are made, leaves all the others
alone. Over any number of calls a string keeps its length, and if none of the calls writes to it, its content.
-/

namespace Lisplet

open Lisplet.Action

/-! ### Aliases -/

theorem Value.equivalent_str_iff {b : BufferId} {w : Value} :
    (Value.str b).equivalent w = true ↔ w = .str b := by
  rw [Value.equivalent_iff]
  constructor
  · rintro (rfl | ⟨a, a', ha, rfl, h⟩)
    · rfl
    · cases ha
      cases a' with
      | str b' => rw [show b = b' from beq_iff_eq.mp h]
      | _ => cases h
  · rintro rfl
    exact .inl rfl

namespace StringOp

variable {s : Store} {b : BufferId}

theorem run_length_str : StringOp.length.run [.str b] s = .ok (.int (s.content b).length) s := rfl

/-- The character at a place of a string. -/
theorem run_ref_str {i : Nat} {c : CodePoint} (h : (s.content b)[i]? = some c) :
    StringOp.ref.run [.str b, .int i] s = .ok (.char c) s := by
  obtain ⟨hlt, _⟩ := List.getElem?_eq_some_iff.mp h
  have hindex := (index_finds StringOp.ref.name s ((s.content b).length - 1) (.int i)).ok_iff.mpr
    ⟨index?_eq_some_iff.mpr ⟨rfl, Int.le_sub_one_of_lt (Int.ofNat_lt.mpr hlt)⟩, rfl⟩
  have htext : asText (some StringOp.ref.name) (.str b) s = .ok (s.content b) s := rfl
  refine (bind_of_ok htext).trans ((bind_of_ok hindex).trans ?_)
  rw [h]
  rfl

end StringOp

namespace Store

/-- What is read of a string through a value is what its buffer holds. -/
structure Shows (s : Store) (w : Value) (t : Text) : Prop where
  length : StringOp.length.run [w] s = .ok (.int t.length) s
  ref {i : Nat} {c : CodePoint} (h : t[i]? = some c) : StringOp.ref.run [w, .int i] s = .ok (.char c) s

theorem shows_of_equivalent {s : Store} {b : BufferId} {w : Value} (h : (Value.str b).equivalent w = true) :
    s.Shows w (s.content b) := by
  rw [Value.equivalent_str_iff.mp h]
  exact ⟨StringOp.run_length_str, StringOp.run_ref_str⟩

/-- A variable that names a string names it after the string has been overwritten. -/
theorem Overwrites.lookup {s s' : Store} {target : BufferId} {start : Nat} {piece : Text}
    (h : s.Overwrites target start piece s') {scope : ScopeId} {name : Text} {v : Value}
    (hname : Action.lookup scope name s = .ok v s) : Action.lookup scope name s' = .ok v s' := by
  have hscopes : s'.scopes = s.scopes := by rw [h.only]
  rw [Action.lookup, get_bind] at hname ⊢
  rw [hscopes]
  cases hv : s.scopes.lookup? scope name with
  | none =>
    rw [hv] at hname
    cases hname
  | some v' =>
    rw [hv] at hname
    cases hname
    rfl

end Store

/-! ### Strings that are made -/

/-- An action makes a string, with a buffer that was not there, or it fails; nothing else is different. -/
def Action.MakesString (act : Action Value) : Prop := ∀ s : Store,
  (∃ t, act s = .ok (.str s.buffers.size) { s with buffers := s.buffers.push t }) ∨ ∃ e, act s = .error e s

namespace Action.MakesString

theorem newString (t : Text) : (Action.newString t).MakesString := fun _ => .inl ⟨t, rfl⟩

theorem fail (e : Failure) : (Action.fail e : Action Value).MakesString := fun _ => .inr ⟨_, rfl⟩

theorem bind {α : Type} {act : Action α} {next : α → Action Value} (h : act.Looks)
    (hnext : ∀ a, (next a).MakesString) : (act >>= next).MakesString := by
  intro s
  cases hact : act s with
  | ok a s' =>
    cases h.eq_of_ok hact
    rw [bind_of_ok hact]
    exact hnext a s
  | error e s' =>
    obtain rfl : s' = s := (after_of_error hact).symm.trans (h s)
    exact .inr ⟨e, bind_of_error hact⟩

end Action.MakesString

/-- The procedures that give a string of its own. -/
inductive StringMaker where
  | copy
  | substring
  | append
  | make
  | ofChars
  | ofList
  | ofSymbol
  | ofNumber
  | ofPort

namespace StringMaker

/-- Calls the procedure. -/
def run (ev : Evaluator) (scope : ScopeId) : StringMaker → List Value → Action Value
  | .copy, args => StringOp.run .copy args
  | .substring, args => StringOp.run .substring args
  | .append, args => StringOp.run .append args
  | .make, args => StringOp.run .make args
  | .ofChars, args => StringOp.run .ofChars args
  | .ofList, args => ConversionOp.run .listToString args
  | .ofSymbol, args => ConversionOp.run .symbolToString args
  | .ofNumber, args => ConversionOp.run .numberToString args
  | .ofPort, args => PortOp.run .getOutputString ev args scope

theorem part_makesString (who : Text) (v : Value) (bounds : List Value) :
    (StringOp.part who v bounds).MakesString :=
  .bind (by grind) fun _ => .bind (by grind) fun _ => .newString _

theorem makeString_makesString (who : Text) (count : Value) (filler : List Value) :
    (StringOp.makeString who count filler).MakesString := by
  refine .bind (by grind) fun k => ?_
  split
  · exact .fail _
  · have hmade : ∀ c : CodePoint, (if StringOp.maxCount < k then Action.fault .countTooLarge
        else if StringOp.maxLength < k then Action.fault .outOfMemory
        else Action.newString (List.replicate k.toNat c)).MakesString := by
      intro c
      split
      · exact .fail _
      · split
        · exact .fail _
        · exact .newString _
    cases filler with
    | nil => exact hmade _
    | cons v more => exact .bind (asChar_looks _ v) hmade

theorem outputText_makesString (who : Text) (v : Value) : (PortOp.outputText who v).MakesString := by
  refine .bind (by grind) fun id => .bind (by grind) fun p => .bind (by grind) fun s => ?_
  split
  · exact .newString _
  · exact .fail _

/-- Each of the procedures makes a string or fails. -/
theorem run_makesString (ev : Evaluator) (scope : ScopeId) (m : StringMaker) (args : List Value) :
    (m.run ev scope args).MakesString := by
  cases m with
  | copy | substring =>
    rcases args with _ | ⟨v, bounds⟩
    · exact .fail _
    · exact part_makesString _ v bounds
  | append => exact .bind (.mapM (fun v => by grind) args) fun ts => .newString _
  | ofChars => exact .bind (.mapM (fun v => by grind) args) fun t => .newString t
  | make =>
    rcases args with _ | ⟨k, filler⟩
    · exact .fail _
    · exact makeString_makesString _ k filler
  | ofList =>
    rcases args with _ | ⟨v, _ | ⟨_, _⟩⟩
    case cons.nil =>
      exact .bind (by grind) fun vs => .bind (.mapM (fun v => by grind) vs) fun t => .newString t
    all_goals exact .fail _
  | ofSymbol =>
    rcases args with _ | ⟨v, _ | ⟨_, _⟩⟩
    case cons.nil => exact .bind (by grind) fun t => .newString t
    all_goals exact .fail _
  | ofNumber =>
    rcases args with _ | ⟨v, more⟩
    · exact .fail _
    · exact .bind (by grind) fun v => .bind (by grind) fun r => .bind (by grind) fun t => .newString t
  | ofPort =>
    rcases args with _ | ⟨v, _ | ⟨_, _⟩⟩
    case cons.nil => exact outputText_makesString _ v
    all_goals exact .fail _

end StringMaker

/-! ### Calls in turn -/

/-- Buffers keep their lengths, and those that are not touched their contents; nothing but buffers is different. -/
structure Store.SparesBuffers (s : Store) (touched : BufferId → Prop) (s' : Store) : Prop where
  only : s' = { s with buffers := s'.buffers }
  size_le : s.buffers.size ≤ s'.buffers.size
  length {b : BufferId} (hb : b < s.buffers.size) : (s'.content b).length = (s.content b).length
  content {b : BufferId} (hb : b < s.buffers.size) (h : ¬touched b) : s'.content b = s.content b

namespace Store

variable {s s' s'' : Store} {touched touched' : BufferId → Prop}

theorem SparesBuffers.refl (s : Store) (touched : BufferId → Prop) : s.SparesBuffers touched s :=
  ⟨rfl, Nat.le_refl _, fun _ => rfl, fun _ _ => rfl⟩

theorem SparesBuffers.trans (h : s.SparesBuffers touched s') (h' : s'.SparesBuffers touched s'') :
    s.SparesBuffers touched s'' where
  only := by rw [h'.only, h.only]
  size_le := Nat.le_trans h.size_le h'.size_le
  length hb := (h'.length (Nat.lt_of_lt_of_le hb h.size_le)).trans (h.length hb)
  content hb hnot := (h'.content (Nat.lt_of_lt_of_le hb h.size_le) hnot).trans (h.content hb hnot)

theorem SparesBuffers.imp (h : s.SparesBuffers touched s') (himp : ∀ b, touched b → touched' b) :
    s.SparesBuffers touched' s' :=
  { h with content := fun hb hnot => h.content hb fun htouched => hnot (himp _ htouched) }

theorem Overwrites.sparesBuffers {target : BufferId} {start : Nat} {piece : Text}
    (h : s.Overwrites target start piece s') : s.SparesBuffers (· = target) s' where
  only := h.only
  size_le := Nat.le_of_eq h.size.symm
  length {b} hb := by
    by_cases heq : b = target
    · rw [heq, h.length]
    · rw [h.others heq]
  content hb hnot := h.others hnot

theorem content_push {b : BufferId} (hb : b < s.buffers.size) (t : Text) :
    ({ s with buffers := s.buffers.push t } : Store).content b = s.content b := by
  rw [content, content, Array.getElem?_push, if_neg (Nat.ne_of_lt hb)]

theorem sparesBuffers_push (s : Store) (t : Text) (touched : BufferId → Prop) :
    s.SparesBuffers touched { s with buffers := s.buffers.push t } where
  only := rfl
  size_le := by rw [Array.size_push]; exact Nat.le_succ _
  length hb := by rw [content_push hb]
  content hb _ := content_push hb t

end Store

/-- A call that writes to a string or makes one. -/
inductive StringCall where
  | change (m : StringOp.StringMutator) (args : List Value)
  | make (m : StringMaker) (ev : Evaluator) (scope : ScopeId) (args : List Value)

namespace StringCall

def run : StringCall → Action Value
  | .change m args => m.run args
  | .make m ev scope args => m.run ev scope args

/-- The string that a call may write to. -/
def target? : StringCall → Option BufferId
  | .change _ (v :: _) => v.buffer?
  | _ => none

/-- The store after some calls, however each of them ends. -/
def afterAll : List StringCall → Store → Store
  | [], s => s
  | c :: more, s => afterAll more (c.run.after s)

/-- One call changes no string but the one that it may write to. -/
theorem run_sparesBuffers (c : StringCall) (s : Store) :
    s.SparesBuffers (fun b => c.target? = some b) (c.run.after s) := by
  cases c with
  | change m args =>
    rcases m.run_writes_or_fails args s with ⟨b, _, _, s', hwrites, hrun, hdone⟩ | ⟨_, e, hrun⟩
    · rw [after_of_ok (show (change m args).run s = _ from hrun)]
      have htarget : (change m args).target? = some b := by cases hwrites <;> rfl
      exact hdone.sparesBuffers.imp fun _ heq => heq ▸ htarget
    · rw [after_of_error (show (change m args).run s = _ from hrun)]
      exact .refl s _
  | make m ev scope args =>
    rcases m.run_makesString ev scope args s with ⟨t, hrun⟩ | ⟨e, hrun⟩
    · rw [after_of_ok (show (make m ev scope args).run s = _ from hrun)]
      exact s.sparesBuffers_push t _
    · rw [after_of_error (show (make m ev scope args).run s = _ from hrun)]
      exact .refl s _

/-- Any number of calls change no string but those that they may write to. -/
theorem afterAll_sparesBuffers (calls : List StringCall) (s : Store) :
    s.SparesBuffers (fun b => ∃ c ∈ calls, c.target? = some b) (afterAll calls s) := by
  induction calls generalizing s with
  | nil => exact .refl s _
  | cons c more ih =>
    have hfirst := (c.run_sparesBuffers s).imp fun b hb => (⟨c, List.mem_cons_self, hb⟩ :
      ∃ c' ∈ c :: more, c'.target? = some b)
    exact hfirst.trans ((ih _).imp fun _ ⟨c', hc', hb⟩ => ⟨c', List.mem_cons_of_mem c hc', hb⟩)

end StringCall

/-! ### Strings as a whole -/

/-- A buffer was not there before and is there after. -/
def Store.IsNewBuffer (s : Store) (b : BufferId) (s' : Store) : Prop :=
  s.buffers.size ≤ b ∧ b < s'.buffers.size

/-- However it goes on with calls that do not write to this string, its content stays. -/
def Store.KeepsUnlessWritten (s : Store) (b : BufferId) : Prop :=
  ∀ calls : List StringCall, (∀ c ∈ calls, c.target? ≠ some b) →
    (StringCall.afterAll calls s).content b = s.content b

open StringOp (StringMutator)

/-- Strings are buffers that are shared, written in place and made apart. -/
structure Store.SharesStrings (s : Store) : Prop where
  /-- A call that writes overwrites the cells that its arguments say and nothing else, or it fails and has
  written nothing. -/
  writes (m : StringMutator) (args : List Value) :
    (∃ b start piece s', m.Writes s args b start piece ∧ m.run args s = .ok .void s' ∧
      s.Overwrites b start piece s') ∨
    (¬∃ b start piece, m.Writes s args b start piece) ∧ ∃ e, m.run args s = .error e s
  set {b : BufferId} {k : Int} {c : CodePoint} :
    (StringMutator.set.run [.str b, .int k, .char c]).Succeeds s ↔ 0 ≤ k ∧ k < (s.content b).length
  copy {b source : BufferId} {k start finish : Int} :
    (StringMutator.copyInto.run [.str b, .int k, .str source, .int start, .int finish]).Succeeds s ↔
      (0 ≤ k ∧ k ≤ (s.content b).length) ∧
      (0 ≤ start ∧ start ≤ finish ∧ finish ≤ (s.content source).length) ∧
      k + (finish - start) ≤ (s.content b).length
  cells {b source : BufferId} {k start finish : Nat} {v : Value} {s' : Store}
    (h : StringMutator.copyInto.run [.str b, .int k, .str source, .int start, .int finish] s = .ok v s')
    {i : Nat} (hi : i < finish - start) : (s'.content b)[k + i]? = (s.content source)[start + i]?
  /-- What has been written is read through every value that is the string. -/
  shows {b : BufferId} {start : Nat} {piece : Text} {s' : Store} (h : s.Overwrites b start piece s') {w : Value}
    (hw : (Value.str b).equivalent w = true) : s'.Shows w (StringOp.splice (s.content b) start piece)
  names {b : BufferId} {start : Nat} {piece : Text} {s' : Store} (h : s.Overwrites b start piece s')
    {scope : ScopeId} {name : Text} {v : Value} (hname : Action.lookup scope name s = .ok v s) :
    Action.lookup scope name s' = .ok v s'
  /-- A string that is made is none of those that are there, which stay what they are. -/
  makes {m : StringMaker} {ev : Evaluator} {scope : ScopeId} {args : List Value} {v : Value} {s' : Store}
    (h : m.run ev scope args s = .ok v s') :
    ∃ b, v = .str b ∧ s.IsNewBuffer b s' ∧ ∀ b' < s.buffers.size, s'.content b' = s.content b'
  /-- Strings that are made, one later than the other, are two, and writing to one leaves the other alone. -/
  apart {m m' : StringMaker} {ev ev' : Evaluator} {scope scope' : ScopeId} {args args' : List Value}
    {v v' : Value} {s₁ s₂ s₃ : Store} (h : m.run ev scope args s = .ok v s₁) (hlater : s₁.Evolves s₂)
    (h' : m'.run ev' scope' args' s₂ = .ok v' s₃) :
    ∃ b b', v = .str b ∧ v' = .str b' ∧ b ≠ b' ∧ s₃.KeepsUnlessWritten b ∧ s₃.KeepsUnlessWritten b'
  /-- Over any number of calls strings keep their lengths, and their contents unless they are written to. -/
  calls (calls : List StringCall) :
    s.SparesBuffers (fun b => ∃ c ∈ calls, c.target? = some b) (StringCall.afterAll calls s)

namespace Store

theorem Evolves.buffers_size_le {s s' : Store} (h : s.Evolves s') : s.buffers.size ≤ s'.buffers.size := by
  by_contra hlt
  obtain ⟨t, ht, _⟩ := h.survives.buffers s'.buffers.size _ (Array.getElem?_eq_getElem (Nat.not_le.mp hlt))
  exact absurd (Array.getElem?_eq_some_iff.mp ht).1 (Nat.lt_irrefl _)

theorem keepsUnlessWritten {s : Store} {b : BufferId} (hb : b < s.buffers.size) : s.KeepsUnlessWritten b :=
  fun calls hnot => (StringCall.afterAll_sparesBuffers calls s).content hb fun ⟨c, hc, hb⟩ => hnot c hc hb

end Store

theorem StringMaker.run_makes {s s' : Store} {m : StringMaker} {ev : Evaluator} {scope : ScopeId}
    {args : List Value} {v : Value} (h : m.run ev scope args s = .ok v s') :
    ∃ b, v = .str b ∧ s.IsNewBuffer b s' ∧ ∀ b' < s.buffers.size, s'.content b' = s.content b' := by
  rcases m.run_makesString ev scope args s with ⟨t, hrun⟩ | ⟨e, hrun⟩
  · cases hrun.symm.trans h
    refine ⟨_, rfl, ⟨Nat.le_refl _, ?_⟩, fun b' hb' => Store.content_push hb' t⟩
    rw [Array.size_push]
    exact Nat.lt_succ_self _
  · cases hrun.symm.trans h

/-- In every store strings are shared, written in place and made apart. -/
theorem Store.sharesStrings (s : Store) : s.SharesStrings where
  writes m args := m.run_writes_or_fails args s
  set := StringMutator.set_succeeds_iff
  copy := StringMutator.copyInto_succeeds_iff
  cells h _ hi := StringMutator.copyInto_cells h hi
  shows h _ hw := h.content_eq ▸ Store.shows_of_equivalent hw
  names h _ _ _ hname := h.lookup hname
  makes h := StringMaker.run_makes h
  apart h hlater h' := by
    obtain ⟨b, rfl, ⟨_, hb⟩, _⟩ := StringMaker.run_makes h
    obtain ⟨b', rfl, ⟨hb', hlt⟩, _⟩ := StringMaker.run_makes h'
    have hbefore := Nat.lt_of_lt_of_le hb (Nat.le_trans hlater.buffers_size_le hb')
    exact ⟨b, b', rfl, rfl, Nat.ne_of_lt hbefore, Store.keepsUnlessWritten (Nat.lt_trans hbefore hlt),
      Store.keepsUnlessWritten hlt⟩
  calls calls := StringCall.afterAll_sparesBuffers calls s

end Lisplet
