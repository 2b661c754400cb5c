import Lisplet.Proofs.PortFaults
import Lisplet.Proofs.WrittenFiles

/-!
# Texts that ports take

An open port takes a text if its stream does: a string port takes every text, standard output and files take those
in which no surrogate stands. Then the text follows what was written before, and nothing else is different; what a
port does not take it refuses, and nothing has changed.
-/

namespace Lisplet

open Lisplet.Action

/-- A text has bytes, or a surrogate stands in it. -/
theorem Utf8.encode?_eq_none_iff {t : Text} : encode? t = none ↔ ¬∀ c ∈ t, c.isSurrogate = false := by
  constructor
  · intro h hplain
    cases h.symm.trans (encode?_of_not_surrogate hplain)
  · intro h
    refine if_pos ?_
    simpa [CodePoint.isSurrogate] using h

namespace Stream

/-- A stream that is written to takes a text. What leaves the program has no surrogate in it. -/
inductive Takes (t : Text) : Stream → Prop
  | sink (pieces : List Text) : Takes t (.sink pieces)
  | console (pieces : List Text) (h : ∀ c ∈ t, c.isSurrogate = false) : Takes t (.console pieces)
  | fileSink (place : Location) (position : Nat) (outer inner : Bytes) (h : ∀ c ∈ t, c.isSurrogate = false) :
      Takes t (.fileSink place position outer inner)

/-- A text follows what was written to a stream before. -/
inductive Gains (t : Text) (tree : FileTree) : Stream → Stream → FileTree → Prop
  | sink {pieces pieces' : List Text} (h : Text.gathered pieces' = Text.gathered pieces ++ t) :
      Gains t tree (.sink pieces) (.sink pieces') tree
  | console {pieces pieces' : List Text} (h : Text.gathered pieces' = Text.gathered pieces ++ t) :
      Gains t tree (.console pieces) (.console pieces') tree
  /-- The bytes of the text follow those that the file and the stages in front of it hold. -/
  | fileSink {place : Location} {position : Nat} {outer inner bytes : Bytes} {after : Stream} {tree' : FileTree}
      (hbytes : Utf8.encode? t = some bytes)
      (h : ∀ written, Gathers tree place position outer inner written →
        ∃ position' outer' inner', after = .fileSink place position' outer' inner' ∧
          Gathers tree' place position' outer' inner' (written ++ bytes) ∧ tree.Rewrites place tree') :
      Gains t tree (.fileSink place position outer inner) after tree'

variable {stream : Stream} {t : Text}

/-- A stream takes what it does not refuse. -/
theorem takes_iff : stream.Takes t ↔ ∀ fault, ¬stream.RefusesText t fault := by
  constructor
  · rintro (_ | ⟨_, hplain⟩ | ⟨_, _, _, _, hplain⟩) fault (_ | _ | _ | ⟨_, hnone⟩ | ⟨_, _, _, _, hnone⟩)
    · exact Utf8.encode?_eq_none_iff.mp hnone hplain
    · exact Utf8.encode?_eq_none_iff.mp hnone hplain
  · intro h
    cases stream with
    | sink pieces => exact .sink pieces
    | closed => exact absurd .closed (h .closed)
    | source rest => exact absurd (.source rest) (h .closed)
    | fileSource reader => exact absurd (.fileSource reader) (h .closed)
    | console pieces =>
      by_contra hnot
      refine h .unencodable (.console pieces (Utf8.encode?_eq_none_iff.mpr fun hplain => hnot ?_))
      exact .console pieces hplain
    | fileSink place position outer inner =>
      by_contra hnot
      refine h .unencodable (.fileSink _ _ _ _ (Utf8.encode?_eq_none_iff.mpr fun hplain => hnot ?_))
      exact .fileSink place position outer inner hplain

/-- What a stream takes follows what was written to it. -/
theorem Takes.write (h : stream.Takes t) (tree : FileTree) :
    ∃ after tree', stream.write tree t = .ok (after, tree') ∧ Gains t tree stream after tree' := by
  have hgathered : ∀ pieces, Text.gathered (t :: pieces) = Text.gathered pieces ++ t := by simp [Text.gathered]
  cases hwrite : stream.write tree t with
  | error fault => exact absurd (write_eq_error_iff.mp hwrite) (takes_iff.mp h fault)
  | ok done =>
    obtain ⟨after, tree'⟩ := done
    refine ⟨after, tree', rfl, ?_⟩
    cases h with
    | sink pieces =>
      cases hwrite
      exact .sink (hgathered pieces)
    | console pieces hplain =>
      rw [Stream.write, Utf8.encode?_of_not_surrogate hplain] at hwrite
      cases hwrite
      exact .console (hgathered pieces)
    | fileSink place position outer inner hplain =>
      have hbytes := Utf8.encode?_of_not_surrogate hplain
      refine .fileSink hbytes fun written hwritten => ?_
      obtain ⟨_, position', outer', inner', hwrite', hgathers, hrewrites⟩ := hwritten.write hbytes
      cases hwrite.symm.trans hwrite'
      exact ⟨position', outer', inner', rfl, hgathers, hrewrites⟩

end Stream

/-! ### Ports -/

/-- The port that is chosen by a port value is that port, if it is one of the wanted direction. -/
theorem Action.chosenPort_eq_ok_iff {wanted : Direction} {who : Text} {id : PortId} {p : Port} {s s' : Store} :
    chosenPort wanted who [.atom (.port id)] s = .ok p s' ↔
      s' = s ∧ s.ports[id]? = some p ∧ p.isInput = decide (wanted = .input) := by
  constructor
  · intro h
    -- Choosing a port only looks at the store.
    obtain rfl := (chosenPort_looks wanted who _).eq_of_ok h
    have hid : asPort (some who) (.atom (.port id)) s' = .ok id s' := rfl
    rw [chosenPort, bind_of_ok hid] at h
    cases hport : s'.ports[id]? with
    | none =>
      have hnone : portOf id s' = .error (.failure (.fault .operandMissing)) s' := by
        rw [portOf, get_bind, hport]
        rfl
      rw [bind_of_error hnone] at h
      cases h
    | some q =>
      rw [bind_of_ok (portOf_spec hport)] at h
      split at h
      next hwanted =>
        cases h
        exact ⟨rfl, rfl, hwanted⟩
      next => cases h
  · rintro ⟨rfl, hid, hwanted⟩
    exact chosenPort_of_port hid hwanted

/-- A text follows what was written through a port before, and nothing else is different. -/
structure Store.Gains (s : Store) (p : Port) (t : Text) (s' : Store) : Prop where
  only : s' = { s with streams := s'.streams, files := s'.files }
  others {id : StreamId} (hne : id ≠ p.stream) : s'.streams[id]? = s.streams[id]?
  stream : Stream.Gains t s.files (s.streamOf p) (s'.streamOf p) s'.files

namespace Port

variable {p : Port} {s : Store} {t : Text}

/-- An open port takes a text if its stream does. -/
def Takes (p : Port) (s : Store) (t : Text) : Prop := p.isClosed = false ∧ (s.streamOf p).Takes t

/-- What a port takes is written. -/
theorem Takes.write (h : p.Takes s t) : ∃ s', p.write t s = .ok () s' ∧ s.Gains p t s' := by
  obtain ⟨hopen, htakes⟩ := h
  obtain ⟨after, files, hwrite, hgains⟩ := htakes.write s.files
  obtain ⟨stream, hstream⟩ : ∃ stream, s.streams[p.stream]? = some stream := by
    by_contra hnone
    rw [Store.streamOf, Option.eq_none_iff_forall_ne_some.mpr fun stream h => hnone ⟨stream, h⟩] at htakes
    cases htakes
  let s' : Store := { s with streams := s.streams.set! p.stream after, files := files }
  have hafter : s'.streamOf p = after := by
    rw [Store.streamOf, getElem?_set!_self hstream after]
    rfl
  refine ⟨s', ?_, rfl, fun hne => ?_, hafter ▸ hgains⟩
  · rw [Store.streamOf] at hwrite
    rw [Port.write, checkOpen_eq hopen, pure_bind, modifyGet_bind, hwrite]
    rfl
  · simp [s', Ne.symm hne]

/-- What a port does not take it refuses. -/
theorem write_of_not_takes (h : ¬p.Takes s t) : ∃ e, p.write t s = .error e s := by
  cases hclosed : p.isClosed with
  | true =>
    have hcheck := checkOpen_finds p s
    rw [hclosed] at hcheck
    cases hcheck with
    | refused hcheck _ => exact ⟨_, bind_of_error hcheck⟩
  | false =>
    have hnot : ¬(s.streamOf p).Takes t := fun htakes => h ⟨hclosed, htakes⟩
    simp only [Stream.takes_iff, not_forall, not_not, ← @Stream.write_eq_error_iff s.files] at hnot
    obtain ⟨fault, hwrite⟩ := hnot
    rw [Store.streamOf] at hwrite
    refine ⟨.failure (.fault (.stream fault)), ?_⟩
    rw [Port.write, checkOpen_eq hclosed, pure_bind, modifyGet_bind, hwrite]
    rfl

end Port

end Lisplet
