import Mathlib.Data.List.TakeWhile
import Lisplet.Proofs.Encoding

/-!
# Reading in portions

A file that is read in portions gives the same text as one that is read at once. Its remaining text is what
reading all of it would give: what is ready, and what the bytes behind it decode to when every line end is
made uniform. Taking a portion keeps the remaining text, because decoding and the line ends go on behind a
cut where they stopped; so what a demand gives and what it leaves are the two parts that it splits the
remaining text into, whatever the portions are.
-/

namespace Lisplet

namespace Utf8

/-! ### Decoding behind a cut -/

/-- What a piece becomes when more bytes follow: a whole code point leaves these bytes too, malformed bytes
stay so, and only what was truncated may become anything. -/
def Piece.Continues (more : Bytes) : Piece → Piece → Prop
  | .whole c left, next => next = .whole c (left ++ more)
  | .truncated, _ => True
  | .malformed, next => next = .malformed

theorem takePiece_append (lead : UInt8) (rest more : Bytes) :
    Piece.Continues more (takePiece lead rest) (takePiece lead (rest ++ more)) := by
  -- By the length that the lead byte announces; each byte behind it may be the first that is missing.
  by_cases h1 : lead.toNat < 0x80
  · simp only [takePiece, if_pos h1]
    rfl
  by_cases h2 : lead.toNat < 0xC2
  · simp only [takePiece, if_neg h1, if_pos h2]
    rfl
  by_cases h3 : lead.toNat < 0xE0
  · simp only [takePiece, if_neg h1, if_neg h2, if_pos h3]
    rcases rest with _ | ⟨b, rest⟩
    · trivial
    · by_cases hb : isContinuation b.toNat = true
      · simp [hb, Piece.Continues]
      · simp [hb, Piece.Continues]
  by_cases h4 : lead.toNat < 0xF0
  · simp only [takePiece, if_neg h1, if_neg h2, if_neg h3, if_pos h4]
    rcases rest with _ | ⟨b, rest⟩
    · trivial
    · by_cases hb : maySecond lead.toNat b.toNat = true
      · rcases rest with _ | ⟨c, rest⟩
        · simp [hb, Piece.Continues]
        · by_cases hc : isContinuation c.toNat = true
          · simp [hb, hc, Piece.Continues]
          · simp [hb, hc, Piece.Continues]
      · simp [hb, Piece.Continues]
  by_cases h5 : lead.toNat < 0xF5
  · simp only [takePiece, if_neg h1, if_neg h2, if_neg h3, if_neg h4, if_pos h5]
    rcases rest with _ | ⟨b, rest⟩
    · trivial
    · by_cases hb : maySecond lead.toNat b.toNat = true
      · rcases rest with _ | ⟨c, rest⟩
        · simp [hb, Piece.Continues]
        · by_cases hc : isContinuation c.toNat = true
          · rcases rest with _ | ⟨d, rest⟩
            · simp [hb, hc, Piece.Continues]
            · by_cases hd : isContinuation d.toNat = true
              · simp [hb, hc, hd, Piece.Continues]
              · simp [hb, hc, hd, Piece.Continues]
          · simp [hb, hc, Piece.Continues]
      · simp [hb, Piece.Continues]
  · simp only [takePiece, if_neg h1, if_neg h2, if_neg h3, if_neg h4, if_neg h5]
    rfl

/-- What a code point leaves is shorter than what it was taken off. -/
theorem length_le_of_takePiece {lead : UInt8} {rest left : Bytes} {c : CodePoint}
    (h : takePiece lead rest = .whole c left) : left.length ≤ rest.length := by
  unfold takePiece at h
  dsimp only at h
  repeat' split at h
  all_goals
    simp only [Piece.whole.injEq, reduceCtorEq] at h
  all_goals
    obtain ⟨-, rfl⟩ := h
    simp only [List.length_cons, Nat.le_refl, Nat.le_add_right, Nat.le_succ_of_le]

/-- To show something of all bytes, it is enough to show it of bytes from what the code point in front of
them leaves. -/
theorem pieceInduction {motive : Bytes → Prop} (nil : motive [])
    (cons : ∀ lead rest, (∀ c left, takePiece lead rest = .whole c left → motive left) →
      motive (lead :: rest)) : ∀ bytes : Bytes, motive bytes
  | [] => nil
  | lead :: rest => cons lead rest fun _ left _ => pieceInduction nil cons left
  termination_by bytes => bytes.length
  decreasing_by exact Nat.lt_succ_of_le (length_le_of_takePiece ‹_›)

/-- What decoding bytes comes to that begin with a piece. -/
def Piece.decode? (bytes : Bytes) : Piece → Option (Text × Bytes)
  | .whole c left => (decodePrefix? left).map fun p => (c :: p.1, p.2)
  | .truncated => some ([], bytes)
  | .malformed => none

/-- Enough fuel for the bytes decodes all of them, behind what is already decoded. -/
theorem decodeOnto_eq_map {bytes : Bytes} {fuel : Nat} (hfuel : bytes.length ≤ fuel) (done : Text) :
    decodeOnto fuel bytes done = (decodePrefix? bytes).map fun p => (done.reverse ++ p.1, p.2) := by
  induction bytes using pieceInduction generalizing fuel done with
  | nil => cases fuel <;> simp [decodePrefix?, decodeOnto]
  | cons lead rest ih =>
    obtain ⟨fuel, rfl⟩ := Nat.exists_eq_add_one.mpr (Nat.lt_of_lt_of_le (Nat.succ_pos _) hfuel)
    rw [decodePrefix?, List.length_cons, decodeOnto, decodeOnto]
    cases hpiece : takePiece lead rest with
    | whole c left =>
      have hleft := length_le_of_takePiece hpiece
      have hrest := Nat.le_of_succ_le_succ hfuel
      dsimp only
      rw [ih c left hpiece (Nat.le_trans hleft hrest), ih c left hpiece hleft, Option.map_map]
      congr 1
      funext p
      simp
    | truncated => simp
    | malformed => rfl

theorem decodePrefix?_nil : decodePrefix? [] = some ([], []) := rfl

/-- Decoding takes one code point off and goes on. -/
theorem decodePrefix?_cons (lead : UInt8) (rest : Bytes) :
    decodePrefix? (lead :: rest) = (takePiece lead rest).decode? (lead :: rest) := by
  rw [decodePrefix?, List.length_cons, decodeOnto]
  cases hpiece : takePiece lead rest with
  | whole c left => exact decodeOnto_eq_map (length_le_of_takePiece hpiece) [c]
  | truncated => rfl
  | malformed => rfl

/-- Decoding goes on behind a cut with the truncated end of what is in front of it. -/
theorem decodePrefix?_append (bytes more : Bytes) :
    decodePrefix? (bytes ++ more) =
      (decodePrefix? bytes).bind fun p => (decodePrefix? (p.2 ++ more)).map fun q => (p.1 ++ q.1, q.2) := by
  induction bytes using pieceInduction with
  | nil => simp [decodePrefix?_nil]
  | cons lead rest ih =>
    have hnext := takePiece_append lead rest more
    rw [List.cons_append, decodePrefix?_cons, decodePrefix?_cons]
    cases hpiece : takePiece lead rest with
    | whole c left =>
      rw [hpiece] at hnext
      rw [show takePiece lead (rest ++ more) = _ from hnext, Piece.decode?, ih c left hpiece, Piece.decode?]
      cases decodePrefix? left <;> simp [Function.comp_def]
    | truncated => simp [Piece.decode?, decodePrefix?_cons]
    | malformed =>
      rw [hpiece] at hnext
      rw [show takePiece lead (rest ++ more) = _ from hnext]
      rfl

/-- The end that decoding leaves is truncated. -/
theorem decodePrefix?_left {bytes : Bytes} {t : Text} {held : Bytes}
    (h : decodePrefix? bytes = some (t, held)) : decodePrefix? held = some ([], held) := by
  induction bytes using pieceInduction generalizing t with
  | nil =>
    cases h
    rfl
  | cons lead rest ih =>
    rw [decodePrefix?_cons] at h
    cases hpiece : takePiece lead rest with
    | whole c left =>
      rw [hpiece] at h
      obtain ⟨p, hp, he⟩ := Option.map_eq_some_iff.mp h
      cases he
      exact ih c left hpiece hp
    | truncated =>
      rw [hpiece] at h
      cases h
      rw [decodePrefix?_cons, hpiece]
      rfl
    | malformed =>
      rw [hpiece] at h
      cases h

end Utf8

/-! ### Line ends behind a cut -/

/-- Whether the last code point that was read is a carriage return. -/
def endsInReturn : Bool → Text → Bool
  | wasReturn, [] => wasReturn
  | _, c :: t => endsInReturn (decide (c = carriageReturn)) t

theorem endsInReturn_append_single (wasReturn : Bool) (t : Text) (c : CodePoint) :
    endsInReturn wasReturn (t ++ [c]) = decide (c = carriageReturn) := by
  induction t generalizing wasReturn with
  | nil => rfl
  | cons d t ih => exact ih _

/-- What is already done stays in front. -/
theorem normalizeOnto_eq_append (wasReturn : Bool) (t done : Text) :
    normalizeOnto wasReturn t done = done.reverse ++ normalizeOnto wasReturn t [] := by
  induction t generalizing wasReturn done with
  | nil => simp [normalizeOnto]
  | cons c t ih =>
    simp only [normalizeOnto]
    split
    · rw [ih true (newline :: done), ih true [newline]]
      simp
    · split
      · exact ih false done
      · rw [ih false (c :: done), ih false [c]]
        simp

/-- Line ends behind a cut depend on nothing in front of it but the last code point. -/
theorem normalizeOnto_append (wasReturn : Bool) (t u : Text) :
    normalizeOnto wasReturn (t ++ u) [] =
      normalizeOnto wasReturn t [] ++ normalizeOnto (endsInReturn wasReturn t) u [] := by
  induction t generalizing wasReturn with
  | nil => rfl
  | cons c t ih =>
    rw [List.cons_append, normalizeOnto, normalizeOnto, endsInReturn]
    split
    next hc =>
      rw [normalizeOnto_eq_append, normalizeOnto_eq_append true t, ih, List.append_assoc, hc]
      rfl
    next hc =>
      rw [decide_eq_false hc]
      split
      next => exact ih false
      next =>
        rw [normalizeOnto_eq_append, normalizeOnto_eq_append false t, ih, List.append_assoc]

/-- A carriage return is a line end whatever is in front of it. -/
theorem normalizeOnto_carriageReturn (wasReturn : Bool) (t : Text) :
    normalizeOnto wasReturn (carriageReturn :: t) [] = normalizeNewlines (carriageReturn :: t) := by
  simp [normalizeNewlines, normalizeOnto]

/-- The line ends of a portion and those of what follows it, behind what was kept back, are those of both. -/
theorem normalizePortion_append (isHeld : Bool) (t u : Text) :
    (normalizePortion isHeld t).1 ++ normalizeNewlines (afterReturn (normalizePortion isHeld t).2 u) =
      normalizeNewlines (afterReturn isHeld (t ++ u)) := by
  rcases List.eq_nil_or_concat t with rfl | ⟨front, c, rfl⟩
  · simp [normalizePortion, normalizeNewlines]
  · rw [List.concat_eq_append]
    have hcut : ∀ u, afterReturn isHeld (front ++ u) = afterReturn isHeld front ++ u := by
      intro u
      cases isHeld <;> rfl
    by_cases hc : c = carriageReturn
    · have hportion : normalizePortion isHeld (front ++ [c]) =
          (normalizeNewlines (afterReturn isHeld front), true) := by
        simp [normalizePortion, hc, hcut]
      rw [hportion, hc, List.append_assoc, hcut]
      show _ ++ normalizeNewlines (carriageReturn :: u) = normalizeOnto false (_ ++ carriageReturn :: u) []
      rw [normalizeOnto_append, normalizeOnto_carriageReturn]
      rfl
    · have hportion : normalizePortion isHeld (front ++ [c]) =
          (normalizeNewlines (afterReturn isHeld (front ++ [c])), false) := by
        simp [normalizePortion, hc]
      rw [hportion]
      show _ ++ normalizeNewlines u = normalizeNewlines (afterReturn isHeld (front ++ [c] ++ u))
      have hends : endsInReturn false (afterReturn isHeld (front ++ [c])) = false := by
        rw [hcut, endsInReturn_append_single]
        exact decide_eq_false hc
      have hwhole : afterReturn isHeld (front ++ [c] ++ u) = afterReturn isHeld (front ++ [c]) ++ u := by
        rw [List.append_assoc, hcut, hcut, List.append_assoc]
      rw [hwhole, normalizeNewlines, normalizeNewlines, normalizeNewlines, normalizeOnto_append, hends]

/-! ### Lines -/

/-- A text without line feeds is a line of its own. -/
theorem splitLine_of_not_mem {t : Text} (h : newline ∉ t) : splitLine t = (t, []) := by
  have htake : t.takeWhile (fun c => decide (c ≠ newline)) = t := by
    rw [List.takeWhile_eq_self_iff]
    exact fun c hc => decide_eq_true fun he => h (he ▸ hc)
  simp only [splitLine, htake, List.drop_length]

/-- The first line of a text goes through the first line feed. -/
theorem splitLine_append {line : Text} (h : newline ∉ line) (rest : Text) :
    splitLine (line ++ newline :: rest) = (line ++ [newline], rest) := by
  have htake : (line ++ newline :: rest).takeWhile (fun c => decide (c ≠ newline)) = line := by
    rw [List.takeWhile_append_of_pos]
    · simp
    · intro c hc
      exact decide_eq_true fun he => h (he ▸ hc)
  simp only [splitLine, htake, List.drop_left]

namespace Demand

/-- A demand that a text meets takes the same off a longer text. -/
theorem split_append_of_met {demand : Demand} {t : Text} (h : demand.after? (demand.split t).1 = none)
    (u : Text) : demand.split (t ++ u) = ((demand.split t).1, (demand.split t).2 ++ u) := by
  cases demand with
  | points count =>
    simp only [split, after?, List.length_take, ite_eq_left_iff, reduceCtorEq, imp_false, not_not] at h
    have hle : count ≤ t.length := Nat.le_trans h (Nat.min_le_right _ _)
    simp only [split, List.take_append_of_le_length hle, List.drop_append_of_le_length hle]
  | line =>
    by_cases hmem : newline ∈ t
    · obtain ⟨line, rest, rfl, hline⟩ := List.eq_append_cons_of_mem hmem
      have hlong : line ++ newline :: rest ++ u = line ++ newline :: (rest ++ u) := by simp
      rw [hlong, split, split, splitLine_append hline, splitLine_append hline]
    · rw [split, splitLine_of_not_mem hmem, after?] at h
      have hlast : t.getLast? = some newline := by simpa using h
      exact absurd (List.mem_of_getLast? hlast) hmem

/-- What is still asked for of a line is a line. -/
theorem eq_line_of_after? {out : Text} {rest : Demand} (h : Demand.line.after? out = some rest) :
    rest = .line := by
  rw [after?] at h
  split at h
  · cases h
  · exact (Option.some.inj h).symm

/-- A demand that a text does not meet takes all of it and goes on with what follows. -/
theorem split_append_of_unmet {demand rest : Demand} {t : Text}
    (h : demand.after? (demand.split t).1 = some rest) :
    demand.split t = (t, []) ∧
      ∀ u, demand.split (t ++ u) = (t ++ (rest.split u).1, (rest.split u).2) := by
  cases demand with
  | points count =>
    simp only [split, after?, List.length_take] at h
    split at h
    · cases h
    · cases h
      have hle : t.length ≤ count := by omega
      have htake : t.take count = t := List.take_of_length_le hle
      refine ⟨by simp [split, hle, htake], fun u => ?_⟩
      simp [split, List.take_append, List.drop_append, hle, htake]
  | line =>
    by_cases hmem : newline ∈ t
    · obtain ⟨line, more, rfl, hline⟩ := List.eq_append_cons_of_mem hmem
      rw [split, splitLine_append hline, after?] at h
      simp at h
    · obtain rfl := eq_line_of_after? h
      refine ⟨by rw [split, splitLine_of_not_mem hmem], fun u => ?_⟩
      by_cases hmem' : newline ∈ u
      · obtain ⟨line, more, rfl, hline⟩ := List.eq_append_cons_of_mem hmem'
        have hfront : newline ∉ t ++ line := by simp [hmem, hline]
        rw [← List.append_assoc, split, split, splitLine_append hfront, splitLine_append hline,
          List.append_assoc]
      · have hnone : newline ∉ t ++ u := by simp [hmem, hmem']
        rw [split, split, splitLine_of_not_mem hnone, splitLine_of_not_mem hmem']

theorem split_nil (demand : Demand) : demand.split [] = ([], []) := by
  cases demand with
  | points count => simp [split]
  | line => rfl

end Demand

namespace FileReader

/-! ### What remains of a file -/

/-- The text that is still to be read from a file with this content. -/
structure Remains (content : Bytes) (r : FileReader) (t : Text) : Prop where
  /-- What waits for more bytes is the beginning of a sequence. -/
  heldTruncated : Utf8.decodePrefix? r.held = some ([], r.held)
  /-- Behind what is ready comes what the other bytes decode to. -/
  decoded : ∃ u, Utf8.decode? (r.held ++ content.drop r.taken) = some u ∧
    t = r.ready ++ normalizeNewlines (afterReturn r.holdsReturn u)

/-- Before its first byte a file has all its text to be read. -/
theorem remains_start {content : Bytes} {u : Text} (h : Utf8.decode? content = some u)
    (place : Location) : (start place).Remains content (normalizeNewlines u) :=
  ⟨rfl, u, h, rfl⟩

theorem decode?_eq_some_iff {bytes : Bytes} {t : Text} :
    Utf8.decode? bytes = some t ↔ Utf8.decodePrefix? bytes = some (t, []) := by
  unfold Utf8.decode?
  split
  next h => simp [h]
  next hne =>
    constructor
    · intro h
      cases h
    · intro h
      exact (hne t h).elim

/-- The bytes of a portion give some of the remaining text. -/
theorem Remains.takeIn {content : Bytes} {r : FileReader} {t : Text} (h : r.Remains content t)
    (hready : r.ready = []) (size : Nat) :
    ∃ next, r.takeIn ((content.drop r.taken).take size) = .more next ∧ next.Remains content t := by
  obtain ⟨u, hu, rfl⟩ := h.decoded
  obtain ⟨fresh, hfresh⟩ : ∃ fresh, fresh = (content.drop r.taken).take size := ⟨_, rfl⟩
  have hcut : content.drop r.taken = fresh ++ content.drop (r.taken + fresh.length) := by
    rw [← List.drop_drop, hfresh]
    exact (List.prefix_iff_eq_append.mp (List.take_prefix _ _)).symm
  rw [decode?_eq_some_iff, hcut, ← List.append_assoc, Utf8.decodePrefix?_append] at hu
  obtain ⟨⟨front, held⟩, hfront, hrest⟩ := Option.bind_eq_some_iff.mp hu
  obtain ⟨⟨back, left⟩, hback, he⟩ := Option.map_eq_some_iff.mp hrest
  cases he
  rw [← hfresh, FileReader.takeIn, hfront]
  refine ⟨_, rfl, Utf8.decodePrefix?_left hfront, back, decode?_eq_some_iff.mpr hback, ?_⟩
  rw [hready, List.nil_append]
  exact (normalizePortion_append r.holdsReturn front back).symm

/-- Behind the last byte there is nothing but a carriage return that was kept back. -/
theorem Remains.atEnd {content : Bytes} {r : FileReader} {t : Text} (h : r.Remains content t)
    (hready : r.ready = []) (hend : content.drop r.taken = []) :
    (∃ next, r.atEnd = .more next ∧ next.Remains content t) ∨
    (∃ next, r.atEnd = .finished next ∧ t = [] ∧ next.Remains content []) := by
  obtain ⟨u, hu, rfl⟩ := h.decoded
  rw [hend, List.append_nil, decode?_eq_some_iff, h.heldTruncated] at hu
  obtain ⟨rfl, hheld⟩ := Prod.mk.inj (Option.some.inj hu)
  rw [hready, FileReader.atEnd, hheld]
  cases hreturn : r.holdsReturn with
  | true => exact Or.inl ⟨_, rfl, rfl, [], by rw [hend]; rfl, rfl⟩
  | false => exact Or.inr ⟨_, rfl, rfl, rfl, [], by rw [hend]; rfl, rfl⟩

/-- What a portion of a file with remaining text comes to: some of that text, the end if there is none, or a
refusal of its size. -/
theorem Remains.portion {content : Bytes} {r : FileReader} {t : Text} (h : r.Remains content t)
    (hready : r.ready = []) (count : Nat) :
    (∃ next, r.portion content count = .more next ∧ next.Remains content t) ∨
    (∃ next, r.portion content count = .finished next ∧ t = [] ∧ next.Remains content []) ∨
    (r.portion content count = .refused .outOfMemory r ∧ maxPortion < r.portionSize count) := by
  unfold FileReader.portion
  dsimp only
  split
  next hsize => exact Or.inr (Or.inr ⟨rfl, hsize⟩)
  next =>
    split
    next hempty =>
      have husual : 0 < usualPortion := by decide
      have hpos : r.portionSize count ≠ 0 := Nat.ne_of_gt (Nat.lt_of_lt_of_le husual (Nat.le_max_left _ _))
      have hend : content.drop r.taken = [] :=
        (List.take_eq_nil_iff.mp (List.isEmpty_iff.mp hempty)).resolve_left hpos
      rcases h.atEnd hready hend with hmore | hfinished
      · exact Or.inl hmore
      · exact Or.inr (Or.inl hfinished)
    next => exact Or.inl (h.takeIn hready _)

/-- A demand that the ready text meets takes no portion. -/
theorem read_of_met {r : FileReader} {demand : Demand} (content : Bytes) (pieces : List Text)
    (h : demand.after? (demand.split r.ready).1 = none) :
    r.read content demand pieces = ⟨.ok (Text.gathered ((demand.split r.ready).1 :: pieces)),
      { r with ready := (demand.split r.ready).2 }⟩ := by
  rw [FileReader.read]
  simp only [h]

/-- A demand that the ready text does not meet goes on with the next portion. -/
theorem read_of_unmet {r : FileReader} {demand rest : Demand} (content : Bytes) (pieces : List Text)
    (h : demand.after? (demand.split r.ready).1 = some rest) :
    r.read content demand pieces =
      match ({ r with ready := (demand.split r.ready).2 } : FileReader).portion content rest.count with
      | .more next => next.read content rest ((demand.split r.ready).1 :: pieces)
      | .finished next => ⟨.ok (Text.gathered ((demand.split r.ready).1 :: pieces)), next⟩
      | .refused fault next => ⟨.error fault, next⟩ := by
  rw [FileReader.read]
  simp only [h]
  split <;> simp only [*]

/-- Nothing is rounded to nothing. -/
theorem significant_zero (den : Nat) : (significant 0 den).1 = 0 := by
  have hnearest : ∀ d, nearest 0 d = 0 := by simp [nearest]
  unfold significant
  extract_lets size scale scale'
  split
  · show nearest (0 * scale) den = 0
    rw [Nat.zero_mul, hnearest]
  · show nearest 0 (den * scale') * scale' = 0
    rw [hnearest, Nat.zero_mul]

/-- An estimate is the product of two rounded quotients, rounded once more. -/
theorem estimatedProduct_eq (num den count : Nat) :
    estimatedProduct num den count =
      (significant ((significant num den).1 * (significant count 1).1)
        ((significant num den).2 * (significant count 1).2)).1 /
      (significant ((significant num den).1 * (significant count 1).1)
        ((significant num den).2 * (significant count 1).2)).2 := rfl

/-- No code points are expected to take no bytes. -/
theorem estimatedProduct_zero (num den : Nat) : estimatedProduct num den 0 = 0 := by
  rw [estimatedProduct_eq, significant_zero 1, Nat.mul_zero, significant_zero, Nat.zero_div]

/-- A portion for a line has the usual size. -/
theorem portionSize_zero (r : FileReader) : r.portionSize 0 = usualPortion := by
  have hexpected : r.expectedBytes 0 = 0 := by
    simp only [expectedBytes, estimatedProduct_zero, ite_self]
  rw [portionSize, hexpected, Nat.max_zero]

/-- Reading what is demanded takes it off the remaining text. Only a demand for a number of code points may be
refused, when a portion for them is too large; what has been read of it is then lost. -/
theorem Remains.read {content : Bytes} {r : FileReader} {t : Text} (h : r.Remains content t)
    (demand : Demand) (pieces : List Text) :
    (demand ≠ .line ∧ (r.read content demand pieces).outcome = .error .outOfMemory ∧
      ∃ lost stay, t = lost ++ stay ∧ (r.read content demand pieces).after.Remains content stay) ∨
    ((r.read content demand pieces).outcome = .ok (Text.gathered pieces ++ (demand.split t).1) ∧
      (r.read content demand pieces).after.Remains content (demand.split t).2) := by
  -- By what is left of the content: each portion takes something off it, while ready text and demand vary.
  induction hleft : r.left content using Nat.strongRecOn generalizing r t demand pieces with
  | ind n ih =>
    obtain ⟨u, hu, rfl⟩ := h.decoded
    have hgathered : Text.gathered ((demand.split r.ready).1 :: pieces) =
        Text.gathered pieces ++ (demand.split r.ready).1 := by
      simp [Text.gathered]
    cases hafter : demand.after? (demand.split r.ready).1 with
    | none =>
      rw [read_of_met content pieces hafter, Demand.split_append_of_met hafter, hgathered]
      exact Or.inr ⟨rfl, h.heldTruncated, u, hu, rfl⟩
    | some rest =>
      obtain ⟨hall, hsplit⟩ := Demand.split_append_of_unmet hafter
      have hline : demand = .line → rest = .line := by
        rintro rfl
        exact Demand.eq_line_of_after? hafter
      -- What is ready does not meet the demand. It is given out, and a portion for the rest of the demand is read.
      have hstay : ({ r with ready := [] } : FileReader).Remains content
          (normalizeNewlines (afterReturn r.holdsReturn u)) := ⟨h.heldTruncated, u, hu, rfl⟩
      rw [read_of_unmet content pieces hafter, hgathered, hsplit, hall, ← List.append_assoc]
      dsimp only
      rcases hstay.portion rfl rest.count with ⟨next, hp, hnext⟩ | ⟨next, hp, hnil, hnext⟩ | ⟨hp, hsize⟩
      · rw [hp]
        have hless : next.left content < ({ r with ready := [] } : FileReader).left content :=
          left_lt_of_portion hp
        rw [hall] at hgathered
        rcases ih _ (hleft ▸ hless) hnext rest (r.ready :: pieces) rfl with
          ⟨hne, hrefused, lost, stay, hlost, hremains⟩ | ⟨hok, hremains⟩
        · refine Or.inl ⟨fun he => hne (hline he), hrefused, r.ready ++ lost, stay, ?_, hremains⟩
          rw [hlost, List.append_assoc]
        · rw [hgathered] at hok
          exact Or.inr ⟨hok, hremains⟩
      · rw [hp, hnil, Demand.split_nil]
        exact Or.inr ⟨by rw [List.append_nil], hnext⟩
      · rw [hp]
        refine Or.inl ⟨fun he => ?_, rfl, r.ready, _, rfl, hstay⟩
        rw [hline he, Demand.count, portionSize_zero] at hsize
        exact absurd hsize (by decide)

/-- Reading all there is gives the remaining text and leaves nothing. -/
theorem Remains.readAll {content : Bytes} {r : FileReader} {t : Text} (h : r.Remains content t) :
    (r.readAll content).outcome = .ok t ∧ (r.readAll content).after.Remains content [] := by
  obtain ⟨u, hu, rfl⟩ := h.decoded
  have hend : content.drop (r.taken + (content.drop r.taken).length) = [] := by
    rw [List.length_drop, List.drop_eq_nil_iff]
    omega
  rw [FileReader.readAll, hu]
  refine ⟨rfl, rfl, [], ?_, rfl⟩
  show Utf8.decode? ([] ++ content.drop (r.taken + (content.drop r.taken).length)) = some []
  rw [hend]
  rfl

end FileReader

end Lisplet
