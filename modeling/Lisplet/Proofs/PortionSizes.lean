import Mathlib.Tactic.Ring
import Lisplet.Proofs.Portions

/-!
# Sizes of portions

A portion for many code points has as many bytes as they are expected to take. The estimate goes by the
portion before, and a code point there took few bytes: four at most in the text, twice as many where two make
one line end, and some for what was cut off. So an estimate is a small multiple of the count, and a count has to
be large for its portion to be more than memory can hold.
-/

namespace Lisplet

/-! ### Bytes and code points -/

namespace Utf8

/-- A code point takes four bytes at most. -/
theorem length_le_add_of_takePiece {lead : UInt8} {rest left : Bytes} {c : CodePoint}
    (h : takePiece lead rest = .whole c left) : rest.length ≤ left.length + 3 := by
  unfold takePiece at h
  dsimp only at h
  repeat' split at h
  all_goals
    simp only [Piece.whole.injEq, reduceCtorEq] at h
  all_goals
    obtain ⟨-, rfl⟩ := h
    grind

/-- A truncated sequence has three bytes at most. -/
theorem length_le_of_truncated {lead : UInt8} {rest : Bytes} (h : takePiece lead rest = .truncated) :
    rest.length ≤ 2 := by
  unfold takePiece at h
  dsimp only at h
  repeat' split at h
  all_goals
    simp only [reduceCtorEq] at h
  all_goals
    simp only [List.length_cons, List.length_nil]
    omega

/-- Bytes are four for each code point at most, and those of a truncated sequence. -/
theorem length_le_of_decodePrefix? {bytes : Bytes} {t : Text} {held : Bytes}
    (h : decodePrefix? bytes = some (t, held)) : bytes.length ≤ 4 * t.length + 3 := by
  induction bytes using pieceInduction generalizing t with
  | nil => exact Nat.zero_le _
  | cons lead rest ih =>
    rw [decodePrefix?_cons] at h
    cases hpiece : takePiece lead rest with
    | whole c left =>
      rw [hpiece] at h
      obtain ⟨p, hp, he⟩ := Option.map_eq_some_iff.mp h
      cases he
      have hleft := ih c left hpiece hp
      have hrest := length_le_add_of_takePiece hpiece
      simp only [List.length_cons]
      omega
    | truncated =>
      have hrest := length_le_of_truncated hpiece
      simp only [List.length_cons]
      omega
    | malformed =>
      rw [hpiece] at h
      cases h

end Utf8

/-- Two code points at most make one, and a line feed is dropped behind an answered carriage return. -/
theorem length_le_of_normalizeOnto (wasReturn : Bool) (t : Text) :
    t.length ≤ 2 * (normalizeOnto wasReturn t []).length + wasReturn.toNat := by
  induction t generalizing wasReturn with
  | nil => exact Nat.zero_le _
  | cons c t ih =>
    rw [normalizeOnto]
    split
    next =>
      have h := ih true
      rw [normalizeOnto_eq_append]
      simp only [List.length_cons, List.length_append, List.length_reverse, List.length_nil, Bool.toNat_true] at *
      omega
    next =>
      split
      next hreturn =>
        have h := ih false
        rw [hreturn.2]
        simp only [List.length_cons, Bool.toNat_true, Bool.toNat_false] at *
        omega
      next =>
        have h := ih false
        rw [normalizeOnto_eq_append]
        simp only [List.length_cons, List.length_append, List.length_reverse, List.length_nil,
          Bool.toNat_false] at *
        omega

theorem length_le_of_normalizePortion (isHeld : Bool) (t : Text) :
    t.length ≤ 2 * (normalizePortion isHeld t).1.length + 1 := by
  have hbehind : t.length ≤ (afterReturn isHeld t).length := by
    cases isHeld
    · exact Nat.le_refl _
    · exact Nat.le_succ _
  unfold normalizePortion
  split
  next hempty =>
    rw [List.isEmpty_iff.mp hempty]
    exact Nat.zero_le _
  next =>
    split
    next =>
      have h := length_le_of_normalizeOnto false (afterReturn isHeld t).dropLast
      simp only [List.length_dropLast, Bool.toNat_false, normalizeNewlines] at *
      omega
    next =>
      have h := length_le_of_normalizeOnto false (afterReturn isHeld t)
      simp only [Bool.toNat_false, normalizeNewlines] at *
      omega

/-! ### Estimates -/

theorem significant_pos (num den : Nat) : 0 < (significant num den).2 := by
  unfold significant
  extract_lets size scale scale'
  split
  · exact Nat.pow_pos (by decide)
  · exact Nat.one_pos

/-- Rounding adds less than the quotient and one. -/
theorem significant_le (num : Nat) {den : Nat} (hden : 0 < den) :
    (significant num den).1 * den ≤ (2 * num + den) * (significant num den).2 := by
  unfold significant
  extract_lets size scale scale'
  split
  next =>
    -- The error is half a unit, and units are not larger than one.
    have hnearest := (nearest_le_and_le (num * scale) hden).1
    have hscale : 0 < scale := Nat.pow_pos (by decide)
    have hunit : den ≤ den * scale := Nat.le_mul_of_pos_right den hscale
    show nearest (num * scale) den * den ≤ (2 * num + den) * scale
    rw [Nat.mul_comm _ den, Nat.add_mul, Nat.mul_assoc 2]
    omega
  next hsize =>
    -- The error is half a unit, and a unit is not larger than the quotient.
    have hscale : 0 < scale' := Nat.pow_pos (by decide)
    have hnearest := (nearest_le_and_le num (Nat.mul_pos hden hscale)).1
    have hquotient : num / den ≠ 0 := by
      intro hzero
      exact hsize (by rw [show size = Nat.log2 0 by rw [← hzero]]; decide)
    have hunit : scale' ≤ num / den :=
      Nat.le_trans (Nat.pow_le_pow_right (by decide) (Nat.sub_le _ _)) (Nat.log2_self_le hquotient)
    have hnum : den * scale' ≤ num :=
      Nat.le_trans (Nat.mul_le_mul_left den hunit) (Nat.mul_div_le num den)
    show nearest num (den * scale') * scale' * den ≤ (2 * num + den) * 1
    rw [Nat.mul_assoc, Nat.mul_comm scale', Nat.mul_comm _ (den * scale'), Nat.mul_one]
    omega

/-- An estimate by at most fifteen bytes for a code point. -/
theorem estimatedProduct_le {num den : Nat} (hden : 0 < den) (h : num ≤ 15 * den) (count : Nat) :
    estimatedProduct num den count ≤ 124 * count + 63 := by
  rw [FileReader.estimatedProduct_eq]
  obtain ⟨⟨a, b⟩, hab⟩ : ∃ q, significant num den = q := ⟨_, rfl⟩
  obtain ⟨⟨c, d⟩, hcd⟩ : ∃ q, significant count 1 = q := ⟨_, rfl⟩
  -- Each of the three roundings adds less than the quotient and one.
  have hrate := significant_le num hden
  have hcount := significant_le count Nat.one_pos
  have hb := significant_pos num den
  have hd := significant_pos count 1
  rw [hab] at hrate hb ⊢
  rw [hcd] at hcount hd ⊢
  dsimp only at *
  have ha : a ≤ 31 * b := by
    refine Nat.le_of_mul_le_mul_right ?_ hden
    calc a * den ≤ (2 * num + den) * b := hrate
      _ ≤ 31 * den * b := Nat.mul_le_mul_right b (by omega)
      _ = 31 * b * den := by rw [Nat.mul_right_comm]
  have hc : c ≤ (2 * count + 1) * d := by rwa [Nat.mul_one] at hcount
  have hproduct : a * c ≤ 31 * (2 * count + 1) * (b * d) := by
    calc a * c ≤ 31 * b * ((2 * count + 1) * d) := Nat.mul_le_mul ha hc
      _ = 31 * (2 * count + 1) * (b * d) := by rw [Nat.mul_mul_mul_comm]
  have hrounded := significant_le (a * c) (Nat.mul_pos hb hd)
  obtain ⟨⟨p, q⟩, hpq⟩ : ∃ r, significant (a * c) (b * d) = r := ⟨_, rfl⟩
  have hq := significant_pos (a * c) (b * d)
  rw [hpq] at hrounded hq ⊢
  refine Nat.div_le_of_le_mul ?_
  refine Nat.le_of_mul_le_mul_right ?_ (Nat.mul_pos hb hd)
  calc p * (b * d) ≤ (2 * (a * c) + b * d) * q := hrounded
    _ ≤ (124 * count + 63) * (b * d) * q := Nat.mul_le_mul_right q (by
      have h62 : 2 * (31 * (2 * count + 1) * (b * d)) + b * d = (124 * count + 63) * (b * d) := by ring
      omega)
    _ = q * (124 * count + 63) * (b * d) := by ring

/-- What is still asked for is for no more code points than what was asked. -/
theorem Demand.count_le_of_after? {demand rest : Demand} {out : Text} (h : demand.after? out = some rest) :
    rest.count ≤ demand.count := by
  cases demand with
  | points count =>
    rw [after?] at h
    split at h
    · cases h
    · cases h
      exact Nat.sub_le _ _
  | line =>
    rw [eq_line_of_after? h]

namespace FileReader

/-! ### Readers -/

/-- What a reader knows of the portion before: no code point took more than fifteen bytes. -/
def IsPaced (r : FileReader) : Prop := r.portionPoints = 0 ∨ r.portionBytes ≤ 15 * r.portionPoints

/-- Up to so many code points memory can hold the portion that is taken for them. -/
def safeCount : Nat := Nat.pow 2 28

theorem IsPaced.portionSize_le {r : FileReader} (h : r.IsPaced) {count : Nat} (hcount : count ≤ safeCount) :
    r.portionSize count ≤ maxPortion := by
  have hlimit : ∀ n, n ≤ 124 * count + 63 → n ≤ maxPortion := by
    intro n hn
    have hmax : maxPortion = 128 * safeCount := by decide
    have hsafe : 63 ≤ 4 * safeCount := by decide
    omega
  have husual : usualPortion ≤ maxPortion := by decide
  refine Nat.max_le.mpr ⟨husual, ?_⟩
  unfold expectedBytes
  extract_lets size
  have hsize : size ≤ maxPortion := by
    refine hlimit _ ?_
    show (if _ then _ else _) ≤ _
    split
    next => exact estimatedProduct_le Nat.one_pos (by decide) count
    next hmany =>
      have hpoints : r.portionPoints ≠ 0 := fun hzero => hmany (.inl hzero)
      exact estimatedProduct_le (Nat.pos_of_ne_zero hpoints) (h.resolve_left hpoints) count
  split
  · exact hsize
  · exact Nat.zero_le _

/-- The file after taking a portion. -/
def Portion.reader : Portion → FileReader
  | .more r | .finished r | .refused _ r => r

/-- A property of readers that taking ready text off and taking portions keep. -/
structure IsKept (content : Bytes) (P : FileReader → Prop) : Prop where
  ready {r : FileReader} (stay : Text) (h : P r) : P { r with ready := stay }
  portion {r : FileReader} (count : Nat) (h : P r) : P (r.portion content count).reader

/-- What portions keep is kept by reading, and where reading is refused, a portion is of such a reader and for
no more code points than are demanded. -/
theorem IsKept.read {content : Bytes} {P : FileReader → Prop} (hkept : IsKept content P) {r : FileReader}
    (h : P r) (demand : Demand) (pieces : List Text) :
    P (r.read content demand pieces).after ∧
      ∀ fault, (r.read content demand pieces).outcome = .error fault →
        ∃ r' next count, P r' ∧ count ≤ demand.count ∧ r'.portion content count = .refused fault next := by
  -- By what is left of the content, as a portion takes some of it.
  induction hleft : r.left content using Nat.strongRecOn generalizing r demand pieces with
  | ind n ih =>
    cases hafter : demand.after? (demand.split r.ready).1 with
    | none =>
      rw [read_of_met content pieces hafter]
      exact ⟨hkept.ready _ h, nofun⟩
    | some rest =>
      have hcount := Demand.count_le_of_after? hafter
      have hready := hkept.ready (demand.split r.ready).2 h
      have hportion := hkept.portion rest.count hready
      rw [read_of_unmet content pieces hafter]
      cases hp : ({ r with ready := (demand.split r.ready).2 } : FileReader).portion content rest.count with
      | more next =>
        rw [hp] at hportion
        have hless : next.left content < ({ r with ready := (demand.split r.ready).2 } : FileReader).left content :=
          left_lt_of_portion hp
        obtain ⟨hnext, hrefused⟩ := ih _ (hleft ▸ hless) hportion rest _ rfl
        refine ⟨hnext, fun fault hfault => ?_⟩
        obtain ⟨r', next', count, hr', hle, hrefuses⟩ := hrefused fault hfault
        exact ⟨r', next', count, hr', Nat.le_trans hle hcount, hrefuses⟩
      | finished next =>
        rw [hp] at hportion
        exact ⟨hportion, nofun⟩
      | refused fault next =>
        rw [hp] at hportion
        refine ⟨hportion, ?_⟩
        rintro _ ⟨⟩
        exact ⟨_, next, rest.count, hready, hcount, hp⟩

theorem IsPaced.takeIn {r : FileReader} (h : r.IsPaced) (fresh : Bytes) : (r.takeIn fresh).reader.IsPaced := by
  unfold FileReader.takeIn
  dsimp only
  split
  next => exact h
  next t held hdecode =>
    have hbytes := Utf8.length_le_of_decodePrefix? hdecode
    have hpoints := length_le_of_normalizePortion r.holdsReturn t
    rw [List.length_append] at hbytes
    show (normalizePortion r.holdsReturn t).1.length = 0 ∨
      fresh.length ≤ 15 * (normalizePortion r.holdsReturn t).1.length
    omega

theorem place_takeIn (r : FileReader) (fresh : Bytes) : (r.takeIn fresh).reader.place = r.place := by
  unfold FileReader.takeIn
  dsimp only
  split <;> rfl

theorem IsPaced.atEnd {r : FileReader} (h : r.IsPaced) : r.atEnd.reader.IsPaced := by
  unfold FileReader.atEnd
  split
  · exact h
  · split
    · exact Or.inr (Nat.zero_le _)
    · exact Or.inl rfl

theorem place_atEnd (r : FileReader) : r.atEnd.reader.place = r.place := by
  unfold FileReader.atEnd
  split
  · rfl
  · split <;> rfl

/-- A reader stays at its file, and its pace within the bound. -/
theorem isKept_place_and_isPaced (content : Bytes) (place : Location) :
    IsKept content fun r => r.place = place ∧ r.IsPaced where
  ready _ h := h
  portion {r} count h := by
    unfold FileReader.portion
    dsimp only
    split
    · exact h
    · split
      · exact ⟨(place_atEnd r).trans h.1, h.2.atEnd⟩
      · exact ⟨(place_takeIn r _).trans h.1, h.2.takeIn _⟩

/-- Reading keeps the pace within the bound and stays at the file. -/
theorem IsPaced.read {r : FileReader} (h : r.IsPaced) (content : Bytes) (demand : Demand) (pieces : List Text) :
    (r.read content demand pieces).after.place = r.place ∧ (r.read content demand pieces).after.IsPaced :=
  ((isKept_place_and_isPaced content r.place).read ⟨rfl, h⟩ demand pieces).1

theorem IsPaced.readAll {r : FileReader} (h : r.IsPaced) (content : Bytes) :
    (r.readAll content).after.place = r.place ∧ (r.readAll content).after.IsPaced := by
  unfold FileReader.readAll
  dsimp only
  split <;> exact ⟨rfl, h⟩

/-- Memory refuses none but a large demand. -/
theorem IsPaced.safeCount_lt {r : FileReader} (h : r.IsPaced) {content : Bytes} {demand : Demand}
    {pieces : List Text} (hread : (r.read content demand pieces).outcome = .error .outOfMemory) :
    safeCount < demand.count := by
  obtain ⟨r', next, count, ⟨-, hpaced⟩, hcount, hportion⟩ :=
    ((isKept_place_and_isPaced content r.place).read ⟨rfl, h⟩ demand pieces).2 _ hread
  refine Nat.lt_of_not_le fun hsafe => ?_
  have hsize := hpaced.portionSize_le (Nat.le_trans hcount hsafe)
  unfold FileReader.portion at hportion
  dsimp only at hportion
  rw [if_neg (Nat.not_lt.mpr hsize)] at hportion
  split at hportion
  · unfold FileReader.atEnd at hportion
    split at hportion
    · cases hportion
    · split at hportion <;> cases hportion
  · unfold FileReader.takeIn at hportion
    dsimp only at hportion
    split at hportion <;> cases hportion

end FileReader

end Lisplet
