import Lisplet.Primitive.System
import Mathlib.Tactic.Common

/-!
# Texts in files

A text that has an encoding is decoded from it: the bytes of each code point are taken off as one piece. So a
file that holds the bytes of a text without carriage returns is read as that text.
-/

namespace Lisplet

namespace Utf8

/-! ### One code point -/

theorem toNat_continuation (n : Nat) : (continuation n).toNat = 0x80 + n % 64 :=
  UInt8.toNat_ofNat_of_lt' (show _ < 256 by omega)

theorem isContinuation_continuation (n : Nat) : isContinuation (continuation n).toNat = true := by
  rw [toNat_continuation]
  simp only [isContinuation, Bool.and_eq_true, decide_eq_true_eq]
  omega

theorem takePiece_one {n : Nat} (h : n < 0x80) (rest : Bytes) :
    takePiece (UInt8.ofNat n) rest = .whole (CodePoint.ofNat n) rest := by
  have hlead : (UInt8.ofNat n).toNat = n := UInt8.toNat_ofNat_of_lt' (show _ < 256 by omega)
  simp only [takePiece, hlead, if_pos h]

theorem takePiece_two {n : Nat} (h : 0x80 ≤ n) (h' : n < 0x800) (rest : Bytes) :
    takePiece (UInt8.ofNat (0xC0 + n / 64)) (continuation n :: rest) = .whole (CodePoint.ofNat n) rest := by
  have hlead : (UInt8.ofNat (0xC0 + n / 64)).toNat = 0xC0 + n / 64 :=
    UInt8.toNat_ofNat_of_lt' (show _ < 256 by omega)
  have hvalue : (0xC0 + n / 64 - 0xC0) * 64 + (0x80 + n % 64 - 0x80) = n := by omega
  simp only [takePiece, hlead]
  rw [if_neg (by omega), if_neg (by omega), if_pos (by omega), if_pos (isContinuation_continuation n),
    toNat_continuation, hvalue]

/-- The second byte of three rules out forms that are too long, and surrogates. -/
theorem takePiece_three {n : Nat} (h : 0x800 ≤ n) (h' : n < 0x10000) (hn : ¬(0xD800 ≤ n ∧ n ≤ 0xDFFF))
    (rest : Bytes) :
    takePiece (UInt8.ofNat (0xE0 + n / 4096)) (continuation (n / 64) :: continuation n :: rest) =
      .whole (CodePoint.ofNat n) rest := by
  have hlead : (UInt8.ofNat (0xE0 + n / 4096)).toNat = 0xE0 + n / 4096 :=
    UInt8.toNat_ofNat_of_lt' (show _ < 256 by omega)
  have hsecond : maySecond (0xE0 + n / 4096) (continuation (n / 64)).toNat = true := by
    rw [maySecond, isContinuation_continuation, toNat_continuation, Bool.true_and]
    split
    next => exact decide_eq_true (by omega)
    next =>
      split
      next => exact decide_eq_true (by omega)
      next => rw [if_neg (by omega), if_neg (by omega)]
  have hvalue : (0xE0 + n / 4096 - 0xE0) * 4096 + (0x80 + n / 64 % 64 - 0x80) * 64 +
      (0x80 + n % 64 - 0x80) = n := by omega
  simp only [takePiece, hlead, hsecond]
  rw [if_neg (by omega), if_neg (by omega), if_neg (by omega), if_pos (by omega), if_neg (by decide),
    if_pos (isContinuation_continuation n), toNat_continuation, toNat_continuation, hvalue]

/-- The second byte of four rules out forms that are too long, and numbers beyond the last code point. -/
theorem takePiece_four {n : Nat} (h : 0x10000 ≤ n) (h' : n < 0x110000) (rest : Bytes) :
    takePiece (UInt8.ofNat (0xF0 + n / 262144))
        (continuation (n / 4096) :: continuation (n / 64) :: continuation n :: rest) =
      .whole (CodePoint.ofNat n) rest := by
  have hlead : (UInt8.ofNat (0xF0 + n / 262144)).toNat = 0xF0 + n / 262144 :=
    UInt8.toNat_ofNat_of_lt' (show _ < 256 by omega)
  have hsecond : maySecond (0xF0 + n / 262144) (continuation (n / 4096)).toNat = true := by
    rw [maySecond, isContinuation_continuation, toNat_continuation, Bool.true_and, if_neg (by omega),
      if_neg (by omega)]
    split
    next => exact decide_eq_true (by omega)
    next =>
      split
      next => exact decide_eq_true (by omega)
      next => rfl
  have hvalue : (0xF0 + n / 262144 - 0xF0) * 262144 + (0x80 + n / 4096 % 64 - 0x80) * 4096 +
      (0x80 + n / 64 % 64 - 0x80) * 64 + (0x80 + n % 64 - 0x80) = n := by omega
  simp only [takePiece, hlead, hsecond, isContinuation_continuation]
  rw [if_neg (by omega), if_neg (by omega), if_neg (by omega), if_neg (by omega), if_pos (by omega),
    if_neg (by decide), if_neg (by decide), if_pos trivial, toNat_continuation, toNat_continuation,
    toNat_continuation, hvalue]

/-- The bytes of a code point that is no surrogate are taken off as that code point. -/
theorem exists_takePiece {c : CodePoint} (hc : c.isSurrogate = false) (rest : Bytes) :
    ∃ lead more, encodeCode c.val ++ rest = lead :: more ∧ takePiece lead more = .whole c rest := by
  have hlt := c.isLt
  have hn : ¬(0xD800 ≤ c.val ∧ c.val ≤ 0xDFFF) := by
    simpa [CodePoint.isSurrogate] using hc
  have hwhole : Piece.whole (CodePoint.ofNat c.val) rest = .whole c rest := by rw [CodePoint.ofNat_val]
  unfold encodeCode
  split
  next h1 => exact ⟨_, _, rfl, (takePiece_one h1 rest).trans hwhole⟩
  next h1 =>
    split
    next h2 => exact ⟨_, _, rfl, (takePiece_two (Nat.le_of_not_lt h1) h2 rest).trans hwhole⟩
    next h2 =>
      split
      next h3 => exact ⟨_, _, rfl, (takePiece_three (Nat.le_of_not_lt h2) h3 hn rest).trans hwhole⟩
      next h3 => exact ⟨_, _, rfl, (takePiece_four (Nat.le_of_not_lt h3) hlt rest).trans hwhole⟩

/-! ### Texts -/

/-- Decoding undoes encoding, behind what is decoded already. -/
theorem decodeOnto_flatMap {t : Text} (ht : ∀ c ∈ t, c.isSurrogate = false) {fuel : Nat}
    (hfuel : t.length ≤ fuel) (done : Text) :
    decodeOnto fuel (t.flatMap fun c => encodeCode c.val) done = some (done.reverse ++ t, []) := by
  induction t generalizing fuel done with
  | nil =>
    rw [List.append_nil]
    cases fuel <;> rfl
  | cons c t ih =>
    obtain ⟨fuel, rfl⟩ := Nat.exists_eq_add_one.mpr (Nat.lt_of_lt_of_le (Nat.succ_pos _) hfuel)
    obtain ⟨hc, ht⟩ := List.forall_mem_cons.mp ht
    obtain ⟨lead, more, hbytes, hpiece⟩ := exists_takePiece hc (t.flatMap fun c => encodeCode c.val)
    rw [List.flatMap_cons, hbytes, decodeOnto, hpiece]
    dsimp only
    rw [ih ht (Nat.le_of_succ_le_succ hfuel), List.reverse_cons, List.append_assoc]
    rfl

/-- Every code point has a byte. -/
theorem length_le_length_flatMap (t : Text) : t.length ≤ (t.flatMap fun c => encodeCode c.val).length := by
  induction t with
  | nil => exact Nat.le_refl _
  | cons c t ih =>
    have hpos : 1 ≤ (encodeCode c.val).length := by
      unfold encodeCode
      split
      next => exact Nat.le_refl _
      next => split <;> [skip; split] <;> simp
    rw [List.flatMap_cons, List.length_append, List.length_cons]
    omega

/-- A text without surrogates has bytes. -/
theorem encode?_of_not_surrogate {t : Text} (ht : ∀ c ∈ t, c.isSurrogate = false) :
    encode? t = some (t.flatMap fun c => encodeCode c.val) := by
  refine if_neg fun hany => ?_
  obtain ⟨c, hc, hs⟩ := List.any_eq_true.mp hany
  exact Bool.false_ne_true ((ht c hc).symm.trans hs)

/-- A text is decoded from its bytes. -/
theorem decode?_of_encode? {t : Text} {bytes : Bytes} (h : encode? t = some bytes) :
    decode? bytes = some t := by
  unfold encode? at h
  split at h
  next => exact nomatch h
  next hany =>
    obtain rfl := Option.some.inj h
    have ht : ∀ c ∈ t, c.isSurrogate = false := by
      intro c hc
      exact Bool.eq_false_iff.mpr fun hs => hany (List.any_eq_true.mpr ⟨c, hc, hs⟩)
    rw [decode?, decodePrefix?, decodeOnto_flatMap ht (length_le_length_flatMap t)]
    rfl

end Utf8

/-! ### Line ends -/

theorem normalizeOnto_of_not_mem {t : Text} (ht : carriageReturn ∉ t) (done : Text) :
    normalizeOnto false t done = done.reverse ++ t := by
  induction t generalizing done with
  | nil => exact (List.append_nil _).symm
  | cons c t ih =>
    obtain ⟨hc, ht⟩ := not_or.mp (mt List.mem_cons.mpr ht)
    rw [normalizeOnto, if_neg fun h => hc h.symm, if_neg fun h => Bool.false_ne_true h.2, ih ht,
      List.reverse_cons, List.append_assoc]
    rfl

/-- A text without carriage returns has its line ends already. -/
theorem normalizeNewlines_of_not_mem {t : Text} (ht : carriageReturn ∉ t) : normalizeNewlines t = t :=
  normalizeOnto_of_not_mem ht []

/-- A file that holds the bytes of a text without carriage returns is read as that text. -/
theorem sourceText_of_encode? {files : FileTree} {place : Location} {bytes : Bytes} {source : Text}
    (hcontent : files.content? place = some bytes) (hbytes : Utf8.encode? source = some bytes)
    (hreturns : carriageReturn ∉ source) : sourceText files place = .ok source := by
  have hdecode : Utf8.decode? ((files.content? place).getD []) = some source := by
    rw [hcontent]
    exact Utf8.decode?_of_encode? hbytes
  rw [sourceText, hdecode]
  exact congrArg Except.ok (normalizeNewlines_of_not_mem hreturns)

end Lisplet
