/-!
# Code points and texts

A text is a list of code points. Every number below `0x110000` is a code point, a surrogate on its
own included, so a text holds more than the valid characters: `Text.toString?` gives the string of a
text exactly when no surrogate occurs in it.
-/

namespace Lisplet

/-- One code point, a surrogate included. -/
structure CodePoint where
  /-- The number of the code point. -/
  val : Nat
  /-- Code points end below `0x110000`. -/
  isLt : val < 0x110000
  deriving DecidableEq

/-- A sequence of code points. -/
abbrev Text := List CodePoint

namespace CodePoint

/-- The code point of a valid character. -/
def ofChar (c : Char) : CodePoint :=
  ⟨c.toNat, by
    have h : c.val.toNat.isValidChar := c.valid
    have e : c.toNat = c.val.toNat := rfl
    simp only [Nat.isValidChar] at h
    omega⟩

instance : Coe Char CodePoint := ⟨ofChar⟩

/-- The code point with this number, or zero beyond the last one. -/
def ofNat (n : Nat) : CodePoint :=
  if h : n < 0x110000 then ⟨n, h⟩ else ⟨0, by decide⟩

/-- The code point with this number, if there is one. -/
def ofNat? (n : Nat) : Option CodePoint :=
  if h : n < 0x110000 then some ⟨n, h⟩ else none

/-- A code point that is half of a pair in a sixteen-bit encoding, and no character. -/
def isSurrogate (c : CodePoint) : Bool := 0xD800 ≤ c.val && c.val ≤ 0xDFFF

/-- The character with this code point; a surrogate has none. -/
def toChar? (c : CodePoint) : Option Char :=
  if h : c.val.isValidChar then some (Char.ofNatAux c.val h) else none

@[simp] theorem val_ofChar (c : Char) : (ofChar c).val = c.toNat := rfl

theorem ext_val {a b : CodePoint} (h : a.val = b.val) : a = b := by
  cases a; cases b; cases h; rfl

/-- Different characters have different code points. -/
@[simp] theorem ofChar_inj {a b : Char} : ofChar a = ofChar b ↔ a = b := by
  constructor
  · intro h
    have hv := congrArg val h
    simp only [val_ofChar] at hv
    exact Char.ext (UInt32.toNat_inj.mp hv)
  · rintro rfl
    rfl

theorem ofNat_val (c : CodePoint) : ofNat c.val = c := by
  simp [ofNat, c.isLt]

theorem ofNat?_val (c : CodePoint) : ofNat? c.val = some c := by
  simp [ofNat?, c.isLt]

end CodePoint

namespace Text

/-- The text of a string. -/
def ofString (s : String) : Text := s.toList.map CodePoint.ofChar

instance : Coe String Text := ⟨ofString⟩

/-- The string of a text without surrogates. -/
def toString? (t : Text) : Option String :=
  (t.mapM CodePoint.toChar?).map String.ofList

/-- The pieces with a separator between neighbours. -/
def join (separator : Text) (pieces : List Text) : Text :=
  separator.intercalate pieces

/-- The pieces in order, when the last one stands first. -/
def gathered (pieces : List Text) : Text := pieces.reverse.flatten

/-- The pieces between the occurrences of a code point. -/
def splitOn (separator : CodePoint) (t : Text) : List Text :=
  List.splitOnP (fun c => decide (c = separator)) t

/-- Drops the code points of a class from both ends. -/
def trim (drop : CodePoint → Bool) (t : Text) : Text :=
  ((t.dropWhile drop).reverse.dropWhile drop).reverse

/-- Order by code points, a proper beginning before the longer text. -/
def lt : Text → Text → Bool
  | _, [] => false
  | [], _ :: _ => true
  | a :: s, b :: t => if a.val = b.val then lt s t else decide (a.val < b.val)

end Text

/-- The text of a string: the short name that messages are written with. -/
abbrev text (s : String) : Text := Text.ofString s

end Lisplet
