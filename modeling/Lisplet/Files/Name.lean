import Lisplet.Text.Utf8

/-!
# Names as bytes

The system knows files by rows of bytes. A name is encoded like any text, but a byte that belongs to no
text can be spelled as well: the code points from U+DC80 to U+DCFF stand for the bytes from `0x80` on.
No other surrogate can be part of a name. Two names that are encoded alike name the same file.
-/

namespace Lisplet

namespace FileName

/-- The bytes of one code point in a name. -/
def encodeCode? (c : CodePoint) : Option Bytes :=
  if 0xDC80 ≤ c.val ∧ c.val ≤ 0xDCFF then some [UInt8.ofNat (c.val - 0xDC00)]
  else if c.isSurrogate then none
  else some (Utf8.encodeCode c.val)

/-- The bytes of a name; none if a code point in it has none. -/
def encode? (name : Text) : Option Bytes := (name.mapM encodeCode?).map List.flatten

example : encode? "é" = encode? [CodePoint.ofNat 0xDCC3, CodePoint.ofNat 0xDCA9] := by decide

example : encode? [CodePoint.ofNat 0xD800] = none := by decide

end FileName

/-- Why a text names no file at all. -/
inductive NameFault where
  /-- A code point in it has no bytes. -/
  | unencodable
  /-- A zero byte is in it. -/
  | zeroByte
  /-- A home directory is asked for that nobody knows. -/
  | homeUnknown
  deriving DecidableEq

end Lisplet
