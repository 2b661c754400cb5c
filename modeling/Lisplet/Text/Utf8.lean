import Lisplet.Text.CodePoint

/-!
# Texts as bytes

The encoding of texts by one to four bytes a code point. Surrogates have no encoding. Decoding is
strict: a sequence that is longer than needed, that would give a surrogate, or that is broken off by
another byte is malformed; one that only lacks its last bytes is left over for what follows.
-/

namespace Lisplet

/-- A sequence of bytes. -/
abbrev Bytes := List UInt8

namespace Utf8

/-- A byte that continues a sequence, carrying six bits. -/
def continuation (n : Nat) : UInt8 := UInt8.ofNat (0x80 + n % 64)

/-- The bytes of one code point that is no surrogate. -/
def encodeCode (n : Nat) : Bytes :=
  if n < 0x80 then [UInt8.ofNat n]
  else if n < 0x800 then [UInt8.ofNat (0xC0 + n / 64), continuation n]
  else if n < 0x10000 then
    [UInt8.ofNat (0xE0 + n / 4096), continuation (n / 64), continuation n]
  else
    [UInt8.ofNat (0xF0 + n / 262144), continuation (n / 4096), continuation (n / 64), continuation n]

/-- The bytes of a text; none if a surrogate occurs in it. -/
def encode? (t : Text) : Option Bytes :=
  if t.any CodePoint.isSurrogate then none else some (t.flatMap fun c => encodeCode c.val)

/-- What stands at the beginning of some bytes. -/
inductive Piece where
  /-- A whole code point, and what follows it. -/
  | whole (c : CodePoint) (rest : Bytes)
  /-- The beginning of a sequence whose last bytes are not there. -/
  | truncated
  /-- Bytes that begin no sequence. -/
  | malformed

/-- Whether a byte continues a sequence. -/
def isContinuation (b : Nat) : Bool := 0x80 ≤ b && b < 0xC0

/-- Whether a byte may be the second of a sequence that begins with `lead`: no form longer than
needed, no surrogate, nothing beyond the last code point. -/
def maySecond (lead b : Nat) : Bool :=
  isContinuation b &&
    (if lead = 0xE0 then 0xA0 ≤ b
     else if lead = 0xED then b < 0xA0
     else if lead = 0xF0 then 0x90 ≤ b
     else if lead = 0xF4 then b < 0x90
     else true)

/-- Takes one code point off the beginning of a nonempty row of bytes. -/
def takePiece (lead : UInt8) (rest : Bytes) : Piece :=
  let a := lead.toNat
  if a < 0x80 then .whole (CodePoint.ofNat a) rest
  else if a < 0xC2 then .malformed
  else if a < 0xE0 then
    match rest with
    | [] => .truncated
    | b :: more =>
      if isContinuation b.toNat then
        .whole (CodePoint.ofNat ((a - 0xC0) * 64 + (b.toNat - 0x80))) more
      else .malformed
  else if a < 0xF0 then
    match rest with
    | [] => .truncated
    | b :: more =>
      if !maySecond a b.toNat then .malformed
      else match more with
        | [] => .truncated
        | c :: more =>
          if isContinuation c.toNat then
            .whole (CodePoint.ofNat
              ((a - 0xE0) * 4096 + (b.toNat - 0x80) * 64 + (c.toNat - 0x80))) more
          else .malformed
  else if a < 0xF5 then
    match rest with
    | [] => .truncated
    | b :: more =>
      if !maySecond a b.toNat then .malformed
      else match more with
        | [] => .truncated
        | c :: more =>
          if !isContinuation c.toNat then .malformed
          else match more with
            | [] => .truncated
            | d :: more =>
              if isContinuation d.toNat then
                .whole (CodePoint.ofNat
                  ((a - 0xF0) * 262144 + (b.toNat - 0x80) * 4096 + (c.toNat - 0x80) * 64 +
                    (d.toNat - 0x80))) more
              else .malformed
  else .malformed

/-- Decodes as many whole code points as there are, and gives back a truncated end. The fuel bounds
the number of code points; `done` holds those already decoded, last first. -/
def decodeOnto : Nat → Bytes → Text → Option (Text × Bytes)
  | 0, bytes, done => some (done.reverse, bytes)
  | _ + 1, [], done => some (done.reverse, [])
  | fuel + 1, lead :: rest, done =>
    match takePiece lead rest with
    | .whole c more => decodeOnto fuel more (c :: done)
    | .truncated => some (done.reverse, lead :: rest)
    | .malformed => none

/-- The text of the whole code points and the truncated end of some bytes; none if malformed. -/
def decodePrefix? (bytes : Bytes) : Option (Text × Bytes) := decodeOnto bytes.length bytes []

/-- The text of some bytes; none if they are malformed or truncated. -/
def decode? (bytes : Bytes) : Option Text :=
  match decodePrefix? bytes with
  | some (t, []) => some t
  | _ => none

example : encode? "aé€😀" = some [97, 195, 169, 226, 130, 172, 240, 159, 152, 128] := by decide

example : decode? [97, 195, 169, 226, 130, 172, 240, 159, 152, 128] = some "aé€😀" := by decide

end Utf8

end Lisplet
