import Lisplet.Text.CodePoint

/-!
# Line ends

Text that comes from a file or from standard input ends its lines in any of three ways: `\n`, `\r`
or both, `\r\n`. `normalizeNewlines` makes every line end a single `\n`. `normalizePortion` does so for
a text that comes in portions, where a portion may end between the two.
-/

namespace Lisplet

/-- The line feed, which ends a line. -/
def newline : CodePoint := '\n'

/-- The carriage return. -/
def carriageReturn : CodePoint := '\r'

/-- Line ends of a text whose beginning is already done; `done` holds that, last first, and
`wasReturn` says that a carriage return has just been read and answered. -/
def normalizeOnto (wasReturn : Bool) : Text → Text → Text
  | [], done => done.reverse
  | c :: rest, done =>
    if c = carriageReturn then normalizeOnto true rest (newline :: done)
    else if c = newline ∧ wasReturn then normalizeOnto false rest done
    else normalizeOnto false rest (c :: done)

/-- Makes every line end a single line feed. -/
def normalizeNewlines (t : Text) : Text := normalizeOnto false t []

/-- A text with a carriage return in front if one was kept back. -/
def afterReturn (isHeld : Bool) (t : Text) : Text := if isHeld then carriageReturn :: t else t

/-- Makes the line ends of a portion of a text single line feeds. `isHeld` says that a carriage return
before it was kept back, and the answer says whether the one at its end is, because a line feed may
follow; it waits for some more text. -/
def normalizePortion (isHeld : Bool) (t : Text) : Text × Bool :=
  if t.isEmpty then ([], isHeld)
  else if t.getLast? = some carriageReturn then
    (normalizeNewlines (afterReturn isHeld t).dropLast, true)
  else (normalizeNewlines (afterReturn isHeld t), false)

/-- The text up to and including the first line feed, and what follows it. -/
def splitLine (t : Text) : Text × Text :=
  let line := t.takeWhile fun c => c ≠ newline
  match t.drop line.length with
  | [] => (line, [])
  | c :: rest => (line ++ [c], rest)

/-- Drops the line feed at the end of a line. -/
def dropNewline (line : Text) : Text :=
  if line.getLast? = some newline then line.dropLast else line

end Lisplet
