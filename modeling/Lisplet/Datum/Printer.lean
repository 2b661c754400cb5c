import Lisplet.Datum

/-!
# Printing data

A datum is written so that it reads back, or displayed for people: displayed strings and characters
stand as they are, written ones are quoted and named. A two-element list headed by one of the four
quotation symbols is printed with its shorthand.
-/

namespace Lisplet

/-- How data are printed. -/
inductive PrintMode where
  /-- For reading back. -/
  | write
  /-- For people. -/
  | display
  deriving DecidableEq

/-- The four quotation symbols with their shorthands. -/
def shorthands : List (Text × Text) :=
  [("quote", "'"), ("quasiquote", "`"), ("unquote", ","), ("unquote-splicing", ",@")]

/-- The characters that are written by name. -/
def writtenNames : List (CodePoint × Text) :=
  [(' ', "space"), ('\n', "newline"), ('\t', "tab")]

/-- The code points that are escaped in a written string, each with the letter that stands for it. -/
def stringEscapes : List (CodePoint × CodePoint) :=
  [('"', '"'), ('\\', '\\'), ('\n', 'n'), ('\t', 't'), ('\r', 'r')]

/-- How a code point is written inside a string. -/
def escaped (c : CodePoint) : Text :=
  match stringEscapes.lookup c with
  | some letter => ['\\', letter]
  | none => [c]

/-- A string in quotation marks. -/
def writtenString (content : Text) : Text :=
  text "\"" ++ content.flatMap escaped ++ text "\""

/-- A character literal. -/
def writtenCharacter (c : CodePoint) : Text :=
  text "#\\" ++ (writtenNames.lookup c).getD [c]

/-- The text of a truth value. -/
def booleanText (b : Bool) : Text := text (if b then "#t" else "#f")

namespace Datum

/-- The shorthand of a list that consists of a quotation symbol and one more item. -/
def shorthand? : Datum → Datum → Option Text
  | sym name, pair _ nil => shorthands.lookup name
  | _, _ => none

/-- The printed form of a datum that is no pair. -/
def printAtom (mode : PrintMode) : Datum → Text
  | int n => integerText 10 n
  | float x => floatText x
  | nan _ => floatStyle.notANumber
  | bool b => booleanText b
  | char c => match mode with
    | .write => writtenCharacter c
    | .display => [c]
  | str content => match mode with
    | .write => writtenString content
    | .display => content
  | sym name => name
  | nil => text "()"
  | pair _ _ => []
  | unreadable shown => shown

mutual

/-- The printed form of a datum. -/
def print (mode : PrintMode) : Datum → Text
  | pair head tail =>
    match shorthand? head tail with
    | some mark => mark ++ printSecond mode tail
    | none => text "(" ++ print mode head ++ printRest mode tail
  | d => printAtom mode d

/-- The printed form of what follows the head of a list, to the closing parenthesis. -/
def printRest (mode : PrintMode) : Datum → Text
  | pair head tail => text " " ++ print mode head ++ printRest mode tail
  | nil => text ")"
  | d => text " . " ++ printAtom mode d ++ text ")"

/-- The printed form of the head of a pair, and nothing for any other datum. -/
def printSecond (mode : PrintMode) : Datum → Text
  | pair head _ => print mode head
  | _ => []

end

end Datum

end Lisplet
