import Lisplet.Port.Stream

/-!
# Ports

A port is a named handle on a stream, for input or for output. Closing a port ends its use; only a
port that owns its stream, as file ports do, closes the stream with it.
-/

namespace Lisplet

/-- Names one stream. -/
abbrev StreamId := Nat

/-- A handle on a stream. -/
structure Port where
  /-- The name that messages use. -/
  name : Text
  /-- The stream behind the port. -/
  stream : StreamId
  /-- Whether the port is read from. -/
  isInput : Bool
  /-- Whether closing the port closes the stream. -/
  ownsStream : Bool
  /-- Whether the port has been closed. -/
  isClosed : Bool

/-- The printed form of a port. -/
def Port.render (p : Port) : Text := text "#<port " ++ p.name ++ text ">"

end Lisplet
