/-!
# Sinks

A sink takes bytes up to a bound, if it has one.  What does not fit is lost, and the loss is told.
-/

namespace LineBasic

/-- A sink. -/
structure Sink where
  /-- The bytes written so far. -/
  written : ByteArray := .empty
  /-- The number of bytes that still fit, if there is a bound. -/
  room : Option Nat := none
deriving Inhabited

namespace Sink

/-- What is said of a sink that is full. -/
def fullMessage : String :=
  "sink full"

/-- The bytes fit into the sink. -/
def fits (sink : Sink) (bytes : ByteArray) : Bool :=
  match sink.room with
  | none => true
  | some room => bytes.size ≤ room

/-- The sink with as many of the bytes as fit. -/
def write (sink : Sink) (bytes : ByteArray) : Sink :=
  match sink with
  | ⟨written, none⟩ => ⟨written ++ bytes, none⟩
  | ⟨written, some room⟩ => ⟨written ++ bytes.extract 0 room, some (room - bytes.size)⟩

/-- The sink with nothing written to it yet, and the same room. -/
def drain (sink : Sink) : Sink :=
  ⟨.empty, sink.room⟩

end Sink

end LineBasic
