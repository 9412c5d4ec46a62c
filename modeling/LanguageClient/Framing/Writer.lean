import LanguageClient.Framing.Frame

/-!
# LanguageClient.Framing.Writer -- frames into a byte sink

A sink takes some number of bytes in all, or any number, and then fails for good. A frame is written
whole or, if the room runs out, up to where it runs out.
-/

namespace LanguageClient

/-- Where bytes are written. -/
structure Sink where
  /-- How many bytes more are taken; `none` for any number. -/
  room : Option Nat := none
  accepted : List UInt8 := []
  /-- The sink was told that nothing follows. -/
  closed : Bool := false

namespace Sink

/-- How a sink without room fails. -/
def full : IoFault := ⟨.brokenPipe, "injected"⟩

/-- Writes bytes as far as the room goes. -/
def write (s : Sink) (bytes : List UInt8) : Except Fault Unit × Sink :=
  match s.room with
  | none => (.ok (), { s with accepted := s.accepted ++ bytes })
  | some room =>
    let s := { s with
      room := some (room - bytes.length)
      accepted := s.accepted ++ bytes.take room }
    if bytes.length ≤ room then (.ok (), s) else (.error (.io full), s)

/-- Writes the frame of a body. -/
def writeBody (s : Sink) (body : List UInt8) : Except Fault Unit × Sink :=
  s.write (Frame.bodyBytes body)

/-- Tells the sink that nothing follows. -/
def close (s : Sink) : Sink := { s with closed := true }

/-- Writes the frames of several bodies, one after another, whatever becomes of each. -/
def writeBodies (s : Sink) : List (List UInt8) → List (Except Fault Unit) × Sink
  | [] => ([], s)
  | body :: rest =>
    let (result, s) := s.writeBody body
    let (results, s) := s.writeBodies rest
    (result :: results, s)

end Sink

end LanguageClient
