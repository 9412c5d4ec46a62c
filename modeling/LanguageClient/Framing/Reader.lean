import LanguageClient.Framing.Frame
import LanguageClient.Rpc.Decoding

/-!
# LanguageClient.Framing.Reader -- frames from a byte stream

`Frame.scan` looks for one frame at the front of the bytes that have arrived. It finds a frame or a
fault, and then tells which bytes are left, or it finds that bytes are missing, in the header block or
in the body. The bytes of the block are taken one by one: each line, when its end is reached, adds to
a `Block`. After a fault of a line the next byte is the one after that line, after a fault of the whole
block the one after the empty line; the body is then taken for header lines.

`Frame.read` is the same on a stream that has ended. `Chunked` is a stream whose bytes come in chunks; a
chunk is waited for only while bytes are missing.
-/

namespace LanguageClient

/-- What the lines of a header block have told so far. -/
structure Block where
  /-- Some field has been read, so that an empty line ends the block. -/
  started : Bool := false
  contentLength : Option Nat := none
  contentType : String := defaultContentType
  additional : Dict String := ∅

/-- What the end of a line does to a block. -/
inductive Block.Next where
  | more (block : Block)
  | headers (h : Headers)
  | fault (f : FramingFault)

namespace Block

/-- A length as it is written: digits, after a plus sign or not, of a number below `2 ^ 64`. -/
def readLength? (value : String) : Option Nat :=
  let digits := match value.toList with
    | '+' :: cs => cs
    | cs => cs
  if digits ≠ [] ∧ digits.all Json.isDigit then
    let n := Json.digitsValue (digits.map Json.digitValue)
    if n < 2 ^ 64 then some n else none
  else none

/-- Takes a field into a block. The last value of a name counts. -/
def addField (b : Block) (name value : String) : Next :=
  let b := { b with started := true }
  if Text.EqIgnoringCase name "content-length" then
    match readLength? value with
    | none => .fault (.invalidLength value)
    | some n =>
      if maxContentLength < n then .fault (.tooLong n)
      else .more { b with contentLength := some n }
  else if Text.EqIgnoringCase name "content-type" then .more { b with contentType := value }
  else .more { b with additional := b.additional.insert name value }

/-- The header block that an empty line ends. -/
def finish (b : Block) : Next :=
  match b.contentLength with
  | none => .fault .missingLength
  | some contentLength =>
    let h : Headers := { contentLength, contentType := b.contentType, additional := b.additional }
    if IsUtf8 h.contentType then .headers h else .fault (.unsupportedCharset h.charset)

/-- The name and value of a header line: what stands before and after its first colon. -/
def splitField? (line : String) : Option (String × String) :=
  match Text.cut? ':' line.toList with
  | none => none
  | some (name, value) =>
    let name := Text.trim (String.ofList name)
    if name = "" then none else some (name, Text.trim (String.ofList value))

/-- Takes a line, without its end, into a block. An empty line before the first field is passed over. -/
def addText (b : Block) (line : String) : Next :=
  if line = "" then if b.started then b.finish else .more b
  else
    match splitField? line with
    | none => .fault (.invalidField line)
    | some (name, value) => b.addField name value

/-- A line without the CR at its end. -/
def dropReturn (line : List UInt8) : List UInt8 :=
  if line.getLast? = some 0x0D then line.dropLast else line

/-- Takes the bytes of a line, up to its LF, into a block. -/
def addLine (b : Block) (line : List UInt8) : Next :=
  let line := dropReturn line
  match Text.ofBytes? line with
  | some text => b.addText text
  | none => .fault (.notUtf8 ((Text.faultOf? line).getD (.incomplete 0)))

/-- What the bytes at hand hold of a header block. -/
inductive Scan where
  /-- The block or its fault, and the bytes that follow. -/
  | done (result : Except FramingFault Headers) (rest : List UInt8)
  /-- The block goes on. -/
  | short

/-- Takes the bytes of a block one by one; `line` holds those of the present line, the last first. -/
def scan (b : Block) (line : List UInt8) : List UInt8 → Scan
  | [] => .short
  | byte :: rest =>
    if byte = 0x0A then
      match b.addLine line.reverse with
      | .more b => scan b [] rest
      | .headers h => .done (.ok h) rest
      | .fault f => .done (.error f) rest
    else scan b (byte :: line) rest

end Block

namespace Frame

/-- What the bytes at hand hold of a frame. -/
inductive Scan where
  /-- The frame or the fault of its header block, and the bytes that follow. -/
  | done (result : Except FramingFault Frame) (rest : List UInt8)
  /-- The header block goes on. -/
  | shortHeaders
  /-- The body goes on. -/
  | shortBody

/-- The frame at the front of some bytes. -/
def scan (bytes : List UInt8) : Scan :=
  match Block.scan {} [] bytes with
  | .short => .shortHeaders
  | .done (.error f) rest => .done (.error f) rest
  | .done (.ok headers) rest =>
    if rest.length < headers.contentLength then .shortBody
    else .done (.ok ⟨headers, rest.take headers.contentLength⟩) (rest.drop headers.contentLength)

/-- Reads a frame from a stream that holds some bytes and then ends, or fails if `failure` says how.
Returns also the bytes that are left. -/
def read (failure : Option IoFault) (bytes : List UInt8) : Except Fault Frame × List UInt8 :=
  match scan bytes with
  | .done (.ok frame) rest => (.ok frame, rest)
  | .done (.error f) rest => (.error (.framing f), rest)
  | .shortHeaders => (.error (.io (failure.getD .streamClosed)), [])
  | .shortBody => (.error (.io (failure.getD .bodyCut)), [])

end Frame

/-- Reads the message that the next frame carries. -/
def Message.read (failure : Option IoFault) (bytes : List UInt8) :
    Except Fault Message × List UInt8 :=
  match Frame.read failure bytes with
  | (.error f, rest) => (.error f, rest)
  | (.ok frame, rest) => (Message.decode frame.body, rest)

/-- Whether a fault is one of the stream itself, after which it is not read again. -/
def Fault.isIo : Fault → Bool
  | .io _ => true
  | _ => false

/-- Reads again and again, at most `count` times, up to the first failure of the stream. -/
def readMany {σ α : Type} (read : σ → Except Fault α × σ) : Nat → σ → List (Except Fault α)
  | 0, _ => []
  | count + 1, stream =>
    match read stream with
    | (.error f, rest) => .error f :: if f.isIo then [] else readMany read count rest
    | (.ok a, rest) => .ok a :: readMany read count rest

/-- A stream whose bytes come in chunks. -/
structure Chunked where
  /-- The bytes that have come and are not taken. -/
  arrived : List UInt8 := []
  /-- The chunks that will come before the end. -/
  coming : List (List UInt8)

/-- Reads a frame, waiting for the next chunk as long as bytes are missing. -/
def Frame.pull (failure : Option IoFault) (arrived : List UInt8) :
    List (List UInt8) → Except Fault Frame × Chunked
  | [] =>
    let (result, rest) := Frame.read failure arrived
    (result, ⟨rest, []⟩)
  | chunk :: coming =>
    match Frame.scan arrived with
    | .done (.ok frame) rest => (.ok frame, ⟨rest, chunk :: coming⟩)
    | .done (.error f) rest => (.error (.framing f), ⟨rest, chunk :: coming⟩)
    | .shortHeaders | .shortBody => Frame.pull failure (arrived ++ chunk) coming

namespace Chunked

/-- All the bytes that are not taken. -/
def bytes (s : Chunked) : List UInt8 := s.arrived ++ s.coming.flatten

/-- Reads the next frame. -/
def frame (failure : Option IoFault) (s : Chunked) : Except Fault Frame × Chunked :=
  Frame.pull failure s.arrived s.coming

/-- Reads the message that the next frame carries. -/
def message (failure : Option IoFault) (s : Chunked) : Except Fault Message × Chunked :=
  match s.frame failure with
  | (.error f, s) => (.error f, s)
  | (.ok frame, s) => (Message.decode frame.body, s)

end Chunked

end LanguageClient
