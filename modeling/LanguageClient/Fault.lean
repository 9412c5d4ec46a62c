import LanguageClient.Phase
import LanguageClient.Rpc.Id
import LanguageClient.Rpc.ResponseError
import LanguageClient.Text.Utf8

/-!
# LanguageClient.Fault -- everything that can go wrong

One constructor per cause, grouped as callers tell them apart: faults of the byte stream, of the
framing, of a message, of the other side, and of the caller. `Fault.message` is the only place that
words them. A fault is fatal if it leaves the byte stream at an unknown place.
-/

namespace LanguageClient

/-- What kind of failure a byte stream reports. -/
inductive IoKind where
  | unexpectedEof
  | brokenPipe
  | connectionReset
  | other (name : String)
  deriving DecidableEq

namespace IoKind

def name : IoKind → String
  | unexpectedEof => "UnexpectedEof"
  | brokenPipe => "BrokenPipe"
  | connectionReset => "ConnectionReset"
  | other name => name

/-- The kind of a name. -/
def ofName (name : String) : IoKind :=
  if name = unexpectedEof.name then unexpectedEof
  else if name = brokenPipe.name then brokenPipe
  else if name = connectionReset.name then connectionReset
  else other name

end IoKind

/-- A failure of a byte stream. -/
structure IoFault where
  kind : IoKind
  text : String
  deriving DecidableEq

namespace IoFault

/-- The stream ends where a header line was due. -/
def streamClosed : IoFault := ⟨.unexpectedEof, "stream closed"⟩

/-- The stream ends within a body. -/
def bodyCut : IoFault := ⟨.unexpectedEof, "early eof"⟩

/-- Nobody reads any more what is written. -/
def brokenPipe : IoFault := ⟨.brokenPipe, "broken pipe"⟩

end IoFault

/-- The longest body that a frame may have, in bytes. -/
def maxContentLength : Nat := 64 * 1024 * 1024

/-- What is wrong with the header block of a frame. -/
inductive FramingFault where
  | notUtf8 (fault : Text.Utf8Fault)
  | invalidField (line : String)
  | invalidLength (value : String)
  | tooLong (length : Nat)
  | missingLength
  | unsupportedCharset (charset : String)
  /-- A cause that is only told. -/
  | told (text : String)
  deriving DecidableEq

namespace FramingFault

def message : FramingFault → String
  | notUtf8 fault => s!"Invalid UTF-8 in header: {fault.message}"
  | invalidField line => s!"Invalid header field: {line}"
  | invalidLength value => s!"Invalid Content-Length: {value}"
  | tooLong length =>
    s!"Content-Length {length} exceeds the limit of {maxContentLength} bytes"
  | missingLength => "Missing Content-Length header"
  | unsupportedCharset charset => s!"Unsupported encoding: {charset}"
  | told text => text

end FramingFault

/-- Why the body of a frame is no message. -/
inductive DecodeFault where
  | invalidJson
  | notObject
  | missingVersion
  | unsupportedVersion (found : Json)
  | invalidId (found : Json)
  | nullRequestId
  | methodNotString (found : Json)
  | malformedError (cause : Json.Mismatch)
  | neitherIdNorMethod
  /-- No body was read, but a path has no URI. -/
  | noUri (path : String)
  /-- A cause that is only told. -/
  | told (text : String)
  deriving DecidableEq

namespace DecodeFault

def message : DecodeFault → String
  | invalidJson => "Invalid JSON"
  | notObject => "Message is not a JSON object"
  | missingVersion => "Missing jsonrpc field"
  | unsupportedVersion found => s!"Unsupported jsonrpc version: {found.render}"
  | invalidId found => s!"Invalid id: {found.render}"
  | nullRequestId => "Request id must not be null"
  | methodNotString found => s!"Method must be a string, got {found.render}"
  | malformedError cause => s!"Malformed error object: {cause.message}"
  | neitherIdNorMethod => "Message has neither an id nor a method"
  | noUri path => s!"Cannot express {path} as a URI"
  | told text => text

end DecodeFault

/-- How a message or the use of an id breaks the protocol. -/
inductive ProtocolFault where
  | bothResultAndError
  | neitherResultNorError
  /-- A call of that id has not been answered yet. -/
  | idOutstanding (id : Id)
  /-- A cause that is only told. -/
  | told (text : String)
  deriving DecidableEq

namespace ProtocolFault

def message : ProtocolFault → String
  | bothResultAndError => "Response carries both a result and an error"
  | neitherResultNorError => "Response carries neither a result nor an error"
  | idOutstanding id => s!"Request id {id.text} is already outstanding"
  | told text => text

end ProtocolFault

/-- The URI of a document. -/
abbrev DocumentUri := String

instance decidableEqExcept {ε α : Type} [DecidableEq ε] [DecidableEq α] : DecidableEq (Except ε α)
  | .error f, .error g => decidable_of_iff (f = g) ⟨congrArg Except.error, Except.error.inj⟩
  | .ok a, .ok b => decidable_of_iff (a = b) ⟨congrArg Except.ok, Except.ok.inj⟩
  | .error _, .ok _ | .ok _, .error _ => .isFalse nofun

/-- Everything that can go wrong. -/
inductive Fault where
  | io (cause : IoFault)
  | framing (cause : FramingFault)
  | decode (cause : DecodeFault)
  | json (cause : Json.Mismatch)
  | protocol (id : Option Id) (cause : ProtocolFault)
  | response (error : ResponseError)
  | notReady (phase : Phase)
  | alreadyInitialized
  | alreadyOpen (uri : DocumentUri)
  | notOpen (uri : DocumentUri)
  | staleVersion (uri : DocumentUri) (version current : Int32)
  | cancelled (id : Id)
  | connectionClosed
  | duplicateHandler (method : String)
  | timeout
  | initializationFailed (text : String)
  | process (text : String)
  deriving DecidableEq

namespace Fault

/-- The name of the kind of a fault. -/
def kind : Fault → String
  | io _ => "Io"
  | framing _ => "Framing"
  | decode _ => "Decode"
  | json _ => "Json"
  | protocol _ _ => "Protocol"
  | response _ => "Response"
  | notReady _ => "NotReady"
  | alreadyInitialized => "AlreadyInitialized"
  | alreadyOpen _ => "AlreadyOpen"
  | notOpen _ => "NotOpen"
  | staleVersion _ _ _ => "StaleVersion"
  | cancelled _ => "Cancelled"
  | connectionClosed => "ConnectionClosed"
  | duplicateHandler _ => "DuplicateHandler"
  | timeout => "Timeout"
  | initializationFailed _ => "InitializationFailed"
  | process _ => "Process"

/-- The wording of a fault. -/
def message : Fault → String
  | io cause => s!"IO error: {cause.text}"
  | framing cause => s!"Framing error: {cause.message}"
  | decode cause => s!"Decode error: {cause.message}"
  | json cause => s!"JSON error: {cause.message}"
  | protocol _ cause => s!"Protocol error: {cause.message}"
  | response error => s!"Server returned an error: {error.text}"
  | notReady phase => s!"Session is not ready (state: {phase.text})"
  | alreadyInitialized => "Session has already been initialized"
  | alreadyOpen uri => s!"Document is already open: {uri}"
  | notOpen uri => s!"Document is not open: {uri}"
  | staleVersion uri version current =>
    s!"Version {version.toInt} for {uri} is not greater than the last version {current.toInt}"
  | cancelled id => s!"Request {id.text} was cancelled"
  | connectionClosed => "Connection closed"
  | duplicateHandler method => s!"A conflicting handler is already registered for '{method}'"
  | timeout => "Request timeout"
  | initializationFailed text => s!"Server initialization failed: {text}"
  | process text => s!"Server process error: {text}"

/-- The other side has closed the stream. -/
def isDisconnect : Fault → Bool
  | io cause =>
    match cause.kind with
    | .unexpectedEof | .brokenPipe | .connectionReset => true
    | .other _ => false
  | connectionClosed => true
  | _ => false

/-- The byte stream is left at an unknown place, so that reading cannot go on. -/
def isFatal : Fault → Bool
  | io _ | framing _ | decode _ => true
  | _ => false

end Fault

end LanguageClient
