import LanguageClient.Framing.Reader
import LanguageClient.Lifecycle
import LanguageClient.Options
import LanguageClient.Session.Call

/-!
# LanguageClient.Session.Shared -- what the tasks of a session share

The phase, the table of calls, the documents with their lock, the two directions of the stream and the
clock. `Shared.next?` is what the read loop finds in the bytes that have arrived; `Shared.dispatch` is
what becomes of a message.
-/

namespace LanguageClient

/-- The name of a task. -/
abbrev TaskId := Nat

/-- The state of the direction to the server. -/
inductive Outflow where
  | flowing
  /-- Nobody reads any more; every write fails. -/
  | broken
  /-- The client has ended the direction; every write fails. -/
  | closed
  deriving DecidableEq

/-- The state of the direction from the server. -/
inductive Inflow where
  | flowing
  /-- No bytes follow; a failure may tell why. -/
  | ended (failure : Option IoFault)
  deriving DecidableEq

/-- A call of a handler, and what it made visible. -/
structure HandlerCall where
  method : String
  /-- Which of the handlers of notifications it was; none for a handler of requests. -/
  place : Option Nat
  params : Option Json
  events : List Event
  /-- The handler gave up in a way that it should not, which is caught. -/
  panicked : Bool
  deriving DecidableEq

/-- The call of the handler of notifications at a place, with what it does. -/
def HandlerCall.ofNotification (n : Notification) (place : Nat) (reaction : NotificationReaction) :
    HandlerCall where
  method := n.method
  place := some place
  params := n.params
  events := reaction.events
  panicked := reaction.panicked

/-- What the tasks of a session share. -/
structure Shared where
  options : SessionOptions
  lifecycle : Lifecycle := {}
  pending : PendingCalls := {}
  documents : DocumentStore := {}
  /-- The task that may use the documents alone. -/
  documentsHolder : Option TaskId := none
  /-- The messages that were written, whole. -/
  wire : List Message := []
  outflow : Outflow := .flowing
  /-- The bytes that have arrived and are not yet read. -/
  input : List UInt8 := []
  inflow : Inflow := .flowing
  /-- The time in milliseconds. -/
  clock : Nat := 0
  /-- The calls of handlers. -/
  handled : List HandlerCall := []

namespace Shared

/-! ## The direction to the server -/

/-- Writes a message whole, unless the direction has failed. -/
def write (s : Shared) (m : Message) : Except Fault Unit × Shared :=
  match s.outflow with
  | .flowing => (.ok (), { s with wire := s.wire ++ [m] })
  | .broken | .closed => (.error (.io .brokenPipe), s)

/-- Ends the direction to the server. -/
def closeOutflow (s : Shared) : Shared :=
  match s.outflow with
  | .flowing => { s with outflow := .closed }
  | .broken | .closed => s

/-! ## The documents -/

/-- Lets others use the documents, if the task has them. -/
def releaseDocuments (s : Shared) (t : TaskId) : Shared :=
  if s.documentsHolder = some t then { s with documentsHolder := none } else s

/-! ## The direction from the server -/

/-- Whether bytes end before the frame at their front does. -/
def isShort (bytes : List UInt8) : Bool :=
  match Frame.scan bytes with
  | .done _ _ => false
  | .shortHeaders | .shortBody => true

/-- Whether the read loop has something to read, be it the end. -/
def hasInput (s : Shared) : Bool :=
  match s.inflow with
  | .flowing => !isShort s.input
  | .ended _ => true

/-- What the read loop finds next, and the bytes that are left. -/
def next? (s : Shared) : Option (Except Fault Message × List UInt8) :=
  if s.hasInput then
    some (Message.read (match s.inflow with
      | .flowing => none
      | .ended failure => failure) s.input)
  else none

/-- Calls handlers of notifications one after another, whether they panic or not. -/
def callHandlers (n : Notification) : Nat → List NotificationHandler → Shared → Shared
  | _, [], s => s
  | place, handler :: rest, s =>
    let call := HandlerCall.ofNotification n place (handler s.handled.length n.params)
    callHandlers n (place + 1) rest { s with handled := s.handled ++ [call] }

/-- Every handler is called, whatever those before it do, and nothing is left behind but the calls. -/
theorem callHandlers_eq (n : Notification) (first : Nat) (handlers : List NotificationHandler)
    (s : Shared) : callHandlers n first handlers s = { s with
      handled := s.handled ++ handlers.mapIdx fun place handler =>
        .ofNotification n (first + place) (handler (s.handled.length + place) n.params) } := by
  induction handlers generalizing first s with
  | nil => simp [callHandlers]
  | cons handler rest ih =>
    rw [callHandlers, ih, List.mapIdx_cons, List.append_assoc, List.singleton_append]
    simp only [List.length_append, List.length_singleton, Nat.add_zero]
    -- the others are counted from this one on
    simp only [Nat.add_assoc, Nat.add_comm 1]

/-- Calls the handler of requests of a method. The answer is absent if the handler hangs. -/
def callHandler (s : Shared) (r : Request) (handler : RequestHandler) : Option Response × Shared :=
  let reaction := handler s.handled.length r.params
  let s := { s with handled := s.handled ++
    [⟨r.method, none, r.params, reaction.events, reaction.ending.isPanicked⟩] }
  match reaction.ending with
  | .answered (.ok result) => (some (.success r.id result), s)
  | .answered (.error e) => (some (.failure (some r.id) e), s)
  | .panicked =>
    (some (.failure (some r.id) (.internalError s!"Handler for {r.method} panicked")), s)
  | .hanging => (none, s)

/-- The answer to a request of the server. It is absent if the handler hangs. -/
def answer (s : Shared) (r : Request) : Option Response × Shared :=
  match s.options.handlers.requestHandler? r.method with
  | none => (some (.failure (some r.id) (.methodNotFound s!"Unhandled method {r.method}")), s)
  | some handler => s.callHandler r handler

/-- What becomes of a message: a response settles its call, a notification is handled, and a request is
left to be answered. -/
def dispatch (s : Shared) : Message → Option Request × Shared
  | .response r => (none, { s with pending := (s.pending.resolve r).2 })
  | .request r => (some r, s)
  | .notification n =>
    (none, callHandlers n 0 (s.options.handlers.notificationHandlers n.method) s)

end Shared

end LanguageClient
