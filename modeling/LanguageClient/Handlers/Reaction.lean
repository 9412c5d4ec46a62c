import LanguageClient.Protocol.Method
import LanguageClient.Rpc.ResponseError

/-!
# LanguageClient.Handlers.Reaction -- what handlers do

A handler is called with the params of a message of the server, absent params and null kept apart. What
it does is a `Reaction`: the events that it makes visible, and, for a request, how it ends. A handler
may do something else each time; it is told how many calls of handlers came before. Typed handlers are
given params of the type that their method has.
-/

namespace LanguageClient

/-- What a handler makes visible. -/
inductive Event where
  /-- A line for the log of the server's messages. -/
  | log (level : LogLevel) (message : String)
  /-- Anything else. -/
  | shown (j : Json)
  deriving DecidableEq

/-- How the handling of a request ends, if it does. -/
inductive Ending (α : Type) where
  | answered (answer : Except ResponseError α)
  /-- The handler gave up in a way that it should not. -/
  | panicked
  /-- The handler never answers. -/
  | hanging

namespace Ending

def map {α β : Type} (f : α → β) : Ending α → Ending β
  | answered answer => answered (answer.map f)
  | panicked => panicked
  | hanging => hanging

def isPanicked {α : Type} : Ending α → Bool
  | panicked => true
  | answered _ | hanging => false

end Ending

/-- What a handler does when it is called for a request. -/
structure Reaction (α : Type) where
  events : List Event := []
  ending : Ending α

/-- What a handler does when it is called for a notification. -/
structure NotificationReaction where
  events : List Event := []
  panicked : Bool := false

/-- A handler of requests: from the number of calls before and the params to what it does. -/
abbrev RequestHandler := Nat → Option Json → Reaction Json

/-- A handler of notifications. -/
abbrev NotificationHandler := Nat → Option Json → NotificationReaction

/-- The handler of a method whose params and result are typed. Absent params are taken for null; params
of another form are refused without calling it. -/
def RequestMethod.handler {P R : Type} (m : RequestMethod P R) (handle : Nat → P → Reaction R) :
    RequestHandler := fun turn params =>
  match m.params.ofJson (params.getD .null) with
  | .error cause =>
    { ending := .answered (.error (.invalidParams s!"{m.name}: {cause.message}")) }
  | .ok params =>
    let r := handle turn params
    { events := r.events, ending := r.ending.map m.result.write }

/-- The handler of a method whose params are typed. Absent params are taken for null; params of another
form are passed over without calling it. -/
def NotificationMethod.handler {P : Type} (m : NotificationMethod P)
    (handle : Nat → P → NotificationReaction) : NotificationHandler := fun turn params =>
  match m.params.ofJson (params.getD .null) with
  | .error _ => {}
  | .ok params => handle turn params

end LanguageClient
