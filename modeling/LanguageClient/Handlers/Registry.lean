import LanguageClient.Fault
import LanguageClient.Handlers.Reaction
import LanguageClient.Text.Quoted

/-!
# LanguageClient.Handlers.Registry -- which handlers a method has

A method has one handler of requests, or any number of handlers of notifications in the order of their
registration, never both. A registration that would break this is refused.
-/

namespace LanguageClient

/-- The handlers of a method. -/
inductive HandlerEntry where
  | request (handler : RequestHandler)
  | notifications (handlers : List NotificationHandler)

/-- The handlers of all methods. -/
structure HandlerRegistry where
  entries : Dict HandlerEntry := ∅

namespace HandlerRegistry

def get? (r : HandlerRegistry) (method : String) : Option HandlerEntry := r.entries.get? method

/-- The handler of requests of a method. -/
def requestHandler? (r : HandlerRegistry) (method : String) : Option RequestHandler :=
  match r.get? method with
  | some (.request handler) => some handler
  | _ => none

/-- The handlers of notifications of a method, in the order of their registration. -/
def notificationHandlers (r : HandlerRegistry) (method : String) : List NotificationHandler :=
  match r.get? method with
  | some (.notifications handlers) => handlers
  | _ => []

/-- Registers the handler of requests of a method that has no handler. -/
def addRequest (r : HandlerRegistry) (method : String) (handler : RequestHandler) :
    Except Fault HandlerRegistry :=
  match r.get? method with
  | none => .ok ⟨r.entries.insert method (.request handler)⟩
  | some _ => .error (.duplicateHandler method)

/-- Registers one more handler of notifications of a method. -/
def addNotification (r : HandlerRegistry) (method : String) (handler : NotificationHandler) :
    Except Fault HandlerRegistry :=
  match r.get? method with
  | none => .ok ⟨r.entries.insert method (.notifications [handler])⟩
  | some (.notifications handlers) =>
    .ok ⟨r.entries.insert method (.notifications (handlers ++ [handler]))⟩
  | some (.request _) => .error (.duplicateHandler method)

/-- Takes the handlers of a method out. -/
def erase (r : HandlerRegistry) (method : String) : HandlerRegistry := ⟨r.entries.erase method⟩

/-- The number of methods that have handlers. -/
def size (r : HandlerRegistry) : Nat := r.entries.size

/-- A registry as it stands in a message for people: its methods in ascending order. -/
def text (r : HandlerRegistry) : String :=
  "HandlerRegistry \x7b methods: [" ++ ", ".intercalate (r.entries.keys.map Text.shown) ++ "] \x7d"

/-! ## The handlers that a session has unless it is told otherwise -/

/-- Answers without doing anything. -/
def acknowledge {P : Type} : Nat → P → Reaction Unit := fun _ _ => { ending := .answered (.ok ()) }

/-- Answers every question about the configuration: nothing is configured. -/
def unconfigured : Nat → ConfigurationParams → Reaction (List Json) := fun _ params =>
  { ending := .answered (.ok (List.replicate params.items.length .null)) }

/-- Logs a message and chooses none of its buttons. -/
def logAndDismiss : Nat → ShowMessageRequestParams → Reaction (Option MessageActionItem) :=
  fun _ params =>
    { events := [.log params.level.logLevel params.message], ending := .answered (.ok none) }

/-- Logs a line of the trace, with its details on a line of their own. -/
def logTrace : Nat → LogTraceParams → NotificationReaction := fun _ params =>
  { events := [.log .trace (match params.verbose with
      | some verbose => params.message ++ "\n" ++ verbose
      | none => params.message)] }

/-- Acknowledges what has to be, knows no configuration, and logs every message. -/
def standard : HandlerRegistry :=
  ⟨.ofList [
    (Method.workDoneProgressCreate.name, .request (Method.workDoneProgressCreate.handler acknowledge)),
    (Method.registerCapability.name, .request (Method.registerCapability.handler acknowledge)),
    (Method.unregisterCapability.name, .request (Method.unregisterCapability.handler acknowledge)),
    (Method.workspaceConfiguration.name, .request (Method.workspaceConfiguration.handler unconfigured)),
    (Method.showMessageRequest.name, .request (Method.showMessageRequest.handler logAndDismiss)),
    (Method.logMessage.name, .notifications [Method.logMessage.handler fun _ params =>
      { events := [.log params.level.logLevel params.message] }]),
    (Method.showMessage.name, .notifications [Method.showMessage.handler fun _ params =>
      { events := [.log params.level.logLevel params.message] }]),
    (Method.logTrace.name, .notifications [Method.logTrace.handler logTrace])]⟩

end HandlerRegistry

end LanguageClient
