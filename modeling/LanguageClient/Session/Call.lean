import LanguageClient.Documents
import LanguageClient.PendingCalls
import LanguageClient.Protocol.Method

/-!
# LanguageClient.Session.Call -- what callers ask of a session, and what they get

The calls that a session takes, in terms of JSON: what is typed is read and written outside.
-/

namespace LanguageClient

/-- What a caller asks of a session. -/
inductive Call where
  /-- Makes the session ready: tells the server of the client, and takes what it answers. -/
  | handshake
  | shutdown
  /-- Asks the server and waits for its answer, for so many milliseconds if there is a limit. -/
  | request (method : String) (params : Option Json) (limit : Option Nat)
  /-- Asks the server without waiting for its answer. -/
  | start (method : String) (params : Option Json)
  | notify (method : String) (params : Option Json)
  /-- Gives up a request that was not answered yet. -/
  | cancel (id : Id)
  | edit (operation : DocumentOperation)
  /-- Looks up what is known of a document. -/
  | lookUp (uri : DocumentUri)
  /-- Waits for the end of the session. -/
  | closed

/-- What a call yields. -/
inductive Answer where
  | nothing
  | result (j : Json)
  | server (result : InitializeResult)
  | waiter (waiter : Waiter)
  | version (version : Int32)
  | document (document : Option Document)

/-- The notification of a method. -/
def NotificationMethod.notification {P : Type} (m : NotificationMethod P) (params : P) :
    Notification :=
  { method := m.name, params := sentParams (m.params.write params) }

namespace DocumentNotice

/-- The notification that tells the server of an operation on a document. -/
def notification : DocumentNotice → Notification
  | opened params => Method.didOpen.notification params
  | changed params => Method.didChange.notification params
  | saved params => Method.didSave.notification params
  | closed params => Method.didClose.notification params

/-- What the caller of an operation on a document gets: the version that was issued, if one was. -/
def answer (n : DocumentNotice) : Answer :=
  match n.version? with
  | some version => .version version
  | none => .nothing

end DocumentNotice

end LanguageClient
