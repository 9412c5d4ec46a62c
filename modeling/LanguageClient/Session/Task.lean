import LanguageClient.Session.Shared

/-!
# LanguageClient.Session.Task -- what is going on in a session

A task is a place in a call, in the read loop or in the answering of a request: what will be done next,
with what is needed for it. Between two places a task touches what is shared once, so that every order
in which tasks can take turns is an order of steps. Calls have parts in common, taking an id, writing,
waiting, failing the connection, and carry along what follows them.
-/

namespace LanguageClient

/-- What a request is sent for. -/
inductive Purpose where
  | handshake
  | shutdown
  /-- The caller waits for the result, for so many milliseconds if there is a limit. -/
  | result (limit : Option Nat)
  /-- The caller waits later, if at all. -/
  | waiter

/-- What follows a cancellation: nothing, or the end of a request whose time is over. -/
abbrev AfterCancel := Option (Waiter × Purpose)

/-- What follows the writing of a message. -/
inductive Sending where
  | request (waiter : Waiter) (purpose : Purpose)
  | initialized (result : InitializeResult)
  | exit (answer : Except Fault Answer)
  | notification
  | cancellation (after : AfterCancel)
  /-- The notification of an operation on a document; the documents are held meanwhile. -/
  | document (answer : Answer)
  /-- Nobody waits for it. -/
  | loose

/-- What follows the failing of the connection. -/
inductive Aftermath where
  | write (fault : Fault) (sending : Sending)
  | handshake (fault : Fault)
  | exit (answer : Except Fault Answer)
  /-- The caller of the handshake is gone. -/
  | abandoned
  /-- The read loop has come to its end. -/
  | ended

/-- A place in what is going on. -/
inductive Task where
  /-- Nothing is done yet. -/
  | called (call : Call)
  /-- An id has to be taken for a request. -/
  | numbering (method : String) (params : Option Json) (purpose : Purpose)
  /-- The request has to be entered in the table. -/
  | registering (id : Id) (method : String) (params : Option Json) (purpose : Purpose)
  /-- The message has to be written. -/
  | writing (message : Message) (sending : Sending)
  /-- The request could not be written; it has to be taken out of the table. -/
  | rejecting (waiter : Waiter) (fault : Fault) (purpose : Purpose)
  /-- The waiter has to be given up before the fault is passed on. -/
  | leaving (waiter : Waiter) (fault : Fault) (purpose : Purpose)
  /-- The request is not answered, and its time is not over. -/
  | waiting (waiter : Waiter) (purpose : Purpose) (deadline : Option Nat)
  /-- The request has to be failed because it is no longer wanted. -/
  | cancelling (id : Id) (after : AfterCancel)
  /-- The server has to be told, if the session is ready, that a request is no longer wanted. -/
  | noticing (id : Id) (after : AfterCancel)
  /-- The result of the handshake has to be put down. -/
  | recording (result : InitializeResult)
  /-- The phase has to become `ready`. -/
  | entering (result : InitializeResult)
  /-- The session is past the start, and the phase has to become `shuttingDown`. -/
  | leavingReady
  /-- The direction to the server has to be ended. -/
  | closingOutflow (answer : Except Fault Answer)
  /-- The documents have to be free. -/
  | locking (operation : DocumentOperation)
  /-- The documents are held, and the operation has to be done. -/
  | editing (operation : DocumentOperation)
  /-- The phase has to become `terminated`; this is the first half of failing the connection. -/
  | terminating (aftermath : Aftermath)
  /-- The table of calls has to be closed; this is the second half. -/
  | closing (aftermath : Aftermath)
  /-- The next message has to be read. -/
  | reading
  /-- The request of the server has to be handled. -/
  | answering (request : Request)
  /-- The handler never answers. -/
  | hanging
  /-- The caller is gone; the waiter has to be given up, and a handshake fails the connection. -/
  | abandoning (waiter : Waiter) (purpose : Purpose)
  /-- The call is over. -/
  | finished (answer : Except Fault Answer)

namespace Purpose

/-- What a caller gets when its handshake fails. -/
def handshakeFault : Fault → Fault
  | .initializationFailed text => .initializationFailed text
  | f => .initializationFailed f.message

/-- What the answer to a shutdown comes to. That the connection is gone is as good as any. -/
def shutdownAnswer : Outcome → Except Fault Answer
  | .ok _ => .ok .nothing
  | .error .connectionClosed => .ok .nothing
  | .error f => .error f

/-- The last message of a session. -/
def exitMessage : Message := .notification (Method.exit.notification ())

/-- The message that ends the handshake. -/
def initializedMessage : Message := .notification (Method.initialized.notification {})

/-- Goes on after a request that was sent. -/
def sent (p : Purpose) (s : Shared) (w : Waiter) : Task :=
  match p with
  | .handshake => .waiting w p (s.options.initializeTimeout.map (s.clock + ·))
  | .shutdown => .waiting w p none
  | .result limit => .waiting w p (limit.map (s.clock + ·))
  | .waiter => .finished (.ok (.waiter w))

/-- Goes on after what the handshake was answered. -/
def initialized (j : Json) : Task :=
  match Method.handshake.result.ofJson j with
  | .error cause =>
    .terminating (.handshake (.initializationFailed s!"Invalid initialize result: {cause.message}"))
  | .ok r => .writing initializedMessage (.initialized r)

/-- Goes on after the outcome of a request. -/
def settled (p : Purpose) (outcome : Outcome) : Task :=
  match p, outcome with
  | .handshake, .ok j => initialized j
  | .handshake, .error f => .terminating (.handshake f)
  | .shutdown, outcome => .writing exitMessage (.exit (shutdownAnswer outcome))
  | .result _, outcome => .finished (outcome.map .result)
  | .waiter, outcome => .finished (outcome.map .result)

/-- Goes on after a request that could not be sent, or whose time is over. -/
def failed (p : Purpose) (f : Fault) : Task := p.settled (.error f)

end Purpose

namespace Task

/-- Goes on after a cancellation. -/
def cancelled : AfterCancel → Task
  | none => .finished (.ok .nothing)
  | some (w, p) => .leaving w .timeout p

end Task

namespace Sending

/-- Goes on after the message was written, or not. -/
def done (d : Sending) (s : Shared) (r : Except Fault Unit) : Option Task :=
  match d, r with
  | .request w p, .ok () => some (p.sent s w)
  | .request w p, .error f => some (.rejecting w f p)
  | .initialized result, .ok () => some (.recording result)
  | .initialized _, .error f => some (.terminating (.handshake f))
  | .exit answer, _ => some (.closingOutflow answer)
  | .notification, r => some (.finished (r.map (fun _ => .nothing)))
  | .cancellation after, _ => some (Task.cancelled after)
  | .document answer, r => some (.finished (r.map (fun _ => answer)))
  | .loose, _ => none

end Sending

namespace Aftermath

/-- Goes on after the connection was failed. -/
def done (a : Aftermath) (s : Shared) : Option Task :=
  match a with
  | .write f sending => sending.done s (.error f)
  | .handshake f => some (.finished (.error (Purpose.handshakeFault f)))
  | .exit answer => some (.finished answer)
  | .abandoned | .ended => none

end Aftermath

end LanguageClient
