import LanguageClient.Session.Run

/-!
# LanguageClient.Session.Schedule -- tasks in the order in which they became ready

One way to choose whose turn it is: first come, first served. A task goes on until it has to wait; when
it begins to write a message, and again when the message is written, the others come first. `settle`
lets everything go on until nothing can. A session that its owner has left ends when its last call is
over.
-/

namespace LanguageClient

namespace Task

/-- Whether a task is writing, or failing the connection because it could not write. -/
def isWriting : Task → Bool
  | .writing _ _ | .terminating (.write _ _) | .closing (.write _ _) => true
  | _ => false

/-- The time at which a task stops waiting. -/
def deadline? : Task → Option Nat
  | .waiting _ _ deadline => deadline
  | _ => none

/-- Whether a task is a call that needs the session. Waiting with a waiter of one's own does not. -/
def needsSession : Task → Bool
  | .waiting _ .waiter _ | .finished _ => false
  | .reading | .answering _ | .hanging | .abandoning _ _ => false
  | .writing _ .loose | .terminating (.write _ .loose) | .closing (.write _ .loose) => false
  | .terminating .abandoned | .closing .abandoned | .terminating .ended | .closing .ended => false
  | _ => true

/-- Whether a task needs the connection. -/
def needsConnection : Task → Bool
  | .waiting _ .waiter _ | .finished _ => false
  | _ => true

end Task

namespace Session

/-- The tasks that can take a step. -/
def ready (s : Session) : List TaskId :=
  (s.tasks.filter (fun (_, task) => task.isReady s.shared)).map (·.1)

/-- Whether a task, with this step, begins or ends to write. -/
def yields (s next : Session) (t : TaskId) : Bool :=
  (s.task? t).any Task.isWriting != (next.task? t).any Task.isWriting

/-- Gives turns in the order of a queue, to which tasks are added when they become ready. -/
def serve : Nat → List TaskId → Session → Session
  | 0, _, s => s
  | _, [], s => s
  | fuel + 1, t :: queue, s =>
    match s.step? t with
    | none => serve fuel queue s
    | some next =>
      let woken := next.ready.filter (fun u => !(t :: queue).contains u)
      if s.yields next t then serve fuel (queue ++ woken ++ [t]) next
      else serve fuel (t :: (queue ++ woken)) next

/-- The tasks that can take a step, those first whose time is over earlier. -/
def line (s : Session) : List TaskId :=
  let ready := s.tasks.filter (fun (_, task) => task.isReady s.shared)
  (ready.mergeSort (fun a b => a.2.deadline?.getD 0 ≤ b.2.deadline?.getD 0)).map (·.1)

/-- A number of turns after which nothing can go on: no task takes more than a few dozen, and each that
begins does so for a message that was read. -/
def turns (s : Session) : Nat := 64 * (s.tasks.length + s.shared.input.length + 1)

/-- Lets everything go on until nothing can. -/
def settle (s : Session) : Session := serve s.turns s.line s

/-- Ends what a session without an owner does not need any more: the read loop if no call is going on,
and then the direction to the server and the calls that are waited for if nothing is. -/
def reap (s : Session) : Session :=
  if s.tasks.any (·.2.needsSession) then s
  else
    let s := s.replace readLoop none
    if s.tasks.any (·.2.needsConnection) then s
    else
      { s with shared := { s.shared.closeOutflow with pending := s.shared.pending.close } }

end Session

end LanguageClient
