import LanguageClient.Session.Step

/-!
# LanguageClient.Session.Run -- sessions and what happens to them

A session is what its tasks share and the tasks themselves. Everything that can happen to it is an
`Action`: a caller begins a call or drops one, a task takes its turn, bytes arrive or end, the direction
to the server breaks, time passes. Which task takes its turn, and when, is part of the actions, so that
the runs of a list of actions are all ways in which a session can go.
-/

namespace LanguageClient

/-- A connection to a server, with all that goes on in it. -/
structure Session where
  shared : Shared
  tasks : List (TaskId × Task)
  nextTask : TaskId

namespace Session

/-- The name of the read loop. -/
def readLoop : TaskId := 0

/-- A session that was just begun: nothing but the read loop goes on. -/
def create (options : SessionOptions) : Session where
  shared := { options }
  tasks := [(readLoop, .reading)]
  nextTask := 1

/-- The task of a name. -/
def task? (s : Session) (t : TaskId) : Option Task := s.tasks.lookup t

/-- Puts another task in the place of one, or none. -/
def replace (s : Session) (t : TaskId) (next : Option Task) : Session :=
  { s with tasks := s.tasks.filterMap fun (u, task) =>
      if u = t then next.map (u, ·) else some (u, task) }

/-- Adds a task under a name of its own. -/
def spawn (s : Session) (task : Task) : Session :=
  { s with tasks := s.tasks ++ [(s.nextTask, task)], nextTask := s.nextTask + 1 }

/-- Gives the documents free if a task is over. -/
def release (s : Session) (t : TaskId) (next : Option Task) : Session :=
  if next.all Task.isOver then { s with shared := s.shared.releaseDocuments t } else s

/-- The step of a task, if it can take one. -/
def step? (s : Session) (t : TaskId) : Option Session :=
  match s.task? t with
  | none => none
  | some task =>
    match task.step t s.shared with
    | none => none
    | some p =>
      let s := ({ s with shared := p.shared }.replace t p.next).release t p.next
      match p.asked with
      | none => some s
      | some r => some (s.spawn (.answering r))

/-- Drops a call where it waits, or a request that was started. -/
def drop (s : Session) (t : TaskId) : Session :=
  match (s.task? t).bind Task.remains with
  | none => s
  | some rest => rest.foldl spawn ((s.replace t none).release t none)

/-- Begins to wait for the answer to a request that was started. -/
def await (s : Session) (t : TaskId) : Session :=
  match s.task? t with
  | some (.finished (.ok (.waiter w))) => s.replace t (some (.waiting w .waiter none))
  | _ => s

/-- Takes a call away that is over. A started request that is not waited for stays. -/
def collect (s : Session) (t : TaskId) : Session :=
  match s.task? t with
  | some (.finished (.ok (.waiter _))) => s
  | some (.finished _) => s.replace t none
  | _ => s

/-- The answer of a call that is over. -/
def answer? (s : Session) (t : TaskId) : Option (Except Fault Answer) :=
  match s.task? t with
  | some (.finished answer) => some answer
  | _ => none

/-- Something that happens to a session. -/
inductive Action where
  /-- A caller begins a call. -/
  | call (c : Call)
  /-- A task takes its turn; nothing happens if it has to wait. -/
  | turn (t : TaskId)
  /-- A caller drops a call, or a request that it has started. -/
  | drop (t : TaskId)
  /-- A caller begins to wait for the answer to a request that it has started. -/
  | await (t : TaskId)
  /-- A caller takes the answer of a call that is over. -/
  | collect (t : TaskId)
  /-- The server sends bytes. -/
  | arrive (bytes : List UInt8)
  /-- The server ends the stream, or it fails. -/
  | endInput (failure : Option IoFault)
  /-- The server does not read any more. -/
  | breakOutflow
  | pass (milliseconds : Nat)

/-- What an action makes of a session. -/
def act (s : Session) : Action → Session
  | .call c => s.spawn (.called c)
  | .turn t => (s.step? t).getD s
  | .drop t => s.drop t
  | .await t => s.await t
  | .collect t => s.collect t
  | .arrive bytes =>
    if s.shared.inflow = .flowing then
      { s with shared := { s.shared with input := s.shared.input ++ bytes } }
    else s
  | .endInput failure =>
    if s.shared.inflow = .flowing then
      { s with shared := { s.shared with inflow := .ended failure } }
    else s
  | .breakOutflow =>
    if s.shared.outflow = .flowing then { s with shared := { s.shared with outflow := .broken } }
    else s
  | .pass ms => { s with shared := { s.shared with clock := s.shared.clock + ms } }

/-- What a list of actions makes of a session. -/
def run (s : Session) (actions : List Action) : Session := actions.foldl act s

/-- Whether bytes from the server are still read. -/
def isReading (s : Session) : Bool :=
  s.shared.inflow = .flowing && s.tasks.any (fun (_, task) =>
    match task with
    | .reading => true
    | _ => false)

end Session

end LanguageClient
