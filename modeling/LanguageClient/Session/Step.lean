import LanguageClient.Session.Task

/-!
# LanguageClient.Session.Step -- one step of a task

`Task.step` is what a task does when it is its turn: it touches what is shared once and goes on to its
next place. A task that has to wait has no step; `isReady_iff` says that `Task.isReady` tells which
tasks do. `Task.remains` is what is left of a call whose caller is gone.
-/

namespace LanguageClient

/-- What a step makes of a task and of what is shared. -/
structure Progress where
  shared : Shared
  /-- Where the task goes on; none if it is over. -/
  next : Option Task
  /-- The request of the server that has to be answered from now on. -/
  asked : Option Request := none

namespace Progress

/-- Goes on at a place. -/
def goOn (s : Shared) (t : Task) : Option Progress := some { shared := s, next := some t }

/-- The call is over. -/
def finish (s : Shared) (answer : Except Fault Answer) : Option Progress := goOn s (.finished answer)

end Progress

namespace Call

open Progress

/-- Goes on if the session is ready. -/
def whenReady (s : Shared) (t : Task) : Option Progress :=
  match s.lifecycle.ensureReady with
  | .ok () => goOn s t
  | .error f => finish s (.error f)

/-- The first step of a call. -/
def first (s : Shared) : Call → Option Progress
  | .handshake =>
    match s.lifecycle.beginInitialize with
    | .error f => finish s (.error f)
    | .ok lifecycle =>
      match s.options.handshakeParams with
      | .error f => goOn { s with lifecycle } (.terminating (.handshake f))
      | .ok params =>
        let params := sentParams (Method.handshake.params.write params)
        goOn { s with lifecycle } (.numbering Method.handshake.name params .handshake)
  | .shutdown =>
    if s.lifecycle.phase = .uninitialized then
      goOn s (.writing Purpose.exitMessage (.exit (.ok .nothing)))
    else goOn s .leavingReady
  | .request method params limit => whenReady s (.numbering method params (.result limit))
  | .start method params => whenReady s (.numbering method params .waiter)
  | .notify method params => whenReady s (.writing (.notification { method, params }) .notification)
  | .cancel id => goOn s (.cancelling id none)
  | .edit operation => whenReady s (.locking operation)
  | .lookUp uri =>
    if s.documentsHolder.isSome then none else finish s (.ok (.document (s.documents.get? uri)))
  | .closed => if s.lifecycle.phase = .terminated then finish s (.ok .nothing) else none

end Call

namespace Task

open Progress

/-- The step of a request that waits: its outcome is there, or its time is over. -/
def await (s : Shared) (w : Waiter) (p : Purpose) (deadline : Option Nat) : Option Progress :=
  match s.pending.poll w, deadline with
  | some (outcome, pending), _ => goOn { s with pending } (p.settled outcome)
  | none, some time => if time ≤ s.clock then goOn s (.cancelling w.id (some (w, p))) else none
  | none, none => none

/-- The step of the read loop. A response that breaks the protocol fails the call it belongs to, and
reading goes on; any other fault ends the loop. -/
def read (s : Shared) : Option Progress :=
  match s.next? with
  | none => none
  | some (.ok m, rest) =>
    let (asked, s) := { s with input := rest }.dispatch m
    some { shared := s, next := some .reading, asked }
  | some (.error (.protocol (some id) cause), rest) =>
    let pending := (s.pending.reject id (.protocol (some id) cause)).2
    goOn { s with input := rest, pending } .reading
  | some (.error (.protocol none _), rest) => goOn { s with input := rest } .reading
  | some (.error _, rest) => goOn { s with input := rest } (.terminating .ended)

/-- The step of a task, whose name is `me`. -/
def step (me : TaskId) (s : Shared) : Task → Option Progress
  | .called c => c.first s
  | .numbering method params p =>
    let (id, pending) := s.pending.allocate
    goOn { s with pending } (.registering id method params p)
  | .registering id method params p =>
    match s.pending.register id method with
    | .error f => goOn s (p.failed f)
    | .ok (w, pending) =>
      goOn { s with pending } (.writing (.request { id, method, params }) (.request w p))
  | .writing m sending =>
    match s.write m with
    | (.ok (), s) => some { shared := s, next := sending.done s (.ok ()) }
    | (.error f, s) => goOn s (.terminating (.write f sending))
  | .rejecting w f p =>
    goOn { s with pending := (s.pending.reject w.id .connectionClosed).2 } (.leaving w f p)
  | .leaving w f p => goOn { s with pending := s.pending.abandon w } (p.failed f)
  | .waiting w p deadline => await s w p deadline
  | .cancelling id after =>
    match s.pending.cancel id with
    | (true, pending) => goOn { s with pending } (.noticing id after)
    | (false, _) => goOn s (cancelled after)
  | .noticing id after =>
    if s.lifecycle.phase = .ready then
      goOn s (.writing (.notification (Method.cancel.notification ⟨id⟩)) (.cancellation after))
    else goOn s (cancelled after)
  | .recording result =>
    goOn { s with lifecycle := s.lifecycle.record result } (.entering result)
  | .entering result =>
    match s.lifecycle.becomeReady with
    | (.ok (), lifecycle) => finish { s with lifecycle } (.ok (.server result))
    | (.error f, _) => finish s (.error f)
  | .leavingReady =>
    match s.lifecycle.beginShutdown with
    | (.ok true, lifecycle) =>
      goOn { s with lifecycle } (.numbering Method.shutdown.name none .shutdown)
    | (.ok false, _) => finish s (.ok .nothing)
    | (.error f, _) => finish s (.error f)
  | .closingOutflow answer => goOn s.closeOutflow (.terminating (.exit answer))
  | .locking operation =>
    if s.documentsHolder.isSome then none
    else goOn { s with documentsHolder := some me } (.editing operation)
  | .editing operation =>
    match s.documents.apply operation with
    | .error f => finish s (.error f)
    | .ok (n, documents) =>
      goOn { s with documents } (.writing (.notification n.notification) (.document n.answer))
  | .terminating a => goOn { s with lifecycle := s.lifecycle.terminate } (.closing a)
  | .closing a =>
    let s := { s with pending := s.pending.close }
    some { shared := s, next := a.done s }
  | .reading => read s
  | .answering r =>
    match s.answer r with
    | (some response, s) => goOn s (.writing (.response response) .loose)
    | (none, s) => goOn s .hanging
  | .hanging => none
  | .abandoning w p =>
    let s := { s with pending := s.pending.abandon w }
    match p with
    | .handshake => goOn s (.terminating .abandoned)
    | _ => some { shared := s, next := none }
  | .finished _ => none

/-- Whether a task can take a step. -/
def isReady (s : Shared) : Task → Bool
  | .called (.lookUp _) | .locking _ => s.documentsHolder.isNone
  | .called .closed => s.lifecycle.phase = .terminated
  | .waiting w _ deadline =>
    (s.pending.outcome? w).isSome || deadline.any (· ≤ s.clock)
  | .reading => s.hasInput
  | .hanging | .finished _ => false
  | _ => true

theorem isReady_iff (me : TaskId) (s : Shared) (t : Task) :
    t.isReady s = true ↔ (t.step me s).isSome = true := by
  have ready : ∀ u : Task, (Call.whenReady s u).isSome = true := by
    intro u
    unfold Call.whenReady
    split <;> rfl
  cases t with
  | called c =>
    cases c with
    | lookUp uri => cases h : s.documentsHolder <;> simp [isReady, step, Call.first, finish, goOn, h]
    | closed => by_cases h : s.lifecycle.phase = .terminated <;>
        simp [isReady, step, Call.first, finish, goOn, h]
    | handshake =>
      simp only [isReady, step, Call.first]
      split
      · simp [finish, goOn]
      · split <;> simp [goOn]
    | shutdown => simp only [isReady, step, Call.first]; split <;> simp [goOn]
    | request method params limit => simp [isReady, step, Call.first, ready]
    | start method params => simp [isReady, step, Call.first, ready]
    | notify method params => simp [isReady, step, Call.first, ready]
    | edit operation => simp [isReady, step, Call.first, ready]
    | cancel id => simp [isReady, step, Call.first, goOn]
  | waiting w p deadline =>
    simp only [isReady, step, await]
    cases h : s.pending.outcome? w <;> cases deadline <;> simp [PendingCalls.poll, goOn, h]
  | locking operation => cases h : s.documentsHolder <;> simp [isReady, step, goOn, h]
  | reading =>
    simp only [isReady, step, read, Shared.next?]
    cases h : s.hasInput
    · simp
    · simp only [↓reduceIte]
      split <;> simp_all [goOn]
  | registering id method params p => simp only [isReady, step]; split <;> simp [goOn]
  | writing m sending => simp only [isReady, step]; split <;> simp [goOn]
  | cancelling id after => simp only [isReady, step]; split <;> simp [goOn]
  | noticing id after => simp only [isReady, step]; split <;> simp [goOn]
  | entering result => simp only [isReady, step]; split <;> simp [finish, goOn]
  | leavingReady => simp only [isReady, step]; split <;> simp [finish, goOn]
  | editing operation => simp only [isReady, step]; split <;> simp [finish, goOn]
  | answering r => simp only [isReady, step]; split <;> simp [goOn]
  | abandoning w p => cases p <;> simp [isReady, step, goOn]
  | _ => simp [isReady, step, goOn]

/-- Whether a task is over. -/
def isOver : Task → Bool
  | .finished _ => true
  | _ => false

/-! ## Calls whose caller is gone -/

/-- What is left of a task when nobody waits any more for a message to be written. -/
def afterWrite : Sending → List Task
  | .request w p => [.abandoning w p]
  | .initialized _ => [.terminating .abandoned]
  | .cancellation (some (w, p)) => [.abandoning w p]
  | _ => []

/-- What is left of a call that is dropped where it waits: a message that is being written is written all
the same, and a waiter is given up. A task has to be where it can wait to be dropped; elsewhere, and
where it is no call, there is no answer. -/
def remains : Task → Option (List Task)
  | .called _ | .locking _ | .closingOutflow _ => some []
  | .writing _ .loose | .terminating (.write _ .loose) | .closing (.write _ .loose) => none
  | .writing m sending => some (.writing m .loose :: afterWrite sending)
  | .terminating (.write f sending) => some (.terminating (.write f .loose) :: afterWrite sending)
  | .closing (.write f sending) => some (.closing (.write f .loose) :: afterWrite sending)
  | .waiting w p _ => some [.abandoning w p]
  | .finished (.ok (.waiter w)) => some [.abandoning w .waiter]
  | .finished _ => some []
  | _ => none

end Task

end LanguageClient
