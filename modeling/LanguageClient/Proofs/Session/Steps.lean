import LanguageClient.Proofs.Session.Turns

/-!
# LanguageClient.Proofs.Session.Steps -- the steps of a task, one by one

`Task.Steps` lists the steps that tasks can take: each with what it needs, what it makes of what is
shared, and where it goes on. `step_eq_some_iff` says that the list is complete and that each of its steps
is taken. What a step keeps is shown by cases on the list, without a look at how the steps are computed.
-/

namespace LanguageClient

/-- Where a call goes on that is taken only while the session is ready. -/
def Call.entry? : Call → Option Task
  | .request method params limit => some (.numbering method params (.result limit))
  | .start method params => some (.numbering method params .waiter)
  | .notify method params => some (.writing (.notification { method, params }) .notification)
  | .edit operation => some (.locking operation)
  | .handshake | .shutdown | .cancel _ | .lookUp _ | .closed => none

/-- Where a request goes on when its outcome is there. -/
inductive Purpose.Settles : Purpose → Outcome → Task → Prop
  | refused {f : Fault} : Settles .handshake (.error f) (.terminating (.handshake f))
  | unreadable {j : Json} {f : Fault} : Settles .handshake (.ok j) (.terminating (.handshake f))
  | accepted {j : Json} {r : InitializeResult} :
      Settles .handshake (.ok j) (.writing Purpose.initializedMessage (.initialized r))
  | shutdown {outcome : Outcome} : Settles .shutdown outcome
      (.writing Purpose.exitMessage (.exit (Purpose.shutdownAnswer outcome)))
  | result {limit : Option Nat} {outcome : Outcome} :
      Settles (.result limit) outcome (.finished (outcome.map .result))
  | waiter {outcome : Outcome} : Settles .waiter outcome (.finished (outcome.map .result))

theorem Purpose.settles (p : Purpose) (outcome : Outcome) : p.Settles outcome (p.settled outcome) := by
  cases p with
  | handshake =>
    rcases outcome with f | j
    · exact .refused
    · show Settles .handshake (.ok j) (Purpose.initialized j)
      unfold Purpose.initialized
      split
      · exact .unreadable
      · exact .accepted
  | shutdown => exact .shutdown
  | result limit => exact .result
  | waiter => exact .waiter

theorem Shared.write_of_flowing {s : Shared} (h : s.outflow = .flowing) (m : Message) :
    s.write m = (.ok (), { s with wire := s.wire ++ [m] }) := by
  simp [Shared.write, h]

theorem Shared.write_of_not_flowing {s : Shared} (h : s.outflow ≠ .flowing) (m : Message) :
    s.write m = (.error (.io .brokenPipe), s) := by
  unfold Shared.write
  cases hflow : s.outflow with
  | flowing => exact absurd hflow h
  | broken | closed => rfl

theorem Shared.closeOutflow_eq (s : Shared) :
    ∃ outflow, outflow ≠ .flowing ∧ s.closeOutflow = { s with outflow } := by
  unfold Shared.closeOutflow
  cases hflow : s.outflow with
  | flowing => exact ⟨.closed, nofun, rfl⟩
  | broken | closed => exact ⟨s.outflow, by rw [hflow]; exact nofun, rfl⟩

theorem Shared.answer_eq {s s' : Shared} {r : Request} {response : Option Response}
    (h : s.answer r = (response, s')) : ∃ calls, s' = { s with handled := s.handled ++ calls } := by
  unfold Shared.answer Shared.callHandler at h
  split at h
  · cases h
    exact ⟨[], by simp⟩
  · simp only at h
    split at h <;> cases h <;> exact ⟨[_], rfl⟩

/-! ## Where outcomes, cancellations and messages lead -/

/-- The places to which outcomes, cancellations and messages lead. -/
inductive Task.IsSequel : Task → Prop
  | notifying (n : Notification) (d : Sending) : IsSequel (.writing (.notification n) d)
  | rejecting (w : Waiter) (f : Fault) (p : Purpose) : IsSequel (.rejecting w f p)
  | leaving (w : Waiter) (f : Fault) (p : Purpose) : IsSequel (.leaving w f p)
  | waiting (w : Waiter) (p : Purpose) (deadline : Option Nat) : IsSequel (.waiting w p deadline)
  | recording (result : InitializeResult) : IsSequel (.recording result)
  | closingOutflow (answer : Except Fault Answer) : IsSequel (.closingOutflow answer)
  | terminating (f : Fault) : IsSequel (.terminating (.handshake f))
  | finished (answer : Except Fault Answer) : IsSequel (.finished answer)

theorem Purpose.sequel_settled (p : Purpose) (outcome : Outcome) : (p.settled outcome).IsSequel := by
  have hsettles := p.settles outcome
  generalize p.settled outcome = next at hsettles
  cases hsettles with
  | refused | unreadable => exact .terminating _
  | accepted | shutdown => exact .notifying _ _
  | result | waiter => exact .finished _

theorem Purpose.sequel_sent (p : Purpose) (s : Shared) (w : Waiter) : (p.sent s w).IsSequel := by
  cases p with
  | handshake | shutdown | result limit => exact .waiting _ _ _
  | waiter => exact .finished _

theorem Task.sequel_cancelled (after : AfterCancel) : (Task.cancelled after).IsSequel := by
  cases after with
  | none => exact .finished _
  | some pair => exact .leaving _ _ _

theorem Sending.sequel_done {d : Sending} {s : Shared} {r : Except Fault Unit} {next : Task}
    (h : d.done s r = some next) : next.IsSequel := by
  cases d with
  | request w p =>
    rcases r with f | _ <;> cases h
    · exact .rejecting _ _ _
    · exact p.sequel_sent s w
  | initialized result =>
    rcases r with f | _ <;> cases h
    · exact .terminating _
    · exact .recording _
  | exit answer =>
    cases h
    exact .closingOutflow _
  | notification | document answer =>
    cases h
    exact .finished _
  | cancellation after =>
    cases h
    exact Task.sequel_cancelled after
  | loose => cases h

theorem Aftermath.sequel_done {a : Aftermath} {s : Shared} {next : Task} (h : a.done s = some next) :
    next.IsSequel := by
  cases a with
  | write f d => exact Sending.sequel_done h
  | handshake f | exit answer =>
    cases h
    exact .finished _
  | abandoned | ended => cases h

namespace Task

open Progress

/-- The steps of tasks. -/
inductive Steps (me : TaskId) (s : Shared) : Task → Progress → Prop
  -- A call begins.
  | handshakeBegun {params : InitializeParams} (h : s.lifecycle.phase = .uninitialized)
      (hparams : s.options.handshakeParams = .ok params) :
      Steps me s (.called .handshake) ⟨{ s with lifecycle := s.lifecycle.enter .initializing },
        some (.numbering Method.handshake.name (sentParams (Method.handshake.params.write params))
          .handshake), none⟩
  | handshakeUnfit {f : Fault} (h : s.lifecycle.phase = .uninitialized)
      (hparams : s.options.handshakeParams = .error f) :
      Steps me s (.called .handshake) ⟨{ s with lifecycle := s.lifecycle.enter .initializing },
        some (.terminating (.handshake f)), none⟩
  | handshakeRefused (h : s.lifecycle.phase ≠ .uninitialized) :
      Steps me s (.called .handshake) ⟨s, some (.finished (.error .alreadyInitialized)), none⟩
  | exitBegun (h : s.lifecycle.phase = .uninitialized) :
      Steps me s (.called .shutdown)
        ⟨s, some (.writing Purpose.exitMessage (.exit (.ok .nothing))), none⟩
  | shutdownBegun (h : s.lifecycle.phase ≠ .uninitialized) :
      Steps me s (.called .shutdown) ⟨s, some .leavingReady, none⟩
  | taken {c : Call} {task : Task} (hentry : c.entry? = some task) (h : s.lifecycle.phase = .ready) :
      Steps me s (.called c) ⟨s, some task, none⟩
  | notTaken {c : Call} {task : Task} (hentry : c.entry? = some task) (h : s.lifecycle.phase ≠ .ready) :
      Steps me s (.called c) ⟨s, some (.finished (.error (.notReady s.lifecycle.phase))), none⟩
  | cancelBegun {id : Id} : Steps me s (.called (.cancel id)) ⟨s, some (.cancelling id none), none⟩
  | lookedUp {uri : DocumentUri} (h : s.documentsHolder = none) :
      Steps me s (.called (.lookUp uri))
        ⟨s, some (.finished (.ok (.document (s.documents.get? uri)))), none⟩
  | sawEnd (h : s.lifecycle.phase = .terminated) :
      Steps me s (.called .closed) ⟨s, some (.finished (.ok .nothing)), none⟩
  -- A request is sent, and its outcome awaited.
  | numbered {method : String} {params : Option Json} {p : Purpose} :
      Steps me s (.numbering method params p) ⟨{ s with pending := s.pending.allocate.2 },
        some (.registering s.pending.allocate.1 method params p), none⟩
  | registered {id : Id} {method : String} {params : Option Json} {p : Purpose} {w : Waiter}
      {pending : PendingCalls} (h : s.pending.register id method = .ok (w, pending)) :
      Steps me s (.registering id method params p) ⟨{ s with pending },
        some (.writing (.request { id, method, params }) (.request w p)), none⟩
  | unregistered {id : Id} {method : String} {params : Option Json} {p : Purpose} {f : Fault}
      (h : s.pending.register id method = .error f) :
      Steps me s (.registering id method params p) ⟨s, some (p.failed f), none⟩
  | written {m : Message} {d : Sending} (h : s.outflow = .flowing) :
      Steps me s (.writing m d) ⟨{ s with wire := s.wire ++ [m] },
        d.done { s with wire := s.wire ++ [m] } (.ok ()), none⟩
  | unwritten {m : Message} {d : Sending} (h : s.outflow ≠ .flowing) :
      Steps me s (.writing m d) ⟨s, some (.terminating (.write (.io .brokenPipe) d)), none⟩
  | rejected {w : Waiter} {f : Fault} {p : Purpose} :
      Steps me s (.rejecting w f p)
        ⟨{ s with pending := (s.pending.reject w.id .connectionClosed).2 }, some (.leaving w f p), none⟩
  | left {w : Waiter} {f : Fault} {p : Purpose} :
      Steps me s (.leaving w f p)
        ⟨{ s with pending := s.pending.abandon w }, some (p.failed f), none⟩
  | settled {w : Waiter} {p : Purpose} {deadline : Option Nat} {outcome : Outcome}
      {pending : PendingCalls} (h : s.pending.poll w = some (outcome, pending)) :
      Steps me s (.waiting w p deadline) ⟨{ s with pending }, some (p.settled outcome), none⟩
  | timedOut {w : Waiter} {p : Purpose} {time : Nat} (h : s.pending.poll w = none)
      (htime : time ≤ s.clock) :
      Steps me s (.waiting w p (some time)) ⟨s, some (.cancelling w.id (some (w, p))), none⟩
  | cancelled {id : Id} {after : AfterCancel} (h : (s.pending.cancel id).1 = true) :
      Steps me s (.cancelling id after)
        ⟨{ s with pending := (s.pending.cancel id).2 }, some (.noticing id after), none⟩
  | notFound {id : Id} {after : AfterCancel} (h : (s.pending.cancel id).1 = false) :
      Steps me s (.cancelling id after) ⟨s, some (Task.cancelled after), none⟩
  | noticed {id : Id} {after : AfterCancel} (h : s.lifecycle.phase = .ready) :
      Steps me s (.noticing id after)
        ⟨s, some (.writing (.notification (Method.cancel.notification ⟨id⟩)) (.cancellation after)), none⟩
  | unnoticed {id : Id} {after : AfterCancel} (h : s.lifecycle.phase ≠ .ready) :
      Steps me s (.noticing id after) ⟨s, some (Task.cancelled after), none⟩
  | abandonedHandshake {w : Waiter} :
      Steps me s (.abandoning w .handshake)
        ⟨{ s with pending := s.pending.abandon w }, some (.terminating .abandoned), none⟩
  | abandoned {w : Waiter} {p : Purpose} (h : p ≠ .handshake) :
      Steps me s (.abandoning w p) ⟨{ s with pending := s.pending.abandon w }, none, none⟩
  -- The session changes its phase.
  | recorded {result : InitializeResult} :
      Steps me s (.recording result)
        ⟨{ s with lifecycle := s.lifecycle.record result }, some (.entering result), none⟩
  | becameReady {result : InitializeResult} (h : s.lifecycle.phase = .initializing) :
      Steps me s (.entering result) ⟨{ s with lifecycle := s.lifecycle.enter .ready },
        some (.finished (.ok (.server result))), none⟩
  | notInitializing {result : InitializeResult} (h : s.lifecycle.phase ≠ .initializing) :
      Steps me s (.entering result)
        ⟨s, some (.finished (.error (.notReady s.lifecycle.phase))), none⟩
  | leftReady (h : s.lifecycle.phase = .ready) :
      Steps me s .leavingReady ⟨{ s with lifecycle := s.lifecycle.enter .shuttingDown },
        some (.numbering Method.shutdown.name none .shutdown), none⟩
  | leftAlready (h : s.lifecycle.phase = .shuttingDown ∨ s.lifecycle.phase = .terminated) :
      Steps me s .leavingReady ⟨s, some (.finished (.ok .nothing)), none⟩
  | notYetReady (h : s.lifecycle.phase = .uninitialized ∨ s.lifecycle.phase = .initializing) :
      Steps me s .leavingReady
        ⟨s, some (.finished (.error (.notReady s.lifecycle.phase))), none⟩
  | outflowClosed {answer : Except Fault Answer} {outflow : Outflow} (hclosed : outflow ≠ .flowing)
      (h : s.closeOutflow = { s with outflow }) :
      Steps me s (.closingOutflow answer)
        ⟨{ s with outflow }, some (.terminating (.exit answer)), none⟩
  | terminated {a : Aftermath} :
      Steps me s (.terminating a)
        ⟨{ s with lifecycle := s.lifecycle.terminate }, some (.closing a), none⟩
  | closed {a : Aftermath} :
      Steps me s (.closing a) ⟨{ s with pending := s.pending.close },
        a.done { s with pending := s.pending.close }, none⟩
  -- A document is worked on.
  | locked {operation : DocumentOperation} (h : s.documentsHolder = none) :
      Steps me s (.locking operation)
        ⟨{ s with documentsHolder := some me }, some (.editing operation), none⟩
  | edited {operation : DocumentOperation} {n : DocumentNotice} {documents : DocumentStore}
      (h : s.documents.apply operation = .ok (n, documents)) :
      Steps me s (.editing operation) ⟨{ s with documents },
        some (.writing (.notification n.notification) (.document n.answer)), none⟩
  | notEdited {operation : DocumentOperation} {f : Fault} (h : s.documents.apply operation = .error f) :
      Steps me s (.editing operation) ⟨s, some (.finished (.error f)), none⟩
  -- The read loop reads.
  | readRequest {r : Request} {rest : List UInt8} (h : s.next? = some (.ok (.request r), rest)) :
      Steps me s .reading ⟨{ s with input := rest }, some .reading, some r⟩
  | readResponse {r : Response} {rest : List UInt8} (h : s.next? = some (.ok (.response r), rest)) :
      Steps me s .reading
        ⟨{ s with input := rest, pending := (s.pending.resolve r).2 }, some .reading, none⟩
  | readNotification {n : Notification} {rest : List UInt8} {calls : List HandlerCall}
      (h : s.next? = some (.ok (.notification n), rest))
      (hcalls : Shared.callHandlers n 0 (s.options.handlers.notificationHandlers n.method)
        { s with input := rest } = { s with input := rest, handled := s.handled ++ calls }) :
      Steps me s .reading
        ⟨{ s with input := rest, handled := s.handled ++ calls }, some .reading, none⟩
  | readBadResponse {id : Id} {cause : ProtocolFault} {rest : List UInt8}
      (h : s.next? = some (.error (.protocol (some id) cause), rest)) :
      Steps me s .reading
        ⟨{ s with input := rest, pending := (s.pending.reject id (.protocol (some id) cause)).2 },
          some .reading, none⟩
  | readStray {cause : ProtocolFault} {rest : List UInt8}
      (h : s.next? = some (.error (.protocol none cause), rest)) :
      Steps me s .reading ⟨{ s with input := rest }, some .reading, none⟩
  | readEnd {f : Fault} {rest : List UInt8} (h : s.next? = some (.error f, rest))
      (hfatal : ∀ id cause, f ≠ .protocol id cause) :
      Steps me s .reading ⟨{ s with input := rest }, some (.terminating .ended), none⟩
  -- A request of the server is answered.
  | answered {r : Request} {response : Response} {calls : List HandlerCall}
      (h : s.answer r = (some response, { s with handled := s.handled ++ calls })) :
      Steps me s (.answering r) ⟨{ s with handled := s.handled ++ calls },
        some (.writing (.response response) .loose), none⟩
  | hung {r : Request} {calls : List HandlerCall}
      (h : s.answer r = (none, { s with handled := s.handled ++ calls })) :
      Steps me s (.answering r) ⟨{ s with handled := s.handled ++ calls }, some .hanging, none⟩

variable {me : TaskId} {s : Shared} {task : Task} {p : Progress}

theorem Steps.of_first {c : Call} (h : c.first s = some p) : Steps me s (.called c) p := by
  have hready : ∀ {task : Task}, c.entry? = some task → Call.whenReady s task = some p →
      Steps me s (.called c) p := by
    intro task hentry hwhen
    unfold Call.whenReady Lifecycle.ensureReady at hwhen
    by_cases hphase : s.lifecycle.phase = .ready
    · rw [if_pos hphase] at hwhen
      cases hwhen
      exact .taken hentry hphase
    · rw [if_neg hphase] at hwhen
      cases hwhen
      exact .notTaken hentry hphase
  cases c with
  | handshake =>
    simp only [Call.first, Lifecycle.beginInitialize] at h
    by_cases hphase : s.lifecycle.phase = .uninitialized
    · rw [if_pos hphase] at h
      simp only at h
      split at h
      · next hparams =>
        cases h
        exact .handshakeUnfit hphase hparams
      · next hparams =>
        cases h
        exact .handshakeBegun hphase hparams
    · rw [if_neg hphase] at h
      cases h
      exact .handshakeRefused hphase
  | shutdown =>
    simp only [Call.first] at h
    split at h
    · next hphase =>
      cases h
      exact .exitBegun hphase
    · next hphase =>
      cases h
      exact .shutdownBegun hphase
  | request method params limit => exact hready rfl h
  | start method params => exact hready rfl h
  | notify method params => exact hready rfl h
  | edit operation => exact hready rfl h
  | cancel id =>
    cases h
    exact .cancelBegun
  | lookUp uri =>
    simp only [Call.first] at h
    split at h
    · cases h
    · next hfree =>
      cases h
      exact .lookedUp (by simpa using hfree)
  | closed =>
    simp only [Call.first] at h
    split at h
    · next hphase =>
      cases h
      exact .sawEnd hphase
    · cases h

theorem Steps.of_read (h : Task.read s = some p) : Steps me s .reading p := by
  unfold Task.read at h
  split at h
  · cases h
  · next m rest hfound =>
    cases h
    cases m with
    | request r => exact .readRequest hfound
    | response r => exact .readResponse hfound
    | notification n =>
      have hcalls := Shared.callHandlers_eq n 0
        (s.options.handlers.notificationHandlers n.method) { s with input := rest }
      show Steps me s .reading ⟨Shared.callHandlers n 0 _ { s with input := rest }, some .reading, none⟩
      rw [hcalls]
      exact .readNotification hfound hcalls
  · next id cause rest hfound =>
    cases h
    exact .readBadResponse hfound
  · next cause rest hfound =>
    cases h
    exact .readStray hfound
  · next f rest hsome hnone hfound =>
    cases h
    refine .readEnd hfound fun id cause hf => ?_
    cases id with
    | none => exact hnone cause hf
    | some id => exact hsome id cause hf

theorem Steps.of_step (h : task.step me s = some p) : Steps me s task p := by
  cases task with
  | called c => exact .of_first h
  | numbering method params purpose =>
    cases h
    exact .numbered
  | registering id method params purpose =>
    simp only [step] at h
    split at h
    · next f hregister =>
      cases h
      exact .unregistered hregister
    · next w pending hregister =>
      cases h
      exact .registered hregister
  | writing m d =>
    by_cases hflow : s.outflow = .flowing
    · rw [step, Shared.write_of_flowing hflow] at h
      cases h
      exact .written hflow
    · rw [step, Shared.write_of_not_flowing hflow] at h
      cases h
      exact .unwritten hflow
  | rejecting w f purpose =>
    cases h
    exact .rejected
  | leaving w f purpose =>
    cases h
    exact .left
  | waiting w purpose deadline =>
    simp only [step, await] at h
    split at h
    · next outcome pending hpoll =>
      cases h
      exact .settled hpoll
    · next time hpoll =>
      split at h
      · next htime =>
        cases h
        exact .timedOut hpoll htime
      · cases h
    · cases h
  | cancelling id after =>
    simp only [step] at h
    split at h
    · next pending hcancel =>
      have hfound := congrArg Prod.fst hcancel
      have hpending := congrArg Prod.snd hcancel
      cases h
      simp only at hpending
      exact hpending ▸ .cancelled hfound
    · next pending hcancel =>
      cases h
      exact .notFound (congrArg Prod.fst hcancel)
  | noticing id after =>
    simp only [step] at h
    split at h
    · next hphase =>
      cases h
      exact .noticed hphase
    · next hphase =>
      cases h
      exact .unnoticed hphase
  | recording result =>
    cases h
    exact .recorded
  | entering result =>
    simp only [step, Lifecycle.becomeReady] at h
    by_cases hphase : s.lifecycle.phase = .initializing
    · rw [if_pos hphase] at h
      cases h
      exact .becameReady hphase
    · rw [if_neg hphase] at h
      cases h
      exact .notInitializing hphase
  | leavingReady =>
    simp only [step, Lifecycle.beginShutdown] at h
    cases hphase : s.lifecycle.phase with
    | uninitialized =>
      rw [hphase] at h
      cases h
      exact hphase ▸ .notYetReady (.inl hphase)
    | initializing =>
      rw [hphase] at h
      cases h
      exact hphase ▸ .notYetReady (.inr hphase)
    | ready =>
      rw [hphase] at h
      cases h
      exact .leftReady hphase
    | shuttingDown =>
      rw [hphase] at h
      cases h
      exact .leftAlready (.inl hphase)
    | terminated =>
      rw [hphase] at h
      cases h
      exact .leftAlready (.inr hphase)
  | closingOutflow answer =>
    cases h
    obtain ⟨outflow, hclosed, heq⟩ := s.closeOutflow_eq
    rw [heq]
    exact .outflowClosed hclosed heq
  | locking operation =>
    simp only [step] at h
    split at h
    · cases h
    · next hfree =>
      cases h
      exact .locked (by simpa using hfree)
  | editing operation =>
    simp only [step] at h
    split at h
    · next f happly =>
      cases h
      exact .notEdited happly
    · next n documents happly =>
      cases h
      exact .edited happly
  | terminating a =>
    cases h
    exact .terminated
  | closing a =>
    cases h
    exact .closed
  | reading => exact .of_read h
  | answering r =>
    simp only [step] at h
    split at h
    · next response s' hanswer =>
      cases h
      obtain ⟨calls, rfl⟩ := Shared.answer_eq hanswer
      exact .answered hanswer
    · next s' hanswer =>
      cases h
      obtain ⟨calls, rfl⟩ := Shared.answer_eq hanswer
      exact .hung hanswer
  | hanging => cases h
  | abandoning w purpose =>
    cases purpose with
    | handshake =>
      cases h
      exact .abandonedHandshake
    | shutdown | result _ | waiter =>
      cases h
      exact .abandoned (by simp)
  | finished answer => cases h

/-- The list is sound: each of its steps is the one that the task takes. -/
theorem Steps.step_eq (h : Steps me s task p) : task.step me s = some p := by
  cases h with
  | taken hentry h =>
    rename_i c task
    cases c <;> cases hentry <;> simp [step, Call.first, Call.whenReady, Lifecycle.ensureReady, h, goOn]
  | notTaken hentry h =>
    rename_i c task
    cases c <;> cases hentry <;>
      simp [step, Call.first, Call.whenReady, Lifecycle.ensureReady, h, finish, goOn]
  | handshakeBegun h hparams | handshakeUnfit h hparams =>
    simp [step, Call.first, Lifecycle.beginInitialize, h, hparams, goOn]
  | handshakeRefused h => simp [step, Call.first, Lifecycle.beginInitialize, h, finish, goOn]
  | exitBegun h | shutdownBegun h | lookedUp h | sawEnd h => simp [step, Call.first, h, finish, goOn]
  | written h => simp only [step, Shared.write_of_flowing h]
  | unwritten h => simp only [step, Shared.write_of_not_flowing h, goOn]
  | settled h => simp only [step, await, h, goOn]
  | timedOut h htime => simp only [step, await, h, if_pos htime, goOn]
  | cancelled h | notFound h =>
    rw [step]
    split <;> simp_all [goOn]
  | abandoned h =>
    rename_i w purpose
    cases purpose with
    | handshake => exact absurd rfl h
    | shutdown | result _ | waiter => rfl
  | becameReady h | notInitializing h => simp [step, Lifecycle.becomeReady, h, finish, goOn]
  | leftReady h => simp [step, Lifecycle.beginShutdown, h, goOn]
  | leftAlready h | notYetReady h =>
    rcases h with h | h <;> simp [step, Lifecycle.beginShutdown, h, finish, goOn]
  | readRequest h | readResponse h => simp only [step, read, h, Shared.dispatch]
  | readNotification h hcalls => simp only [step, read, h, Shared.dispatch, hcalls]
  | outflowClosed _ h => simp only [step, h, goOn]
  | readBadResponse h | readStray h => simp only [step, read, h, goOn]
  | readEnd h hfatal =>
    rename_i f rest
    rw [step, read, h]
    cases f with
    | protocol id cause => exact absurd rfl (hfatal id cause)
    | _ => rfl
  | registered h | unregistered h | noticed h | unnoticed h | locked h | edited h | notEdited h
  | answered h | hung h => simp [step, h, finish, goOn]
  | _ => rfl

theorem step_eq_some_iff : task.step me s = some p ↔ Steps me s task p :=
  ⟨Steps.of_step, Steps.step_eq⟩

/-- A step writes nothing but the message of its task. -/
theorem Steps.writes (h : Steps me s task p) : p.shared.wire = s.wire ∨
    ∃ m d, task = .writing m d ∧ p.shared.wire = s.wire ++ [m] := by
  cases h with
  | written hflow => exact .inr ⟨_, _, rfl, rfl⟩
  | _ => exact .inl rfl

/-- Only one place ends the direction to the server. -/
theorem Steps.outflow (h : Steps me s task p) (hne : ∀ answer, task ≠ .closingOutflow answer) :
    p.shared.outflow = s.outflow := by
  cases h with
  | outflowClosed _ _ => exact absurd rfl (hne _)
  | _ => rfl

/-- The direction to the server does not begin to flow again. -/
theorem Steps.flowing (h : Steps me s task p) (hflow : p.shared.outflow = .flowing) :
    s.outflow = .flowing := by
  by_cases hclosing : ∃ answer, task = .closingOutflow answer
  · obtain ⟨answer, rfl⟩ := hclosing
    cases h with
    | outflowClosed hclosed _ => exact absurd hflow hclosed
  · rwa [h.outflow fun answer heq => hclosing ⟨answer, heq⟩] at hflow

end Task

end LanguageClient
