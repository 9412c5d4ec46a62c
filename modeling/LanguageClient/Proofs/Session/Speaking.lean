import LanguageClient.Proofs.Session.Parts
import LanguageClient.Proofs.Session.Steps
import LanguageClient.Session.Schedule

/-!
# LanguageClient.Proofs.Session.Speaking -- which place in a call may say what

Each place in a call goes with what was said before it and with the phases in which it can be
(`Task.Speaks`), so that what the call says there fits. Whatever else goes on says nothing of the client's
own (`Task.IsQuiet.step`), and the call does not notice it (`Task.Speaks.calm`).
-/

namespace LanguageClient

/-! ## What goes with a place in a call -/

/-- Callers do not name the messages by which sessions begin and end. -/
def Call.IsOrdinary : Call → Prop
  | .request method _ _ | .start method _ | .notify method _ => method ∉ reserved
  | _ => True

/-- The session is in a phase, or has terminated. -/
def Shared.IsIn (s : Shared) (phase : Phase) : Prop :=
  s.lifecycle.phase = phase ∨ s.lifecycle.phase = .terminated

/-- What holds while no call goes on. -/
structure Shared.AtRest (cut : Prop) (s : Shared) : Prop where
  allowed : IsAllowed cut s.sent
  fresh : s.lifecycle.phase = .uninitialized → s.sent = []
  opened : s.lifecycle.phase = .ready → IsOpened s.sent

namespace Purpose

/-- The phase in which requests of a purpose are sent. -/
def home : Purpose → Phase
  | handshake => .initializing
  | shutdown => .shuttingDown
  | result _ | waiter => .ready

/-- What requests of a purpose are called. -/
def Names (method : String) : Purpose → Prop
  | handshake => method = "initialize"
  | shutdown => method = "shutdown"
  | result _ | waiter => method ∉ reserved

/-- What was said before a request is sent. -/
def Before (sent : List Part) : Purpose → Prop
  | handshake => sent = []
  | shutdown | result _ | waiter => IsOpened sent

/-- What was said when a request is sent. -/
def After (sent : List Part) : Purpose → Prop
  | handshake => sent = [.handshake]
  | shutdown => ∃ ps, IsOpened ps ∧ sent = ps ++ [.shutdown]
  | result _ | waiter => IsOpened sent

/-- What was said when a request has failed. The one that ends the session was not sent then, and nothing
can be sent any more, or it was refused, which cuts the session short. -/
def Failed (cut : Prop) (s : Shared) : Purpose → Prop
  | handshake => s.sent = [] ∨ s.sent = [.handshake]
  | shutdown => IsOpened s.sent ∧ (s.outflow ≠ .flowing ∨ cut)
  | result _ | waiter => IsOpened s.sent

end Purpose

/-- What goes with a request that is being cancelled. -/
def AfterCancel.Fits (cut : Prop) (s : Shared) : AfterCancel → Prop
  | none => s.AtRest cut
  | some (_, p) => p ≠ .shutdown ∧ s.IsIn p.home ∧ p.After s.sent

namespace Sending

/-- What was said before a message is written. -/
def Fits (cut : Prop) (s : Shared) : Sending → Prop
  | request _ p => s.IsIn p.home ∧ p.Before s.sent
  | initialized _ => s.IsIn .initializing ∧ s.sent = [.handshake]
  | exit _ => s.sent = [] ∨ Purpose.shutdown.After s.sent ∨ Purpose.shutdown.Failed cut s
  | notification | document _ => s.IsIn .ready ∧ IsOpened s.sent
  | cancellation after => s.IsIn .ready ∧ IsOpened s.sent ∧ ∀ w p, after = some (w, p) → p.home = .ready
  | loose => False

/-- What is said with a message. -/
def Carries (m : Message) : Sending → Prop
  | request _ p => ∃ r, m = .request r ∧ p.Names r.method
  | initialized _ => m = Purpose.initializedMessage
  | exit _ => m = Purpose.exitMessage
  | notification | document _ | cancellation _ => ∃ n, m = .notification n ∧ n.method ∉ reserved
  | loose => False

end Sending

/-! ## What was said fits -/

variable {cut : Prop} {s : Shared}

namespace Purpose

variable {p : Purpose}

theorem Before.allowed (h : p.Before s.sent) : IsAllowed cut s.sent := by
  cases p with
  | handshake => exact h ▸ allowed_nil
  | shutdown | result _ | waiter => exact IsOpened.allowed h

theorem After.allowed (h : p.After s.sent) : IsAllowed cut s.sent := by
  cases p with
  | handshake => exact h ▸ allowed_handshake
  | shutdown =>
    obtain ⟨ps, hopened, hsent⟩ := h
    exact hsent ▸ hopened.allowed_shutdown
  | result _ | waiter => exact IsOpened.allowed h

theorem Failed.allowed (h : p.Failed cut s) : IsAllowed cut s.sent := by
  cases p with
  | handshake =>
    rcases h with hsent | hsent
    · exact hsent ▸ allowed_nil
    · exact hsent ▸ allowed_handshake
  | shutdown => exact h.1.allowed
  | result _ | waiter => exact IsOpened.allowed h

end Purpose

theorem AfterCancel.Fits.allowed {after : AfterCancel} (h : after.Fits cut s) : IsAllowed cut s.sent := by
  cases after with
  | none => exact Shared.AtRest.allowed h
  | some pair => exact Purpose.After.allowed h.2.2

theorem Sending.Fits.allowed {d : Sending} (h : d.Fits cut s) : IsAllowed cut s.sent := by
  cases d with
  | request w p => exact h.2.allowed
  | initialized result => exact h.2 ▸ allowed_handshake
  | exit answer =>
    rcases h with hsent | hafter | hfailed
    · exact hsent ▸ allowed_nil
    · exact hafter.allowed
    · exact hfailed.allowed
  | notification | document answer => exact h.2.allowed
  | cancellation after => exact h.2.1.allowed
  | loose => exact h.elim

namespace Task

/-- The places in a call, each with what was said before. -/
inductive Speaks (cut : Prop) (s : Shared) : Task → Prop
  | called {c : Call} (ordinary : c.IsOrdinary) (rest : s.AtRest cut) : Speaks cut s (.called c)
  | numbering {method : String} {params : Option Json} {p : Purpose} (names : p.Names method)
      (phase : s.IsIn p.home) (before : p.Before s.sent) : Speaks cut s (.numbering method params p)
  | registering {id : Id} {method : String} {params : Option Json} {p : Purpose}
      (names : p.Names method) (phase : s.IsIn p.home) (before : p.Before s.sent) :
      Speaks cut s (.registering id method params p)
  | writing {m : Message} {d : Sending} (carries : d.Carries m) (fits : d.Fits cut s) :
      Speaks cut s (.writing m d)
  | rejecting {w : Waiter} {f : Fault} {p : Purpose} (phase : s.IsIn p.home) (failed : p.Failed cut s) :
      Speaks cut s (.rejecting w f p)
  | leaving {w : Waiter} {f : Fault} {p : Purpose} (phase : s.IsIn p.home) (failed : p.Failed cut s) :
      Speaks cut s (.leaving w f p)
  | waiting {w : Waiter} {p : Purpose} {deadline : Option Nat} (hp : p ≠ .waiter)
      (unlimited : p = .shutdown → deadline = none) (phase : s.IsIn p.home) (after : p.After s.sent) :
      Speaks cut s (.waiting w p deadline)
  | cancelling {id : Id} {after : AfterCancel} (fits : after.Fits cut s) :
      Speaks cut s (.cancelling id after)
  | noticing {id : Id} {after : AfterCancel} (fits : after.Fits cut s) :
      Speaks cut s (.noticing id after)
  | recording {result : InitializeResult} (phase : s.IsIn .initializing)
      (sent : s.sent = [.handshake, .initialized]) : Speaks cut s (.recording result)
  | entering {result : InitializeResult} (phase : s.IsIn .initializing)
      (sent : s.sent = [.handshake, .initialized]) : Speaks cut s (.entering result)
  | leavingReady (rest : s.AtRest cut) : Speaks cut s .leavingReady
  | closingOutflow {answer : Except Fault Answer} (allowed : IsAllowed cut s.sent) :
      Speaks cut s (.closingOutflow answer)
  | locking {operation : DocumentOperation} (phase : s.IsIn .ready) (opened : IsOpened s.sent) :
      Speaks cut s (.locking operation)
  | editing {operation : DocumentOperation} (phase : s.IsIn .ready) (opened : IsOpened s.sent) :
      Speaks cut s (.editing operation)
  | unwritten {f : Fault} {d : Sending} (outflow : s.outflow ≠ .flowing) (fits : d.Fits cut s) :
      Speaks cut s (.terminating (.write f d))
  | terminating {a : Aftermath} (ends : (∃ f, a = .handshake f) ∨ ∃ answer, a = .exit answer)
      (allowed : IsAllowed cut s.sent) : Speaks cut s (.terminating a)
  | unwrittenClosing {f : Fault} {d : Sending} (phase : s.lifecycle.phase = .terminated)
      (outflow : s.outflow ≠ .flowing) (fits : d.Fits cut s) : Speaks cut s (.closing (.write f d))
  | closing {a : Aftermath} (ends : (∃ f, a = .handshake f) ∨ ∃ answer, a = .exit answer)
      (phase : s.lifecycle.phase = .terminated) (allowed : IsAllowed cut s.sent) :
      Speaks cut s (.closing a)

/-- The places of what is not a call, or of one that is over: nothing of the client's own is said there. -/
inductive IsQuiet : Task → Prop
  | waiting (w : Waiter) : IsQuiet (.waiting w .waiter none)
  | finished (answer : Except Fault Answer) : IsQuiet (.finished answer)
  | reading : IsQuiet .reading
  | answering (r : Request) : IsQuiet (.answering r)
  | writing (r : Response) : IsQuiet (.writing (.response r) .loose)
  | hanging : IsQuiet .hanging
  | abandoning (w : Waiter) (p : Purpose) : IsQuiet (.abandoning w p)
  | terminating {a : Aftermath} (ends : (∃ f, a = .write f .loose) ∨ a = .abandoned ∨ a = .ended) :
      IsQuiet (.terminating a)
  | closing {a : Aftermath} (ends : (∃ f, a = .write f .loose) ∨ a = .abandoned ∨ a = .ended) :
      IsQuiet (.closing a)

variable {task : Task}

theorem Speaks.allowed (h : task.Speaks cut s) : IsAllowed cut s.sent := by
  cases h with
  | called ordinary rest => exact rest.allowed
  | numbering names phase before | registering names phase before => exact before.allowed
  | writing carries fits => exact fits.allowed
  | rejecting phase failed | leaving phase failed => exact failed.allowed
  | waiting hp unlimited phase after => exact after.allowed
  | cancelling fits | noticing fits => exact fits.allowed
  | recording phase sent | entering phase sent => exact sent ▸ opened_initialized.allowed
  | leavingReady rest => exact rest.allowed
  | locking phase opened | editing phase opened => exact opened.allowed
  | unwritten outflow fits | unwrittenClosing phase outflow fits => exact fits.allowed
  | closingOutflow allowed | terminating ends allowed | closing ends phase allowed => exact allowed

theorem Speaks.needsSession (h : task.Speaks cut s) : task.needsSession = true := by
  cases h with
  | writing carries fits | unwritten outflow fits | unwrittenClosing phase outflow fits =>
    rename_i d
    cases d with
    | loose => exact fits.elim
    | _ => rfl
  | waiting hp unlimited phase after =>
    rename_i w p deadline
    cases p with
    | waiter => exact absurd rfl hp
    | _ => rfl
  | terminating ends allowed | closing ends phase allowed =>
    rcases ends with ⟨f, rfl⟩ | ⟨answer, rfl⟩ <;> rfl
  | _ => rfl

theorem IsQuiet.needsSession (h : task.IsQuiet) : task.needsSession = false := by
  cases h with
  | terminating ends | closing ends => rcases ends with ⟨f, rfl⟩ | rfl | rfl <;> rfl
  | _ => rfl

end Task

/-! ## What a call does not notice -/

/-- Nothing was said meanwhile, and the phase is as before or the session has terminated. -/
structure Calm (s s' : Shared) : Prop where
  sent : s'.sent = s.sent
  phase : s'.lifecycle.phase = s.lifecycle.phase ∨ s'.lifecycle.phase = .terminated
  terminated : s.lifecycle.phase = .terminated → s'.lifecycle.phase = .terminated
  outflow : s.outflow ≠ .flowing → s'.outflow ≠ .flowing

variable {s' : Shared} {task : Task}

/-- What is shared but for the phase, the wire and the direction to the server does not matter. -/
theorem Calm.of_eq (hwire : s'.wire = s.wire) (hlifecycle : s'.lifecycle = s.lifecycle)
    (houtflow : s'.outflow = s.outflow) : Calm s s' where
  sent := congrArg (List.filterMap Message.part?) hwire
  phase := .inl (congrArg Lifecycle.phase hlifecycle)
  terminated h := (congrArg Lifecycle.phase hlifecycle).trans h
  outflow h := houtflow ▸ h

namespace Calm

theorem trans {s'' : Shared} (h : Calm s s') (h' : Calm s' s'') : Calm s s'' where
  sent := h'.sent.trans h.sent
  phase := by
    rcases h'.phase with hsame | hover
    · exact h.phase.imp hsame.trans hsame.trans
    · exact .inr hover
  terminated hphase := h'.terminated (h.terminated hphase)
  outflow hbroken := h'.outflow (h.outflow hbroken)

theorem isIn (h : Calm s s') {phase : Phase} (hin : s.IsIn phase) : s'.IsIn phase := by
  rcases hin with hphase | hphase
  · rcases h.phase with hsame | hover
    · exact .inl (hsame.trans hphase)
    · exact .inr hover
  · exact .inr (h.terminated hphase)

theorem atRest (h : Calm s s') (hrest : s.AtRest cut) : s'.AtRest cut where
  allowed := h.sent ▸ hrest.allowed
  fresh hphase := by
    have hsame := h.phase.resolve_right (by rw [hphase]; decide)
    exact h.sent.trans (hrest.fresh (hsame.symm.trans hphase))
  opened hphase := by
    have hsame := h.phase.resolve_right (by rw [hphase]; decide)
    exact h.sent ▸ hrest.opened (hsame.symm.trans hphase)

theorem failed (h : Calm s s') {p : Purpose} (hfailed : p.Failed cut s) : p.Failed cut s' := by
  cases p with
  | shutdown => exact ⟨h.sent ▸ hfailed.1, hfailed.2.imp_left h.outflow⟩
  | handshake | result _ | waiter =>
    unfold Purpose.Failed at hfailed ⊢
    rwa [h.sent]

theorem afterCancel (h : Calm s s') {after : AfterCancel} (hfits : after.Fits cut s) :
    after.Fits cut s' := by
  cases after with
  | none => exact h.atRest hfits
  | some pair => exact ⟨hfits.1, h.isIn hfits.2.1, h.sent ▸ hfits.2.2⟩

theorem sending (h : Calm s s') {d : Sending} (hfits : d.Fits cut s) : d.Fits cut s' := by
  cases d with
  | request w p => exact ⟨h.isIn hfits.1, h.sent ▸ hfits.2⟩
  | initialized result => exact ⟨h.isIn hfits.1, h.sent.trans hfits.2⟩
  | exit answer =>
    rcases hfits with hsent | hafter | hfailed
    · exact .inl (h.sent.trans hsent)
    · exact .inr (.inl (h.sent ▸ hafter))
    · exact .inr (.inr (h.failed hfailed))
  | notification | document answer => exact ⟨h.isIn hfits.1, h.sent ▸ hfits.2⟩
  | cancellation after => exact ⟨h.isIn hfits.1, h.sent ▸ hfits.2.1, hfits.2.2⟩
  | loose => exact hfits.elim

end Calm

/-- What is said at a place still fits after others have gone on. -/
theorem Task.Speaks.calm (h : task.Speaks cut s) (hcalm : Calm s s') : task.Speaks cut s' := by
  have allowed : IsAllowed cut s.sent → IsAllowed cut s'.sent := fun h => hcalm.sent ▸ h
  have opened : IsOpened s.sent → IsOpened s'.sent := fun h => hcalm.sent ▸ h
  cases h with
  | called ordinary rest => exact .called ordinary (hcalm.atRest rest)
  | numbering names phase before => exact .numbering names (hcalm.isIn phase) (hcalm.sent ▸ before)
  | registering names phase before => exact .registering names (hcalm.isIn phase) (hcalm.sent ▸ before)
  | writing carries fits => exact .writing carries (hcalm.sending fits)
  | rejecting phase failed => exact .rejecting (hcalm.isIn phase) (hcalm.failed failed)
  | leaving phase failed => exact .leaving (hcalm.isIn phase) (hcalm.failed failed)
  | waiting hp unlimited phase after =>
    exact .waiting hp unlimited (hcalm.isIn phase) (hcalm.sent ▸ after)
  | cancelling fits => exact .cancelling (hcalm.afterCancel fits)
  | noticing fits => exact .noticing (hcalm.afterCancel fits)
  | recording phase sent => exact .recording (hcalm.isIn phase) (hcalm.sent.trans sent)
  | entering phase sent => exact .entering (hcalm.isIn phase) (hcalm.sent.trans sent)
  | leavingReady rest => exact .leavingReady (hcalm.atRest rest)
  | closingOutflow hallowed => exact .closingOutflow (allowed hallowed)
  | locking phase hopened => exact .locking (hcalm.isIn phase) (opened hopened)
  | editing phase hopened => exact .editing (hcalm.isIn phase) (opened hopened)
  | unwritten outflow fits => exact .unwritten (hcalm.outflow outflow) (hcalm.sending fits)
  | terminating ends hallowed => exact .terminating ends (allowed hallowed)
  | unwrittenClosing phase outflow fits =>
    exact .unwrittenClosing (hcalm.terminated phase) (hcalm.outflow outflow) (hcalm.sending fits)
  | closing ends phase hallowed => exact .closing ends (hcalm.terminated phase) (allowed hallowed)

/-- What goes on beside the calls says nothing. -/
theorem Task.IsQuiet.step (h : task.IsQuiet) {me : TaskId} {p : Progress} (step : Steps me s task p) :
    Calm s p.shared ∧ ∀ next, p.next = some next → next.IsQuiet := by
  have gone : ∀ {next : Task}, next.IsQuiet → ∀ task', some next = some task' → task'.IsQuiet :=
    fun hnext _ heq => Option.some.inj heq ▸ hnext
  have ended : ∀ task' : Task, none = some task' → task'.IsQuiet :=
    fun _ heq => (Option.some_ne_none _ heq.symm).elim
  cases h with
  | waiting w =>
    cases step with
    | settled => exact ⟨.of_eq rfl rfl rfl, gone (.finished _)⟩
  | finished answer => cases step
  | reading =>
    cases step with
    | readRequest | readResponse | readNotification | readBadResponse | readStray =>
      exact ⟨.of_eq rfl rfl rfl, gone .reading⟩
    | readEnd => exact ⟨.of_eq rfl rfl rfl, gone (.terminating (.inr (.inr rfl)))⟩
  | answering r =>
    cases step with
    | answered _ => exact ⟨.of_eq rfl rfl rfl, gone (.writing _)⟩
    | hung _ => exact ⟨.of_eq rfl rfl rfl, gone .hanging⟩
  | writing r =>
    cases step with
    | written =>
      refine ⟨⟨?_, .inl rfl, id, id⟩, ended⟩
      rw [Shared.sent_write]
      exact List.append_nil _
    | unwritten hbroken => exact ⟨.of_eq rfl rfl rfl, gone (.terminating (.inl ⟨_, rfl⟩))⟩
  | hanging => cases step
  | abandoning w p =>
    cases step with
    | abandonedHandshake => exact ⟨.of_eq rfl rfl rfl, gone (.terminating (.inr (.inl rfl)))⟩
    | abandoned => exact ⟨.of_eq rfl rfl rfl, ended⟩
  | terminating ends =>
    cases step with
    | terminated => exact ⟨⟨rfl, .inr rfl, fun _ => rfl, id⟩, gone (.closing ends)⟩
  | closing ends =>
    cases step with
    | closed =>
      refine ⟨.of_eq rfl rfl rfl, ?_⟩
      rcases ends with ⟨f, rfl⟩ | rfl | rfl <;> exact ended

end LanguageClient
