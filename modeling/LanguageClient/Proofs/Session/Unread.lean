import LanguageClient.Proofs.Session.Answering

/-!
# LanguageClient.Proofs.Session.Unread -- bytes that are not read have no effect

Nothing but the read loop looks at the bytes that have arrived, so every other action does the same with
other bytes at hand (`act_withInput`). And the loop looks at no more of them than it takes: what it finds
among the first bytes is what it finds among all, if these are enough (`next?_take`).
-/

namespace LanguageClient

/-! ## What is shared, with other bytes at hand -/

namespace Shared

/-- The same, but for the bytes that have arrived and are not yet read. -/
def withInput (s : Shared) (bytes : List UInt8) : Shared := { s with input := bytes }

variable (s : Shared) (bytes : List UInt8)

@[simp] theorem withInput_input : (s.withInput bytes).input = bytes := rfl

@[simp] theorem withInput_inflow : (s.withInput bytes).inflow = s.inflow := rfl

theorem closeOutflow_withInput : (s.withInput bytes).closeOutflow = s.closeOutflow.withInput bytes := by
  have hflow : (s.withInput bytes).outflow = s.outflow := rfl
  unfold closeOutflow
  rw [hflow]
  cases s.outflow <;> rfl

theorem callHandlers_withInput (n : Notification) (place : Nat) (handlers : List NotificationHandler) :
    callHandlers n place handlers (s.withInput bytes)
      = (callHandlers n place handlers s).withInput bytes := by
  rw [callHandlers_eq, callHandlers_eq]
  rfl

theorem answer_withInput (r : Request) :
    (s.withInput bytes).answer r = ((s.answer r).1, (s.answer r).2.withInput bytes) := by
  have hhandlers : (s.withInput bytes).options.handlers = s.options.handlers := rfl
  unfold answer
  rw [hhandlers]
  cases s.options.handlers.requestHandler? r.method with
  | none => rfl
  | some handler =>
    have hturn : (s.withInput bytes).handled.length = s.handled.length := rfl
    simp only [callHandler, hturn]
    split <;> rfl

/-! ### Fewer bytes at hand -/

theorem isShort_eq_false_iff {bytes : List UInt8} :
    isShort bytes = false ↔ ∃ found rest, Frame.scan bytes = .done found rest := by
  unfold isShort
  cases Frame.scan bytes <;> simp

variable {s bytes} {item : Except Fault Message} {left : List UInt8} {n : Nat}

/-- The read loop finds the same among the first bytes at hand, if these are enough. -/
theorem next?_take (h : s.next? = some (item, left)) (hn : s.input.length - left.length ≤ n) :
    (s.withInput (s.input.take n)).next?
      = some (item, left.take (n - (s.input.length - left.length))) := by
  unfold next? at h
  split at h
  · next hinput =>
    have hread := Message.read_take (Option.some.inj h) hn
    have hinput' : (s.withInput (s.input.take n)).hasInput = true := by
      unfold hasInput at hinput ⊢
      rw [withInput_inflow, withInput_input]
      cases hinflow : s.inflow with
      | ended failure => rfl
      | flowing =>
        rw [hinflow] at hinput
        have hwhole : isShort s.input = false := by simpa using hinput
        obtain ⟨found, rest, hscan⟩ := isShort_eq_false_iff.mp hwhole
        rw [Message.read_of_scan hscan] at h
        obtain ⟨-, rfl⟩ := Prod.mk.inj (Option.some.inj h)
        have htake : isShort (s.input.take n) = false :=
          isShort_eq_false_iff.mpr ⟨_, _, Frame.scan_take hscan hn⟩
        simp only [htake, Bool.not_false]
    unfold next?
    rw [if_pos hinput']
    exact congrArg some hread
  · cases h

/-- While the read loop has to wait, it has to wait with fewer bytes, too. -/
theorem next?_take_of_none (h : s.next? = none) (n : Nat) :
    (s.withInput (s.input.take n)).next? = none := by
  unfold next? at h
  split at h
  · cases h
  · next hinput =>
    have hinput' : ¬ (s.withInput (s.input.take n)).hasInput = true := by
      unfold hasInput at hinput ⊢
      rw [withInput_inflow, withInput_input]
      cases hinflow : s.inflow with
      | ended failure =>
        rw [hinflow] at hinput
        exact absurd rfl hinput
      | flowing =>
        rw [hinflow] at hinput
        intro hwhole
        apply hinput
        -- a frame among the first bytes is a frame at the front of all
        have hshort : isShort (s.input.take n) = false := by simpa using hwhole
        obtain ⟨found, rest, hscan⟩ := isShort_eq_false_iff.mp hshort
        have hall := Frame.scan_append hscan (s.input.drop n)
        rw [List.take_append_drop] at hall
        have hdone : isShort s.input = false := isShort_eq_false_iff.mpr ⟨_, _, hall⟩
        simp only [hdone, Bool.not_false]
    unfold next?
    rw [if_neg hinput']

end Shared

theorem Sending.done_withInput (d : Sending) (s : Shared) (bytes : List UInt8) (r : Except Fault Unit) :
    d.done (s.withInput bytes) r = d.done s r := by
  cases d with
  | request w p => cases r <;> cases p <;> rfl
  | _ => rfl

theorem Aftermath.done_withInput (a : Aftermath) (s : Shared) (bytes : List UInt8) :
    a.done (s.withInput bytes) = a.done s := by
  cases a with
  | write f d => exact d.done_withInput s bytes _
  | _ => rfl

/-- A step that leaves other bytes behind. -/
def Progress.withInput (p : Progress) (bytes : List UInt8) : Progress :=
  { p with shared := p.shared.withInput bytes }

namespace Task

variable {me : TaskId} {s : Shared} {task : Task} {p : Progress}

/-- A task that does not read takes the same step whatever bytes are at hand. -/
theorem Steps.withInput (h : Steps me s task p) (hne : task ≠ .reading) (bytes : List UInt8) :
    Steps me (s.withInput bytes) task (p.withInput bytes) := by
  cases h with
  | readRequest | readResponse | readNotification | readBadResponse | readStray | readEnd =>
    exact absurd rfl hne
  | handshakeBegun hphase hparams => exact .handshakeBegun hphase hparams
  | handshakeUnfit hphase hparams => exact .handshakeUnfit hphase hparams
  | handshakeRefused hphase => exact .handshakeRefused hphase
  | exitBegun hphase => exact .exitBegun hphase
  | shutdownBegun hphase => exact .shutdownBegun hphase
  | taken hentry hphase => exact .taken hentry hphase
  | notTaken hentry hphase => exact .notTaken hentry hphase
  | cancelBegun => exact .cancelBegun
  | lookedUp hfree => exact .lookedUp hfree
  | sawEnd hphase => exact .sawEnd hphase
  | numbered => exact .numbered
  | registered hregister => exact .registered hregister
  | unregistered hregister => exact .unregistered hregister
  | @written m d hflow =>
    have hdone := d.done_withInput { s with wire := s.wire ++ [m] } bytes (.ok ())
    exact hdone ▸ .written hflow
  | unwritten hflow => exact .unwritten hflow
  | rejected => exact .rejected
  | left => exact .left
  | settled hpoll => exact .settled hpoll
  | timedOut hpoll htime => exact .timedOut hpoll htime
  | cancelled hcancel => exact .cancelled hcancel
  | notFound hcancel => exact .notFound hcancel
  | noticed hphase => exact .noticed hphase
  | unnoticed hphase => exact .unnoticed hphase
  | abandonedHandshake => exact .abandonedHandshake
  | abandoned hpurpose => exact .abandoned hpurpose
  | recorded => exact .recorded
  | becameReady hphase => exact .becameReady hphase
  | notInitializing hphase => exact .notInitializing hphase
  | leftReady hphase => exact .leftReady hphase
  | leftAlready hphase => exact .leftAlready hphase
  | notYetReady hphase => exact .notYetReady hphase
  | outflowClosed hclosed hclose =>
    have hsame := s.closeOutflow_withInput bytes
    rw [hclose] at hsame
    exact .outflowClosed hclosed hsame
  | terminated => exact .terminated
  | @closed a =>
    have hdone := a.done_withInput { s with pending := s.pending.close } bytes
    exact hdone ▸ .closed
  | locked hfree => exact .locked hfree
  | edited happly => exact .edited happly
  | notEdited happly => exact .notEdited happly
  | @answered r _ _ hanswer =>
    have hsame := s.answer_withInput bytes r
    rw [hanswer] at hsame
    exact .answered hsame
  | @hung r _ hanswer =>
    have hsame := s.answer_withInput bytes r
    rw [hanswer] at hsame
    exact .hung hsame

/-- Whether a task that does not read can take a step does not depend on the bytes at hand, either. -/
theorem step_withInput (hne : task ≠ .reading) (bytes : List UInt8) :
    task.step me (s.withInput bytes) = (task.step me s).map (·.withInput bytes) := by
  cases hstep : task.step me s with
  | some p => exact ((Steps.of_step hstep).withInput hne bytes).step_eq
  | none =>
    cases hother : task.step me (s.withInput bytes) with
    | none => rfl
    | some p =>
      -- a step with other bytes at hand would be one with these, too
      have hback : Steps me s task (p.withInput s.input) := (Steps.of_step hother).withInput hne s.input
      rw [hback.step_eq] at hstep
      cases hstep

/-- The step of the read loop depends on no more than what is found and what is left. -/
theorem read_withInput {item : Except Fault Message} {left left' bytes : List UInt8}
    (h : s.next? = some (item, left)) (h' : (s.withInput bytes).next? = some (item, left')) :
    Task.read (s.withInput bytes) = (Task.read s).map (·.withInput left') := by
  unfold Task.read
  rw [h, h']
  rcases item with f | m
  · cases f with
    | protocol id cause => cases id <;> rfl
    | _ => rfl
  · cases m with
    | request r => rfl
    | response r => rfl
    | notification n =>
      have hcalls := ({ s with input := left } : Shared).callHandlers_withInput left' n 0
        (s.options.handlers.notificationHandlers n.method)
      show some (Progress.mk (Shared.callHandlers n 0 _ { s with input := left' }) _ _) = _
      exact congrArg (fun shared => some (Progress.mk shared (some .reading) none)) hcalls

end Task

namespace Session

/-! ## Sessions with other bytes at hand -/

/-- The same, but for the bytes that have arrived and are not yet read. -/
def withInput (s : Session) (bytes : List UInt8) : Session := { s with shared := s.shared.withInput bytes }

variable {s : Session} {t : TaskId}

theorem release_withInput (s : Session) (bytes : List UInt8) (t : TaskId) (next : Option Task) :
    (s.withInput bytes).release t next = (s.release t next).withInput bytes := by
  have hfree : (s.shared.withInput bytes).releaseDocuments t
      = (s.shared.releaseDocuments t).withInput bytes := by
    unfold Shared.releaseDocuments Shared.withInput
    split <;> rfl
  unfold release withInput
  rw [hfree]
  split <;> rfl

theorem foldl_spawn_withInput (s : Session) (bytes : List UInt8) (new : List Task) :
    new.foldl spawn (s.withInput bytes) = (new.foldl spawn s).withInput bytes := by
  rw [foldl_spawn, foldl_spawn]
  rfl

/-- A turn goes the same way if the step of the task does. -/
theorem step?_withInput {bytes left : List UInt8}
    (h : ∀ task, s.task? t = some task →
      task.step t (s.shared.withInput bytes) = (task.step t s.shared).map (·.withInput left)) :
    (s.withInput bytes).step? t = (s.step? t).map (·.withInput left) := by
  have hplace : (s.withInput bytes).task? t = s.task? t := rfl
  have hshared : (s.withInput bytes).shared = s.shared.withInput bytes := rfl
  unfold step?
  rw [hplace, hshared]
  cases htask : s.task? t with
  | none => rfl
  | some task =>
    simp only [h task htask]
    cases task.step t s.shared with
    | none => rfl
    | some p =>
      obtain ⟨shared, next, asked⟩ := p
      have hrelease := release_withInput ({ s with shared }.replace t next) left t next
      cases asked with
      | none => exact congrArg some hrelease
      | some r => exact congrArg (fun after => some (after.spawn (.answering r))) hrelease

/-- What happens does not depend on the bytes at hand, unless something is read or bytes arrive. -/
theorem act_withInput {a : Action} (hreads : ∀ t, a = .turn t → s.task? t ≠ some .reading)
    (harrives : ∀ new, a ≠ .arrive new) (bytes : List UInt8) :
    (s.withInput bytes).act a = (s.act a).withInput bytes := by
  cases a with
  | call c => rfl
  | turn t =>
    have hstep : (s.withInput bytes).step? t = (s.step? t).map (·.withInput bytes) := by
      apply step?_withInput
      intro task htask
      exact Task.step_withInput (fun heq => hreads t rfl (heq ▸ htask)) bytes
    simp only [act, hstep]
    cases s.step? t <;> rfl
  | drop t =>
    have hplace : (s.withInput bytes).task? t = s.task? t := rfl
    simp only [act, Session.drop, hplace]
    cases (s.task? t).bind Task.remains with
    | none => rfl
    | some rest =>
      have hrelease := release_withInput (s.replace t none) bytes t none
      show rest.foldl spawn (((s.replace t none).withInput bytes).release t none) = _
      rw [hrelease, foldl_spawn_withInput]
  | await t =>
    have hplace : (s.withInput bytes).task? t = s.task? t := rfl
    simp only [act, Session.await, hplace]
    split <;> rfl
  | collect t =>
    have hplace : (s.withInput bytes).task? t = s.task? t := rfl
    simp only [act, Session.collect, hplace]
    split <;> rfl
  | arrive new => exact absurd rfl (harrives new)
  | endInput failure =>
    have hflow : (s.withInput bytes).shared.inflow = s.shared.inflow := rfl
    simp only [act, hflow]
    split <;> rfl
  | breakOutflow =>
    have hflow : (s.withInput bytes).shared.outflow = s.shared.outflow := rfl
    simp only [act, hflow]
    split <;> rfl
  | pass ms => rfl

end Session

end LanguageClient
