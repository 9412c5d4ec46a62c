import LanguageClient.Proofs.Session.Orderly
import LanguageClient.Proofs.Session.Sealing

/-!
# LanguageClient.Proofs.Session.Parting -- how a session ends

A call that shuts a session down goes through places of its own (`Task.Ends`) and is over only when the
session has terminated. Then, and whatever is called or dropped later, nothing of the client's own is said
any more (`Session.Mute`).
-/

namespace LanguageClient

namespace Task

/-! ## Nothing is said any more -/

/-- The places at which tasks can be once nothing is said any more. -/
inductive IsMute : Task → Prop
  | quiet {task : Task} (h : task.IsQuiet) : IsMute task
  | called (c : Call) : IsMute (.called c)
  | leavingReady : IsMute .leavingReady
  | cancelling (id : Id) : IsMute (.cancelling id none)
  | noticing (id : Id) : IsMute (.noticing id none)

variable {s : Shared} {task : Task}

/-- In a session that has terminated such a task says nothing, and goes on to such a place. -/
theorem IsMute.step (h : task.IsMute) {me : TaskId} {p : Progress} (step : Steps me s task p)
    (hphase : s.lifecycle.phase = .terminated) :
    p.shared.sent = s.sent ∧ ∀ next, p.next = some next → next.IsMute := by
  have goes : ∀ {next : Task}, next.IsMute → ∀ task', some next = some task' → task'.IsMute :=
    fun hnext _ heq => Option.some.inj heq ▸ hnext
  have finishes : ∀ answer task', some (Task.finished answer) = some task' → task'.IsMute :=
    fun answer => goes (.quiet (.finished answer))
  have never : ∀ {phase : Phase}, s.lifecycle.phase = phase → phase ≠ .terminated → False :=
    fun heq hne => hne (heq.symm.trans hphase)
  cases h with
  | quiet hquiet =>
    obtain ⟨hcalm, hnext⟩ := hquiet.step step
    exact ⟨hcalm.sent, fun next heq => .quiet (hnext next heq)⟩
  | called c =>
    cases step with
    | handshakeBegun hbefore _ | handshakeUnfit hbefore _ | exitBegun hbefore | taken _ hbefore =>
      exact (never hbefore nofun).elim
    | shutdownBegun _ => exact ⟨rfl, goes .leavingReady⟩
    | cancelBegun => exact ⟨rfl, goes (.cancelling _)⟩
    | handshakeRefused _ | notTaken _ _ | lookedUp _ | sawEnd _ => exact ⟨rfl, finishes _⟩
  | leavingReady =>
    cases step with
    | leftReady hbefore => exact (never hbefore nofun).elim
    | leftAlready _ | notYetReady _ => exact ⟨rfl, finishes _⟩
  | cancelling id =>
    cases step with
    | cancelled _ => exact ⟨rfl, goes (.noticing id)⟩
    | notFound _ => exact ⟨rfl, finishes _⟩
  | noticing id =>
    cases step with
    | noticed hbefore => exact (never hbefore nofun).elim
    | unnoticed _ => exact ⟨rfl, finishes _⟩

theorem IsMute.leaves (h : task.IsMute) {rest : List Task} (leaves : task.Leaves rest) :
    ∀ left ∈ rest, left.IsMute := by
  cases h with
  | quiet hquiet => exact fun left hmem => .quiet (hquiet.leaves leaves left hmem)
  | called c =>
    cases leaves
    exact List.forall_mem_nil _
  | leavingReady | cancelling id | noticing id => cases leaves

end Task

namespace Session

/-- The session has terminated, and nothing is said any more. -/
structure Mute (s : Session) : Prop where
  phase : s.shared.lifecycle.phase = .terminated
  tasks : ∀ t task, (t, task) ∈ s.tasks → task.IsMute

variable {cut : Prop} {s s' : Session} {t : TaskId}

theorem Mute.happens (h : s.Mute) {a : Action} (happened : Happens s a s') :
    s'.Mute ∧ s'.shared.sent = s.shared.sent := by
  refine ⟨⟨happened.stays_terminated h.phase, fun t task hmem => ?_⟩, ?_⟩
  · cases happened.arises hmem with
    | stays here => exact h.tasks t task here
    | called action new => exact .called _
    | steps action here step next => exact ((h.tasks t _ here).step step h.phase).2 task next
    | asked new => exact .quiet (.answering _)
    | left action here leaves mem new => exact (h.tasks _ _ here).leaves leaves task mem
    | awaited action here => exact .quiet (.waiting _)
  · rcases happened.changes with hsame | ⟨t, task, p, -, here, step, hsame⟩
    · exact congrArg (List.filterMap Message.part?) hsame.wire
    · have hwire : s'.shared.sent = p.shared.sent := congrArg (List.filterMap Message.part?) hsame.wire
      exact hwire.trans ((h.tasks t task here).step step h.phase).1

theorem Mute.run (h : s.Mute) (hs : s.Named) (actions : List Action) :
    (s.run actions).shared.sent = s.shared.sent := by
  induction actions generalizing s with
  | nil => rfl
  | cons a rest ih =>
    obtain ⟨hmute, hsent⟩ := h.happens (hs.happens_act a)
    exact (ih hmute (hs.act a)).trans hsent

end Session

/-! ## A call that ends the session -/

/-- What ends a session is written: the request, or the notification. -/
def Sending.isLast : Sending → Bool
  | .request _ .shutdown | .exit _ => true
  | _ => false

def Aftermath.isLast : Aftermath → Bool
  | .write _ d => d.isLast
  | .exit _ => true
  | _ => false

namespace Task

/-- The places in a call that ends the session, each with the phases in which it is reached. -/
inductive Ends (phase : Phase) : Task → Prop
  | called (h : phase = .uninitialized ∨ phase = .ready ∨ phase = .terminated) :
      Ends phase (.called .shutdown)
  | leavingReady (h : phase = .ready ∨ phase = .terminated) : Ends phase .leavingReady
  | numbering {method : String} {params : Option Json} : Ends phase (.numbering method params .shutdown)
  | registering {id : Id} {method : String} {params : Option Json} :
      Ends phase (.registering id method params .shutdown)
  | writing {m : Message} {d : Sending} (last : d.isLast = true) : Ends phase (.writing m d)
  | rejecting {w : Waiter} {f : Fault} : Ends phase (.rejecting w f .shutdown)
  | leaving {w : Waiter} {f : Fault} : Ends phase (.leaving w f .shutdown)
  | waiting {w : Waiter} : Ends phase (.waiting w .shutdown none)
  | closingOutflow {answer : Except Fault Answer} : Ends phase (.closingOutflow answer)
  | terminating {a : Aftermath} (last : a.isLast = true) : Ends phase (.terminating a)
  | closing {a : Aftermath} (last : a.isLast = true) : Ends phase (.closing a)

variable {s : Shared} {task : Task}

theorem Ends.phase {phase after : Phase} (h : task.Ends phase)
    (hafter : after = phase ∨ after = .terminated) : task.Ends after := by
  rcases hafter with rfl | rfl
  · exact h
  · cases h with
    | called _ => exact .called (.inr (.inr rfl))
    | leavingReady _ => exact .leavingReady (.inr rfl)
    | numbering => exact .numbering
    | registering => exact .registering
    | writing last => exact .writing last
    | rejecting => exact .rejecting
    | leaving => exact .leaving
    | waiting => exact .waiting
    | closingOutflow => exact .closingOutflow
    | terminating last => exact .terminating last
    | closing last => exact .closing last

theorem Ends.needsSession {phase : Phase} (h : task.Ends phase) : task.needsSession = true := by
  cases h with
  | writing last =>
    rename_i m d
    cases d with
    | loose => cases last
    | _ => rfl
  | terminating last | closing last =>
    rename_i a
    cases a with
    | write f d =>
      cases d with
      | loose => cases last
      | _ => rfl
    | exit answer => rfl
    | handshake _ | abandoned | ended => cases last
  | _ => rfl

/-- What follows the last messages, whether they were written or not. -/
theorem ends_done {d : Sending} (last : d.isLast = true) (phase : Phase) (r : Except Fault Unit) :
    ∃ next, d.done s r = some next ∧ next.Ends phase := by
  unfold Sending.isLast at last
  split at last
  · rcases r with f | _
    · exact ⟨_, rfl, .rejecting⟩
    · exact ⟨_, rfl, .waiting⟩
  · exact ⟨_, rfl, .closingOutflow⟩
  · cases last

/-- **A call that ends the session goes on, or it is over and the session has terminated.** -/
theorem Ends.step (h : task.Ends s.lifecycle.phase) {me : TaskId} {p : Progress} (step : Steps me s task p)
    (hclosing : ∀ a, task = .closing a → s.lifecycle.phase = .terminated) :
    ∃ next, p.next = some next ∧ (next.Ends p.shared.lifecycle.phase ∨
      (∃ answer, next = .finished answer) ∧ p.shared.lifecycle.phase = .terminated) := by
  cases h with
  | called hphase =>
    cases step with
    | exitBegun _ => exact ⟨_, rfl, .inl (.writing rfl)⟩
    | shutdownBegun hbefore => exact ⟨_, rfl, .inl (.leavingReady (hphase.resolve_left hbefore))⟩
    | taken hentry _ | notTaken hentry _ => cases hentry
  | leavingReady hphase =>
    cases step with
    | leftReady _ => exact ⟨_, rfl, .inl .numbering⟩
    | leftAlready hbefore =>
      -- no other call takes the session out of `ready`, so that it has ended by itself
      refine ⟨_, rfl, .inr ⟨⟨_, rfl⟩, ?_⟩⟩
      rcases hphase with hready | hover
      · rcases hbefore with heq | heq
        · exact absurd (hready.symm.trans heq) nofun
        · exact heq
      · exact hover
    | notYetReady hbefore =>
      rcases hphase with heq | heq <;> rcases hbefore with heq' | heq' <;>
        exact absurd (heq.symm.trans heq') nofun
  | numbering =>
    cases step
    exact ⟨_, rfl, .inl .registering⟩
  | registering =>
    cases step with
    | registered _ | unregistered _ => exact ⟨_, rfl, .inl (.writing rfl)⟩
  | writing last =>
    cases step with
    | written _ =>
      obtain ⟨next, hdone, hnext⟩ := ends_done last s.lifecycle.phase (.ok ())
      exact ⟨next, hdone, .inl hnext⟩
    | unwritten _ => exact ⟨_, rfl, .inl (.terminating last)⟩
  | rejecting =>
    cases step
    exact ⟨_, rfl, .inl .leaving⟩
  | leaving =>
    cases step
    exact ⟨_, rfl, .inl (.writing rfl)⟩
  | waiting =>
    cases step
    exact ⟨_, rfl, .inl (.writing rfl)⟩
  | closingOutflow =>
    cases step
    exact ⟨_, rfl, .inl (.terminating rfl)⟩
  | terminating last =>
    cases step
    exact ⟨_, rfl, .inl (.closing last)⟩
  | closing last =>
    rename_i a
    have hover := hclosing a rfl
    cases step
    -- a message that could not be written is followed by the next one all the same
    cases a with
    | write f d =>
      obtain ⟨next, hdone, hnext⟩ := ends_done last s.lifecycle.phase (.error f)
      exact ⟨next, hdone, .inl hnext⟩
    | exit answer => exact ⟨_, rfl, .inr ⟨⟨_, rfl⟩, hover⟩⟩
    | handshake _ | abandoned | ended => cases last

end Task

namespace Session

variable {cut : Prop} {s s' : Session} {t : TaskId}

/-- A call that ends the session goes on, or nothing is said any more. -/
def Departs (s : Session) (t : TaskId) : Prop :=
  s.Mute ∨ ∀ task, (t, task) ∈ s.tasks → task.Ends s.shared.lifecycle.phase

theorem departs_call (hs : s.Named)
    (hphase : s.shared.lifecycle.phase = .uninitialized ∨ s.shared.lifecycle.phase = .ready) :
    (s.act (.call .shutdown)).Departs s.nextTask := by
  refine .inr fun task hmem => ?_
  rcases List.mem_append.mp hmem with hmem | hmem
  · exact absurd (hs.given _ task hmem) (Nat.lt_irrefl _)
  · cases List.mem_singleton.mp hmem
    exact .called (hphase.imp_right .inl)

/-- The call itself takes a step. -/
theorem Departs.step {task : Task} (hends : task.Ends s.shared.lifecycle.phase) (hs : s.Named)
    (hsealed : s.Sealed) (horderly : s.Orderly cut) {p : Progress} (step : task.Steps t s.shared p)
    (moved : Replaced s t task p.next (p.asked.toList.map .answering) (p.shared.after t p.next) s') :
    s'.Departs t := by
  have hphase : s'.shared.lifecycle = p.shared.lifecycle := by
    obtain ⟨holder, hafter⟩ := p.shared.after_eq t p.next
    rw [moved.shared, hafter]
  obtain ⟨next, hnext, hgoes⟩ := hends.step step fun a heq => hsealed.closing t a (heq ▸ moved.here)
  rcases hgoes with hgoes | ⟨⟨answer, rfl⟩, hover⟩
  · refine .inr fun task' hmem => ?_
    rcases moved.mem hmem with ⟨-, hstay⟩ | ⟨-, hnew⟩ | ⟨-, hne⟩
    · cases hnext.symm.trans hstay
      exact hphase ▸ hgoes
    · exact absurd (hs.given t task moved.here) (Nat.not_lt_of_le hnew)
    · exact absurd rfl hne
  · refine .inl ⟨hphase ▸ hover, moved.forall_tasks ?_ ?_ ?_⟩
    · intro stayed hstay
      cases hnext.symm.trans hstay
      exact .quiet (.finished answer)
    · intro u asked hmem _
      obtain ⟨r, -, rfl⟩ := List.mem_map.mp hmem
      exact .quiet (.answering r)
    · intro u other hmem hu
      exact .quiet (horderly.beside moved.here hends.needsSession hmem hu)

theorem Departs.happens (h : s.Departs t) (hs : s.Named) (hsealed : s.Sealed) (horderly : s.Orderly cut)
    (ht : t < s.nextTask) {a : Action} (happened : Happens s a s') : s'.Departs t := by
  rcases h with hmute | hends
  · exact .inl (hmute.happens happened).1
  by_cases hturn : ∃ u, a = .turn u
  · obtain ⟨u, rfl⟩ := hturn
    cases happened with
    | nothing => exact .inr hends
    | turn step moved =>
      rename_i other p
      by_cases hu : u = t
      · subst hu
        exact .step (hends other moved.here) hs hsealed horderly step moved
      · refine .inr fun task hmem => ?_
        rcases moved.mem hmem with ⟨heq, -⟩ | ⟨-, hnew⟩ | ⟨here, -⟩
        · exact absurd heq.symm hu
        · exact absurd ht (Nat.not_lt_of_le hnew)
        · -- what goes on beside the call is quiet, and at most ends the session
          have hquiet := horderly.beside here (hends task here).needsSession moved.here hu
          obtain ⟨holder, hafter⟩ := p.shared.after_eq u p.next
          rw [moved.shared, hafter]
          exact (hends task here).phase (hquiet.step step).1.phase
  · have hsame : s'.shared.lifecycle = s.shared.lifecycle := by
      rcases happened.changes with hsame | ⟨u, task, p, heq, -⟩
      · exact hsame.lifecycle
      · exact absurd ⟨u, heq⟩ hturn
    refine .inr fun task hmem => ?_
    rw [hsame]
    cases happened.arises hmem with
    | stays here => exact hends task here
    | steps action here step next => exact absurd ⟨t, action⟩ hturn
    | called action new | asked new | left action here leaves mem new =>
      exact absurd ht (Nat.not_lt_of_le new)
    | awaited action here => cases hends _ here

/-- A call that has ended the session is over only when nothing is said any more. -/
theorem Departs.mute (h : s.Departs t) (hs : s.Named) (hanswer : (s.answer? t).isSome = true) : s.Mute := by
  rcases h with hmute | hends
  · exact hmute
  · unfold answer? at hanswer
    split at hanswer
    · next answer htask => cases hends _ (hs.task?_eq_some_iff.mp htask)
    · cases hanswer

end Session

end LanguageClient
