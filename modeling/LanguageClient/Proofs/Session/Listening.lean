import LanguageClient.Proofs.Session.Inbound
import LanguageClient.Proofs.Session.Turns

/-!
# LanguageClient.Proofs.Session.Listening -- sessions in which only the server does something

A session listens when nothing goes on in it but the read loop and the answering of the server's
requests (`Session.Listening`). `Listening.turn` says once what a turn can then do: the read loop gets on
by one place (`Advanced`), or a write that has failed ends the connection, or nothing changes of what the
calls depend on.
-/

namespace LanguageClient

/-! ## What the helpers of a step leave alone -/

namespace SameInflow

variable (s : Shared)

theorem write (m : Message) : SameInflow s (s.write m).2 := by
  unfold Shared.write
  split <;> exact ⟨rfl, rfl, rfl⟩

theorem callHandlers (n : Notification) (place : Nat) (handlers : List NotificationHandler) :
    SameInflow s (Shared.callHandlers n place handlers s) := by
  rw [Shared.callHandlers_eq]
  exact ⟨rfl, rfl, rfl⟩

theorem answer (r : Request) : SameInflow s (s.answer r).2 := by
  unfold Shared.answer Shared.callHandler
  split
  · exact ⟨rfl, rfl, rfl⟩
  · simp only
    split <;> exact ⟨rfl, rfl, rfl⟩

/-- A message does to the table what it means as an item of the stream, and nothing else. -/
theorem dispatch (m : Message) :
    SameInflow { s with pending := s.pending.receive (.ok m) } (s.dispatch m).2 := by
  cases m with
  | request r => exact ⟨rfl, rfl, rfl⟩
  | response r => exact ⟨rfl, rfl, rfl⟩
  | notification n => exact callHandlers s n 0 _

end SameInflow

/-! ## What goes on in a session that listens -/

namespace Task

/-- The places of the read loop. -/
inductive IsLoop : Task → Prop
  | reading : IsLoop .reading
  | terminating : IsLoop (.terminating .ended)
  | closing : IsLoop (.closing .ended)

/-- What may go on beside the read loop: the answering of a request, with the failing of the connection
if the answer cannot be written, and calls that are over. -/
inductive IsBeside : Task → Prop
  | answering (r : Request) : IsBeside (.answering r)
  | hanging : IsBeside .hanging
  | writing (m : Message) : IsBeside (.writing m .loose)
  | terminating (f : Fault) : IsBeside (.terminating (.write f .loose))
  | closing (f : Fault) : IsBeside (.closing (.write f .loose))
  | finished (answer : Except Fault Answer) : IsBeside (.finished answer)

/-- A write has failed, and the connection is about to be failed for it. -/
def IsFailing : Task → Prop
  | .terminating (.write _ _) | .closing (.write _ _) => True
  | _ => False

/-- What goes on beside the read loop asks for nothing more, and leaves alone what the read loop works on,
unless it fails the connection. -/
theorem IsBeside.step {task : Task} (h : task.IsBeside) {me : TaskId} {s : Shared} {p : Progress}
    (hstep : task.step me s = some p) :
    p.asked = none ∧ (∀ next, p.next = some next → next.IsBeside) ∧
      (SameInflow s p.shared ∨
        task.IsFailing ∧ SameInflow { s with pending := s.pending.close } p.shared) := by
  cases h with
  | answering r =>
    have hsame := SameInflow.answer s r
    rw [Task.step] at hstep
    split at hstep
    · next response s' hanswer =>
      rw [hanswer] at hsame
      cases hstep
      exact ⟨rfl, fun _ hnext => Option.some.inj hnext ▸ .writing _, .inl hsame⟩
    · next s' hanswer =>
      rw [hanswer] at hsame
      cases hstep
      exact ⟨rfl, fun _ hnext => Option.some.inj hnext ▸ .hanging, .inl hsame⟩
  | hanging => cases hstep
  | writing m =>
    have hsame := SameInflow.write s m
    rw [Task.step] at hstep
    split at hstep
    · next s' hwrite =>
      rw [hwrite] at hsame
      cases hstep
      exact ⟨rfl, fun _ hnext => (Option.some_ne_none _ hnext.symm).elim, .inl hsame⟩
    · next f s' hwrite =>
      rw [hwrite] at hsame
      cases hstep
      exact ⟨rfl, fun _ hnext => Option.some.inj hnext ▸ .terminating f, .inl hsame⟩
  | terminating f =>
    cases hstep
    exact ⟨rfl, fun _ hnext => Option.some.inj hnext ▸ .closing f, .inl ⟨rfl, rfl, rfl⟩⟩
  | closing f =>
    cases hstep
    exact ⟨rfl, fun _ hnext => (Option.some_ne_none _ hnext.symm).elim,
      .inr ⟨trivial, ⟨rfl, rfl, rfl⟩⟩⟩
  | finished answer => cases hstep

end Task

namespace Session

/-- Nothing goes on but the read loop and what may go on beside it. -/
structure Listening (s : Session) : Prop where
  table : s.shared.pending.Sound
  loop : ∀ task, s.task? readLoop = some task → task.IsLoop
  beside : ∀ t task, t ≠ readLoop → s.task? t = some task → task.IsBeside
  fresh : readLoop < s.nextTask
  /-- When the read loop is over, no call waits. -/
  emptied : s.task? readLoop = none → s.shared.pending.calls = []

/-- A write has failed, and the connection is about to be failed for it. -/
def WriteFailed (s : Session) : Prop := ∃ t task, s.task? t = some task ∧ task.IsFailing

/-- What can happen while nobody on this side does anything. -/
def Action.IsInbound : Action → Prop
  | .turn _ | .arrive _ | .endInput _ | .breakOutflow | .pass _ => True
  | .call _ | .drop _ | .await _ | .collect _ => False

variable {s s' : Session}

/-! ## The turns of the read loop -/

/-- The read loop has got on by one place. -/
inductive Advanced (s s' : Session) : Prop
  /-- An item was read that does not end the connection. -/
  | read (item : Except Fault Message) (rest : List UInt8)
      (place : s.task? readLoop = some .reading)
      (found : s.shared.next? = some (item, rest)) (harmless : Inbound.isFatal item = false)
      (shared : SameInflow
        { s.shared with input := rest, pending := s.shared.pending.receive item } s'.shared)
      (next : s'.task? readLoop = some .reading)
  /-- An item was read that ends the connection. -/
  | stop (item : Except Fault Message) (rest : List UInt8)
      (place : s.task? readLoop = some .reading)
      (found : s.shared.next? = some (item, rest)) (fatal : Inbound.isFatal item = true)
      (shared : SameInflow { s.shared with input := rest } s'.shared)
      (next : s'.task? readLoop = some (.terminating .ended))
  | terminate (place : s.task? readLoop = some (.terminating .ended))
      (shared : SameInflow s.shared s'.shared)
      (next : s'.task? readLoop = some (.closing .ended))
  | close (place : s.task? readLoop = some (.closing .ended))
      (shared : SameInflow { s.shared with pending := s.shared.pending.close } s'.shared)
      (next : s'.task? readLoop = none)

theorem advanced_of_read {p : Progress} (hread : Task.read s.shared = some p)
    (hplace : s.task? readLoop = some .reading) (hshared : SameInflow p.shared s'.shared)
    (hnext : s'.task? readLoop = p.next) : Advanced s s' := by
  unfold Task.read at hread
  split at hread
  · cases hread
  · next m rest hfound =>
    cases hread
    exact .read (.ok m) rest hplace hfound rfl
      ((SameInflow.dispatch { s.shared with input := rest } m).trans hshared) hnext
  · next id cause rest hfound =>
    cases hread
    exact .read (.error (.protocol (some id) cause)) rest hplace hfound rfl hshared hnext
  · next cause rest hfound =>
    cases hread
    exact .read (.error (.protocol none cause)) rest hplace hfound rfl hshared hnext
  · next f rest hsome hnone hfound =>
    have hfatal : Inbound.isFatal (.error f) = true := by
      cases f with
      | protocol i cause =>
        cases i with
        | none => exact (hnone cause rfl).elim
        | some id => exact (hsome id cause rfl).elim
      | _ => rfl
    cases hread
    exact .stop (.error f) rest hplace hfound hfatal hshared hnext

/-- A turn that the read loop can take gets it on. -/
theorem Listening.advanced (hs : s.Listening) {task : Task} (htask : s.task? readLoop = some task)
    (hready : task.isReady s.shared = true) : Advanced s (s.act (.turn readLoop)) := by
  obtain ⟨p, hstep⟩ := Option.isSome_iff_exists.mp ((Task.isReady_iff readLoop _ _).mp hready)
  have hturned := turned_act htask hstep
  have hnext : (s.act (.turn readLoop)).task? readLoop = p.next := by
    rw [hturned.tasks, if_pos rfl, if_neg (Nat.ne_of_lt hs.fresh), Option.or_none]
  cases hs.loop task htask with
  | reading => exact advanced_of_read hstep htask hturned.shared hnext
  | terminating =>
    cases hstep
    have hphase : SameInflow s.shared { s.shared with lifecycle := s.shared.lifecycle.terminate } :=
      ⟨rfl, rfl, rfl⟩
    exact .terminate htask (hphase.trans hturned.shared) hnext
  | closing =>
    cases hstep
    exact .close htask hturned.shared hnext

/-! ## Every turn -/

/-- What a turn of some task has done, as far as the calls depend on it. -/
inductive Moved (s s' : Session) : Prop
  | quiet (shared : SameInflow s.shared s'.shared) (next : s'.task? readLoop = s.task? readLoop)
  | advanced (h : Advanced s s')
  /-- A write has failed before, and every call fails with it now. -/
  | failed (cause : s.WriteFailed)
      (shared : SameInflow { s.shared with pending := s.shared.pending.close } s'.shared)
      (next : s'.task? readLoop = s.task? readLoop)

theorem Listening.moved (hs : s.Listening) (t : TaskId) : Moved s (s.act (.turn t)) := by
  rcases s.act_turn t with hact | ⟨task, p, htask, hstep, hturned⟩
  · rw [hact]
    exact .quiet ⟨rfl, rfl, rfl⟩ rfl
  · by_cases ht : t = readLoop
    · subst ht
      exact .advanced (hs.advanced htask ((Task.isReady_iff _ _ _).mpr (by rw [hstep]; rfl)))
    · -- another task does not touch the read loop, nor can a new one take its name
      have hnext : (s.act (.turn t)).task? readLoop = s.task? readLoop := by
        rw [hturned.tasks, if_neg (Ne.symm ht), if_neg (Nat.ne_of_lt hs.fresh), Option.or_none]
      obtain ⟨-, -, hsame | ⟨hfailing, hclose⟩⟩ := (hs.beside t task ht htask).step hstep
      · exact .quiet (hsame.trans hturned.shared) hnext
      · exact .failed ⟨t, task, htask, hfailing⟩ (hclose.trans hturned.shared) hnext

/-! ## Listening goes on -/

/-- What a turn can do to the table of calls. -/
theorem Moved.pending (h : Moved s s') :
    s'.shared.pending = s.shared.pending
      ∨ (∃ item, Inbound.isFatal item = false
          ∧ s'.shared.pending = s.shared.pending.receive item)
      ∨ s'.shared.pending = s.shared.pending.close := by
  cases h with
  | quiet shared => exact .inl shared.pending
  | advanced h =>
    cases h with
    | read item rest place found harmless shared =>
      exact .inr (.inl ⟨item, harmless, shared.pending⟩)
    | stop item rest place found fatal shared => exact .inl shared.pending
    | terminate place shared => exact .inl shared.pending
    | close place shared => exact .inr (.inr shared.pending)
  | failed cause shared => exact .inr (.inr shared.pending)

theorem Moved.sound (h : Moved s s') (hs : s.shared.pending.Sound) : s'.shared.pending.Sound := by
  rcases h.pending with hsame | ⟨item, harmless, hreceive⟩ | hclose
  · rwa [hsame]
  · rw [hreceive]
    exact hs.receive harmless
  · rw [hclose]
    exact hs.close

theorem Moved.loop (h : Moved s s') (hs : s.Listening) :
    ∀ task, s'.task? readLoop = some task → task.IsLoop := by
  intro task htask
  cases h with
  | quiet shared next => exact hs.loop task (next ▸ htask)
  | advanced h =>
    cases h with
    | read item rest place found harmless shared next =>
      exact Option.some.inj (next.symm.trans htask) ▸ .reading
    | stop item rest place found fatal shared next =>
      exact Option.some.inj (next.symm.trans htask) ▸ .terminating
    | terminate place shared next => exact Option.some.inj (next.symm.trans htask) ▸ .closing
    | close place shared next => exact absurd (next.symm.trans htask) (by simp)
  | failed cause shared next => exact hs.loop task (next ▸ htask)

theorem Moved.emptied (h : Moved s s') (hs : s.Listening) (hover : s'.task? readLoop = none) :
    s'.shared.pending.calls = [] := by
  cases h with
  | quiet shared next => exact shared.pending ▸ hs.emptied (next ▸ hover)
  | advanced h =>
    cases h with
    | read item rest place found harmless shared next => exact absurd (next.symm.trans hover) (by simp)
    | stop item rest place found fatal shared next => exact absurd (next.symm.trans hover) (by simp)
    | terminate place shared next => exact absurd (next.symm.trans hover) (by simp)
    | close place shared next => exact shared.pending ▸ rfl
  | failed cause shared next => exact shared.pending ▸ rfl

/-- A turn brings up nothing but the answering of a request. -/
theorem Listening.beside_turn (hs : s.Listening) (t u : TaskId) (task : Task) (hu : u ≠ readLoop)
    (h : (s.act (.turn t)).task? u = some task) : task.IsBeside := by
  rcases s.act_turn t with hact | ⟨before, p, hbefore, hstep, hturned⟩
  · exact hs.beside u task hu (hact ▸ h)
  · rw [hturned.tasks, Option.or_eq_some_iff] at h
    rcases h with h | ⟨-, h⟩
    · split at h
      · next hut => exact ((hs.beside t before (hut ▸ hu) hbefore).step hstep).2.1 task h
      · exact hs.beside u task hu h
    · split at h
      · obtain ⟨r, -, rfl⟩ := Option.map_eq_some_iff.mp h
        exact .answering r
      · cases h

theorem Listening.act (hs : s.Listening) {a : Action} (ha : a.IsInbound) : (s.act a).Listening := by
  cases a with
  | turn t =>
    have hmoved := hs.moved t
    exact ⟨hmoved.sound hs.table, hmoved.loop hs, hs.beside_turn t,
      Nat.lt_of_lt_of_le hs.fresh (nextTask_turn s t), hmoved.emptied hs⟩
  | arrive bytes =>
    simp only [Session.act]
    split <;> exact ⟨hs.table, hs.loop, hs.beside, hs.fresh, hs.emptied⟩
  | endInput failure =>
    simp only [Session.act]
    split <;> exact ⟨hs.table, hs.loop, hs.beside, hs.fresh, hs.emptied⟩
  | breakOutflow =>
    simp only [Session.act]
    split <;> exact ⟨hs.table, hs.loop, hs.beside, hs.fresh, hs.emptied⟩
  | pass ms => exact ⟨hs.table, hs.loop, hs.beside, hs.fresh, hs.emptied⟩
  | call _ | drop _ | await _ | collect _ => exact ha.elim

theorem Listening.run (hs : s.Listening) {actions : List Action} (h : ∀ a ∈ actions, a.IsInbound) :
    (s.run actions).Listening := by
  induction actions generalizing s with
  | nil => exact hs
  | cons a rest ih =>
    exact ih (hs.act (h a List.mem_cons_self)) fun b hb => h b (List.mem_cons_of_mem _ hb)

end Session

end LanguageClient
