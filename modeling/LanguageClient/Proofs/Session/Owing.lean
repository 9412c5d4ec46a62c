import LanguageClient.Proofs.Session.Parts
import LanguageClient.Proofs.Session.Roles

/-!
# LanguageClient.Proofs.Session.Owing -- what tasks have still to say

A call that has passed its check owes messages: its own, and what the end of the handshake or of the session
takes after it (`Task.owed`). With a step a task pays of what it owes, or it takes a role or passes a check,
and owes more (`Task.Owes`). A session that is past its readiness takes no new debts, so whatever it says from
then on was owed before (`Session.said_of_past`).
-/

namespace LanguageClient

/-- The method of the notification that tells the server of an operation. -/
def DocumentOperation.method : DocumentOperation → String
  | opening _ _ _ _ => Method.didOpen.name
  | changing _ _ => Method.didChange.name
  | saving _ _ => Method.didSave.name
  | closing _ => Method.didClose.name

namespace DocumentStore

variable {s s' : DocumentStore} {n : DocumentNotice}

theorem notice_of_map {P : Type} {notice : P → DocumentNotice} {done : Except Fault (P × DocumentStore)}
    (h : (done.map fun (params, s) => (notice params, s)) = .ok (n, s')) : ∃ params, n = notice params := by
  rcases done with f | ⟨params, s⟩
  · cases h
  · cases h
    exact ⟨params, rfl⟩

theorem method_of_apply {o : DocumentOperation} (h : s.apply o = .ok (n, s')) :
    n.notification.method = o.method := by
  cases o with
  | opening _ _ _ _ | changing _ _ | saving _ _ | closing _ =>
    obtain ⟨params, rfl⟩ := notice_of_map h
    rfl

end DocumentStore

/-- What a role makes a task say. -/
def Role.words : Role → List Part
  | opening => [.handshake, .initialized]
  | closing => [.shutdown, .exit]

/-! ## What is owed at a place -/

namespace Purpose

/-- What is said after a request of a purpose. -/
def owed : Purpose → List Part
  | handshake => [.initialized]
  | shutdown => [.exit]
  | result _ | waiter => []

end Purpose

def AfterCancel.owed (after : AfterCancel) : List Part := after.elim [] (·.2.owed)

/-- What is said after a message was written, or could not be. -/
def Sending.owed : Sending → List Part
  | request _ p => p.owed
  | cancellation after => AfterCancel.owed after
  | initialized _ | exit _ | notification | document _ | loose => []

def Aftermath.owed : Aftermath → List Part
  | write _ d => d.owed
  | handshake _ | exit _ | abandoned | ended => []

/-- What a task has still to say if it passes no check and takes no role any more. -/
def Task.owed : Task → List Part
  | numbering method _ p | registering _ method _ p => .request method :: p.owed
  | writing m d => m.part?.toList ++ d.owed
  | rejecting _ _ p | leaving _ _ p | waiting _ p _ => p.owed
  | cancelling _ after | noticing _ after => AfterCancel.owed after
  | terminating a | closing a => a.owed
  | locking operation | editing operation => [.notification operation.method]
  | called _ | recording _ | entering _ | leavingReady | closingOutflow _ | reading | answering _ | hanging
  | abandoning _ _ | finished _ => []

/-- What a task has to say after a step. -/
def Progress.owed (p : Progress) : List Part := p.next.elim [] Task.owed

theorem Progress.owed_of_next {p : Progress} {next : Task} (h : p.next = some next) : p.owed = next.owed := by
  unfold owed
  rw [h]
  rfl

variable {me : TaskId} {s : Shared} {task : Task} {p : Progress}

theorem Purpose.owed_settled (p : Purpose) (outcome : Outcome) :
    (p.settled outcome).owed.Sublist p.owed := by
  have hsettles := p.settles outcome
  generalize p.settled outcome = next at hsettles
  cases hsettles with
  | accepted | shutdown => exact List.Sublist.refl _
  | refused | unreadable | result | waiter => exact List.nil_sublist _

theorem Purpose.owed_sent (p : Purpose) (s : Shared) (w : Waiter) : (p.sent s w).owed = p.owed := by
  cases p <;> rfl

theorem Task.owed_cancelled (after : AfterCancel) : (Task.cancelled after).owed = after.owed := by
  cases after <;> rfl

theorem Sending.owed_done (d : Sending) (s : Shared) (r : Except Fault Unit) :
    ((d.done s r).elim [] Task.owed) = d.owed := by
  cases d with
  | request w p =>
    cases r with
    | error f => rfl
    | ok _ => exact p.owed_sent s w
  | cancellation after => exact Task.owed_cancelled after
  | initialized result => cases r <;> rfl
  | exit answer | notification | document answer | loose => rfl

theorem Aftermath.owed_done (a : Aftermath) (s : Shared) : ((a.done s).elim [] Task.owed) = a.owed := by
  cases a with
  | write f d => exact d.owed_done s _
  | handshake f | exit answer | abandoned | ended => rfl

namespace Task

/-! ## Steps -/

/-- What a step says, and what it makes of what its task owes. -/
inductive Owes (s : Shared) (task : Task) (p : Progress) : Prop
  /-- The task pays of what it owes, and owes no more than the rest. -/
  | pays {said : List Part} (sent : p.shared.sent = s.sent ++ said)
      (owed : (said ++ p.owed).Sublist task.owed)
  /-- It takes a role. -/
  | takes {r : Role} (role : task.takes? s = some r) (sent : p.shared.sent = s.sent)
      (owed : p.owed.Sublist r.words)
  /-- It passes the check at its beginning. -/
  | passes {c : Call} {next : Task} (place : task = .called c) (entry : c.entry? = some next)
      (ready : s.lifecycle.phase = .ready) (sent : p.shared.sent = s.sent) (next : p.next = some next)
  /-- It tells the server of a cancellation. -/
  | notices {id : Id} {after : AfterCancel} (ready : s.lifecycle.phase = .ready)
      (place : task = .noticing id after) (sent : p.shared.sent = s.sent)
      (owed : p.owed = .notification Method.cancel.name :: after.owed)

theorem Owes.silent (sent : p.shared.sent = s.sent) (owed : p.owed.Sublist task.owed) : Owes s task p :=
  .pays (sent.trans (List.append_nil _).symm) owed

theorem Owes.same (sent : p.shared.sent = s.sent) (owed : p.owed = task.owed) : Owes s task p :=
  .silent sent (owed ▸ List.Sublist.refl _)

theorem Steps.owes (h : Steps me s task p) : Owes s task p := by
  cases h with
  | handshakeBegun hphase _ => exact .takes (if_pos hphase) rfl (List.Sublist.refl _)
  | handshakeUnfit hphase _ => exact .takes (if_pos hphase) rfl (List.nil_sublist _)
  | exitBegun hphase => exact .takes (if_pos hphase) rfl (List.sublist_cons_self _ _)
  | leftReady hphase => exact .takes (if_pos hphase) rfl (List.Sublist.refl _)
  | taken hentry hready => exact .passes rfl hentry hready rfl rfl
  | noticed hready => exact .notices hready rfl rfl rfl
  | unregistered _ => exact .silent rfl ((Purpose.owed_settled _ _).cons _)
  | left | settled _ => exact .silent rfl (Purpose.owed_settled _ _)
  | notFound _ | unnoticed _ => exact .same rfl (owed_cancelled _)
  | written hflow =>
    rename_i m d
    refine .pays (s.sent_write m) ?_
    simp only [Progress.owed, d.owed_done]
    exact List.Sublist.refl _
  | unwritten _ => exact .silent rfl (List.sublist_append_right _ _)
  | closed =>
    rename_i a
    exact .same rfl (a.owed_done _)
  | edited happly =>
    rename_i n documents
    exact .same rfl (congrArg (fun method => [Part.notification method]) (DocumentStore.method_of_apply happly))
  | notEdited _ => exact .silent rfl (List.nil_sublist _)
  | numbered | registered _ | rejected | timedOut _ _ | cancelled _ | terminated | locked _ => exact .same rfl rfl
  | _ => exact .silent rfl (List.nil_sublist _)

/-- Who takes no role and passes no check pays of what he owes. -/
theorem Steps.pays (h : Steps me s task p) (htakes : task.takes? s = none) (hready : s.lifecycle.phase ≠ .ready) :
    ∃ said, p.shared.sent = s.sent ++ said ∧ (said ++ p.owed).Sublist task.owed := by
  cases h.owes with
  | pays sent owed => exact ⟨_, sent, owed⟩
  | takes role _ _ => exact absurd (role.symm.trans htakes) (by simp)
  | passes _ _ ready _ _ | notices ready _ _ _ => exact absurd ready hready

/-- Of what is left of a call only the first has something to say. -/
theorem Leaves.cases_owed {rest : List Task} (h : task.Leaves rest) : rest = [] ∨
    ∃ first more, rest = first :: more ∧ first.owed.Sublist task.owed ∧ ∀ x ∈ more, x.owed = [] := by
  have hafter : ∀ d, ∀ x ∈ afterWrite d, x.owed = [] := by
    intro d x hx
    rcases mem_afterWrite hx with ⟨w, p, rfl, -⟩ | ⟨result, rfl, -⟩ <;> rfl
  cases h with
  | called | locking | closingOutflow | finished _ => exact .inl rfl
  | waiting =>
    rename_i w p deadline
    exact .inr ⟨.abandoning w p, [], rfl, List.nil_sublist _, List.forall_mem_nil _⟩
  | started =>
    rename_i w
    exact .inr ⟨.abandoning w .waiter, [], rfl, List.nil_sublist _, List.forall_mem_nil _⟩
  | writing hd =>
    rename_i m d
    exact .inr ⟨.writing m .loose, afterWrite d, rfl, (List.nil_sublist d.owed).append_left _, hafter d⟩
  | terminating hd =>
    rename_i f d
    exact .inr ⟨.terminating (.write f .loose), afterWrite d, rfl, List.nil_sublist _, hafter d⟩
  | closing hd =>
    rename_i f d
    exact .inr ⟨.closing (.write f .loose), afterWrite d, rfl, List.nil_sublist _, hafter d⟩

/-- Who leaves owes no more than before. -/
theorem Leaves.owed {rest : List Task} (h : task.Leaves rest) : (rest.flatMap Task.owed).Sublist task.owed := by
  rcases h.cases_owed with rfl | ⟨first, more, rfl, hfirst, hmore⟩
  · exact List.nil_sublist _
  · rw [List.flatMap_cons, List.flatMap_eq_nil_iff.mpr hmore, List.append_nil]
    exact hfirst

theorem Recasts.owed {old new : List Task} (h : Recasts old new) :
    (new.flatMap Task.owed).Sublist (old.flatMap Task.owed) := by
  cases h with
  | left leaves =>
    rw [List.flatMap_singleton]
    exact leaves.owed
  | same | called _ | awaited _ | collected _ => exact List.nil_sublist _

end Task

/-! ## Sessions past their readiness -/

/-- The session is being shut down or has terminated. -/
def Shared.IsPast (s : Shared) : Prop :=
  s.lifecycle.phase = .shuttingDown ∨ s.lifecycle.phase = .terminated

namespace Shared.IsPast

theorem takes?_eq_none (h : s.IsPast) (task : Task) : task.takes? s = none := by
  unfold Task.takes?
  rcases h with heq | heq <;> split <;> first | rfl | simp [heq]

theorem not_ready (h : s.IsPast) : s.lifecycle.phase ≠ .ready := by
  rcases h with heq | heq <;> rw [heq] <;> decide

theorem step (h : s.IsPast) (step : task.Steps me s p) : p.shared.IsPast := by
  cases step with
  | handshakeBegun hphase _ | handshakeUnfit hphase _ | becameReady hphase | leftReady hphase =>
    rcases h with heq | heq <;> exact absurd (hphase.symm.trans heq) (by decide)
  | terminated => exact .inr rfl
  | _ => exact h

end Shared.IsPast

namespace Session

variable {s s' : Session} {a : Action}

/-- What the tasks of a session have still to say. -/
def owed (s : Session) : List Part := s.places.flatMap Task.owed

theorem Agrees.sent {s s' : Shared} (h : Agrees s s') : s'.sent = s.sent :=
  congrArg (List.filterMap Message.part?) h.wire

theorem Moves.isPast (h : Moves s a s') (hpast : s.shared.IsPast) : s'.shared.IsPast := by
  cases h with
  | turn htask takes before after agrees =>
    unfold Shared.IsPast
    rw [agrees.lifecycle]
    exact hpast.step (.of_step takes)
  | still recasts before after agrees idle =>
    unfold Shared.IsPast
    rw [agrees.lifecycle]
    exact hpast

/-- Whatever happens to a session past its readiness, it pays of what its tasks owe. -/
theorem Moves.owed (h : Moves s a s') (hpast : s.shared.IsPast) :
    ∃ said, s'.shared.sent = s.shared.sent ++ said ∧ (said ++ s'.owed).Subperm s.owed := by
  cases h with
  | turn htask takes before after agrees =>
    rename_i t task p others
    obtain ⟨said, hsent, howed⟩ := (Task.Steps.of_step takes).pays (hpast.takes?_eq_none task) hpast.not_ready
    have hasked : (p.asked.toList.map Task.answering).flatMap Task.owed = [] := by cases p.asked <;> rfl
    have hnext : p.next.toList.flatMap Task.owed = p.owed := by
      unfold Progress.owed
      cases p.next with
      | none => rfl
      | some next => exact List.flatMap_singleton _ _
    have hbefore : s.owed.Perm (task.owed ++ others.flatMap Task.owed) := before.flatMap_right Task.owed
    have hafter : s'.owed.Perm (p.owed ++ others.flatMap Task.owed) := by
      have hperm := after.flatMap_right Task.owed
      rwa [List.flatMap_append, List.flatMap_append, hasked, List.nil_append, hnext] at hperm
    refine ⟨said, agrees.sent.trans hsent, ?_⟩
    refine (hafter.append_left said).subperm.trans (List.Subperm.trans ?_ hbefore.symm.subperm)
    rw [← List.append_assoc]
    exact (howed.append_right _).subperm
  | still recasts before after agrees idle =>
    rename_i old new others
    have hbefore := before.flatMap_right Task.owed
    have hafter := after.flatMap_right Task.owed
    rw [List.flatMap_append] at hbefore hafter
    refine ⟨[], agrees.sent.trans (List.append_nil _).symm, ?_⟩
    exact hafter.subperm.trans ((recasts.owed.append_right _).subperm.trans hbefore.symm.subperm)

/-- **A session that is past its readiness says nothing but what its tasks owe.** -/
theorem said_of_past (hs : s.Named) (hpast : s.shared.IsPast) (later : List Action) :
    ∃ said, (s.run later).shared.sent = s.shared.sent ++ said
      ∧ (said ++ (s.run later).owed).Subperm s.owed := by
  induction later generalizing s with
  | nil => exact ⟨[], (List.append_nil _).symm, List.Subperm.refl _⟩
  | cons a rest ih =>
    have moves := hs.moves_act a
    obtain ⟨said, hsent, howed⟩ := moves.owed hpast
    obtain ⟨more, hmore, hrest⟩ := ih (hs.act a) (moves.isPast hpast)
    refine ⟨said ++ more, ?_, ?_⟩
    · rw [← List.append_assoc, ← hsent]
      exact hmore
    · rw [List.append_assoc]
      exact ((List.subperm_append_left said).mpr hrest).trans howed

end Session

end LanguageClient
