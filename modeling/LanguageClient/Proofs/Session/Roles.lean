import LanguageClient.Proofs.Session.Waiters

/-!
# LanguageClient.Proofs.Session.Roles -- the calls that open and close a session

Two calls move a session from phase to phase: one opens it, the other closes it. `Task.role?` tells at which
places they are. A role is taken at three places (`Task.takes?`), kept from place to place, and laid down at
the last (`Task.Steps.role`). Of a call that is dropped, what is left still has to do with the opening, and
never with the closing (`Task.Recasts.roles`).
-/

namespace LanguageClient

/-- What a call does for the session as a whole. -/
inductive Role where
  | opening
  | closing
  deriving DecidableEq

def Purpose.role? : Purpose → Option Role
  | handshake => some .opening
  | shutdown => some .closing
  | result _ | waiter => none

def AfterCancel.role? (after : AfterCancel) : Option Role := after.bind (·.2.role?)

def Sending.role? : Sending → Option Role
  | request _ p => p.role?
  | initialized _ => some .opening
  | exit _ => some .closing
  | cancellation after => AfterCancel.role? after
  | notification | document _ | loose => none

def Aftermath.role? : Aftermath → Option Role
  | write _ d => d.role?
  | handshake _ | abandoned => some .opening
  | exit _ => some .closing
  | ended => none

namespace Task

/-- What a task does for the session as a whole, once it has begun to. A handshake whose caller is gone has
still to fail the connection. -/
def role? : Task → Option Role
  | numbering _ _ p | registering _ _ _ p | rejecting _ _ p | leaving _ _ p | waiting _ p _ => p.role?
  | writing _ d => d.role?
  | cancelling _ after | noticing _ after => AfterCancel.role? after
  | recording _ | entering _ | abandoning _ .handshake => some .opening
  | closingOutflow _ => some .closing
  | terminating a | closing a => a.role?
  | _ => none

/-- The role that a task takes with its next step. -/
def takes? (s : Shared) : Task → Option Role
  | called .handshake => if s.lifecycle.phase = .uninitialized then some .opening else none
  | called .shutdown => if s.lifecycle.phase = .uninitialized then some .closing else none
  | leavingReady => if s.lifecycle.phase = .ready then some .closing else none
  | _ => none

/-- The places after which nothing is left to do for the session. -/
def isFinal : Task → Bool
  | entering _ => true
  | closing (.write _ _) => false
  | closing _ => true
  | _ => false

end Task

namespace Session

/-- The roles that tasks have, in the order of the tasks. -/
def roles (s : Session) : List Role := s.places.filterMap Task.role?

end Session

/-! ## How roles go on -/

variable {me : TaskId} {s : Shared} {task : Task} {p : Progress}

theorem Purpose.role?_settled (p : Purpose) (outcome : Outcome) : (p.settled outcome).role? = p.role? := by
  have hsettles := p.settles outcome
  generalize p.settled outcome = next at hsettles
  cases hsettles <;> rfl

theorem Purpose.role?_sent (p : Purpose) (s : Shared) (w : Waiter) : (p.sent s w).role? = p.role? := by
  cases p <;> rfl

theorem Task.role?_cancelled (after : AfterCancel) :
    (Task.cancelled after).role? = AfterCancel.role? after := by
  cases after <;> rfl

theorem Sending.role?_done (d : Sending) (s : Shared) (r : Except Fault Unit) :
    (d.done s r).bind Task.role? = d.role? := by
  cases d with
  | request w p =>
    cases r with
    | error f => rfl
    | ok _ => exact p.role?_sent s w
  | cancellation after => exact Task.role?_cancelled after
  | initialized result | notification | document answer => cases r <;> rfl
  | exit answer | loose => rfl

theorem Aftermath.role?_done (a : Aftermath) (s : Shared) :
    (a.done s).bind Task.role? = a.role? ∨
      (Task.closing a).isFinal = true ∧ (a.done s).bind Task.role? = none := by
  cases a with
  | write f d => exact .inl (d.role?_done s _)
  | handshake f | exit answer | abandoned | ended => exact .inr ⟨rfl, rfl⟩

namespace Task

/-- **A role is taken at its place, kept, and laid down at the last.** -/
theorem Steps.role (h : Steps me s task p) :
    p.next.bind role? = task.role?.or (task.takes? s) ∨ task.isFinal = true ∧ p.next.bind role? = none := by
  have kept : ∀ {task : Task} {next : Option Task}, task.takes? s = none → next.bind role? = task.role? →
      next.bind role? = task.role?.or (task.takes? s) := by
    intro task next htakes hnext
    rw [htakes, Option.or_none]
    exact hnext
  cases h with
  | handshakeBegun hphase _ | handshakeUnfit hphase _ | exitBegun hphase | leftReady hphase =>
    exact .inl (by simp [role?, takes?, hphase, Purpose.role?, Sending.role?, Aftermath.role?])
  | handshakeRefused hphase | shutdownBegun hphase => exact .inl (by simp [role?, takes?, hphase])
  | leftAlready hphase | notYetReady hphase =>
    rcases hphase with hphase | hphase <;> exact .inl (by simp [role?, takes?, hphase])
  | taken hentry hready | notTaken hentry hready =>
    rename_i c first
    cases c <;> cases hentry <;> exact .inl rfl
  | unregistered hregister | left | settled hpoll => exact .inl (kept rfl (Purpose.role?_settled _ _))
  | notFound hcancel | unnoticed hphase => exact .inl (kept rfl (role?_cancelled _))
  | written hflow => exact .inl (kept rfl (Sending.role?_done _ _ _))
  | closed =>
    rename_i a
    exact (a.role?_done _).imp_left (kept rfl)
  | abandoned hpurpose =>
    rename_i w purpose
    cases purpose with
    | handshake => exact absurd rfl hpurpose
    | shutdown | result _ | waiter => exact .inl rfl
  | becameReady hphase | notInitializing hphase => exact .inr ⟨rfl, rfl⟩
  | _ => exact .inl (kept rfl rfl)

/-- A role that is not laid down goes on. -/
theorem Steps.role_of_not_final (h : Steps me s task p) (hfinal : task.isFinal = false) :
    p.next.bind role? = task.role?.or (task.takes? s) := by
  rcases h.role with hrole | ⟨heq, -⟩
  · exact hrole
  · exact absurd (hfinal.symm.trans heq) (by decide)

/-- Who has a role had it before, or takes it. -/
theorem Steps.role_of_next (h : Steps me s task p) {next : Task} (hnext : p.next = some next) {r : Role}
    (hr : next.role? = some r) : task.role?.or (task.takes? s) = some r := by
  rcases h.role with hrole | ⟨-, hnone⟩
  · rw [← hrole, hnext]
    exact hr
  · rw [hnext] at hnone
    exact absurd (hr.symm.trans hnone) (by simp)

theorem roles_afterWrite (d : Sending) :
    (afterWrite d).filterMap role? = d.role?.toList.filter (· = .opening) := by
  cases d with
  | request w p => cases p <;> rfl
  | cancellation after =>
    cases after with
    | none => rfl
    | some pair =>
      obtain ⟨w, p⟩ := pair
      cases p <;> rfl
  | _ => rfl

/-- What callers do takes no role away but that of a closing call, and gives none. -/
theorem Recasts.roles {old new : List Task} (h : Recasts old new) :
    new.filterMap role? = (old.filterMap role?).filter (· = .opening) := by
  have hone : ∀ task : Task, [task].filterMap role? = task.role?.toList := fun task =>
    (Session.filterMap_cons_toList role? task []).trans (List.append_nil _)
  cases h with
  | same | called _ | awaited _ | collected _ => rfl
  | left leaves =>
    rw [hone]
    cases leaves with
    | writing _ | terminating _ | closing _ => exact roles_afterWrite _
    | waiting =>
      rename_i w p deadline
      cases p <;> rfl
    | called | locking | closingOutflow | started | finished _ => rfl

/-- Of a call that closes the session nothing is left that does, if it is dropped. -/
theorem Leaves.role_closing {rest : List Task} (h : task.Leaves rest) {x : Task} (hx : x ∈ rest) :
    x.role? ≠ some .closing := by
  cases h.remnant hx with
  | abandoning w p => cases p <;> nofun
  | writing _ | terminating _ | closing _ | failing => nofun

end Task

end LanguageClient
