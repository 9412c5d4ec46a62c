import LanguageClient.Proofs.Calls.Table
import LanguageClient.Proofs.Documents.Told
import LanguageClient.Proofs.Session.Places
import Mathlib.Data.List.Induction

/-!
# LanguageClient.Proofs.Session.TimeUp -- calls whose time is over

A call that ends with `timeout` has waited for its answer until its time was over. What the table of calls
holds and refuses, what is wrong with a document, and what a phase does not allow are other faults
(`PendingCalls.Untimed`, `DocumentStore.fault_of_apply`), so the one place from which a call gets late is where
it waits with a limit (`Task.Steps.late`), and a call that is late has had its turn there (`timeUp_of_late`).
-/

namespace LanguageClient

/-! ## Outcomes in the table -/

namespace PendingCalls

/-- No outcome is that the time is over. -/
def Untimed (t : PendingCalls) : Prop := ∀ e ∈ t.outcomes, e.2 ≠ .error .timeout

variable {t : PendingCalls}

theorem Untimed.settle (h : t.Untimed) (id : Id) {o : Outcome} (ho : o ≠ .error .timeout) :
    (t.settle id o).2.Untimed := by
  unfold PendingCalls.settle
  split
  · exact h
  · intro e he
    rcases List.mem_append.mp he with hold | hnew
    · exact h e hold
    · rw [List.mem_singleton.mp hnew]
      exact ho

theorem Untimed.resolve (h : t.Untimed) (r : Response) : (t.resolve r).2.Untimed := by
  unfold PendingCalls.resolve
  split
  · exact h
  · apply h.settle
    rw [outcomeOf_eq]
    split <;> exact nofun

theorem Untimed.close (h : t.Untimed) : t.close.Untimed := by
  intro e he
  rcases List.mem_append.mp he with hold | hnew
  · exact h e hold
  · obtain ⟨c, -, rfl⟩ := List.mem_map.mp hnew
    exact nofun

theorem Untimed.abandon (h : t.Untimed) (w : Waiter) : (t.abandon w).Untimed :=
  fun e he => h e (List.mem_of_mem_filter he)

theorem Untimed.poll (h : t.Untimed) {w : Waiter} {o : Outcome} {t' : PendingCalls}
    (hpoll : t.poll w = some (o, t')) : o ≠ .error .timeout ∧ t'.Untimed := by
  obtain ⟨o', ho, heq⟩ := Option.map_eq_some_iff.mp hpoll
  obtain ⟨rfl, rfl⟩ := Prod.mk.inj heq
  obtain ⟨before, after, houtcomes, -⟩ := List.lookup_eq_some_iff.mp ho
  refine ⟨h (w.serial, o') ?_, fun e he => h e (List.mem_of_mem_filter he)⟩
  rw [houtcomes]
  exact List.mem_append_right _ List.mem_cons_self

/-- A request is refused for another reason. -/
theorem ne_timeout_of_register {id : Id} {method : String} {f : Fault}
    (h : t.register id method = .error f) : f ≠ .timeout := by
  unfold register at h
  split at h
  · cases h
    exact nofun
  · split at h <;> cases h
    exact nofun

end PendingCalls

theorem Task.Steps.untimed {me : TaskId} {s : Shared} {task : Task} {p : Progress} (h : Steps me s task p)
    (hs : s.pending.Untimed) : p.shared.pending.Untimed := by
  cases h with
  | registered hregister =>
    unfold PendingCalls.Untimed at hs ⊢
    obtain ⟨-, -, rfl⟩ := PendingCalls.of_register hregister
    exact hs
  | rejected | readBadResponse _ => exact hs.settle _ nofun
  | cancelled _ => exact hs.settle _ nofun
  | readResponse _ => exact hs.resolve _
  | left | abandonedHandshake | abandoned _ => exact hs.abandon _
  | settled hpoll => exact (hs.poll hpoll).2
  | closed => exact hs.close
  | _ => exact hs

/-! ## Calls that are late -/

/-- Its caller will be told that the time is over. -/
def Sending.IsLate : Sending → Prop
  | .cancellation after => after.isSome = true
  | .exit answer => answer = .error .timeout
  | _ => False

def Aftermath.IsLate : Aftermath → Prop
  | .write f d => d ≠ .loose ∧ (f = .timeout ∨ d.IsLate)
  | .exit answer => answer = .error .timeout
  | _ => False

namespace Task

/-- The caller of a task has been told, or will be, that the time is over. -/
def IsLate : Task → Prop
  | .cancelling _ after | .noticing _ after => after.isSome = true
  | .writing _ d => d.IsLate
  | .rejecting _ f _ | .leaving _ f _ => f = .timeout
  | .terminating a | .closing a => a.IsLate
  | .closingOutflow answer | .finished answer => answer = .error .timeout
  | _ => False

/-- A task has waited with a limit, and its time is over without an answer. -/
def IsTimeUp (s : Shared) (task : Task) : Prop := ∃ w p time,
  task = .waiting w p (some time) ∧ s.pending.outcome? w = none ∧ time ≤ s.clock

end Task

theorem Purpose.late_settled {p : Purpose} {outcome : Outcome} (h : (p.settled outcome).IsLate) :
    outcome = .error .timeout := by
  have hsettles := p.settles outcome
  generalize p.settled outcome = next at hsettles h
  cases hsettles with
  | refused | unreadable | accepted => cases h
  | shutdown =>
    rcases outcome with f | j
    · cases f with
      | timeout => rfl
      | _ => cases h
    · cases h
  | result | waiter =>
    rcases outcome with f | j
    · cases h
      rfl
    · cases h

theorem Task.late_cancelled {after : AfterCancel} (h : (Task.cancelled after).IsLate) :
    after.isSome = true := by
  cases after with
  | none => cases h
  | some pair => rfl

theorem Sending.late_done {d : Sending} {s : Shared} {r : Except Fault Unit} {next : Task}
    (hnext : d.done s r = some next) (h : next.IsLate) :
    d ≠ .loose ∧ (r = .error .timeout ∨ d.IsLate) := by
  cases d with
  | request w p =>
    rcases r with f | _ <;> cases hnext
    · exact ⟨nofun, .inl (congrArg Except.error h)⟩
    · cases p <;> cases h
  | initialized result => rcases r with f | _ <;> cases hnext <;> cases h
  | exit answer =>
    cases hnext
    exact ⟨nofun, .inr h⟩
  | notification | document answer =>
    rcases r with f | _ <;> cases hnext <;> cases h
    exact ⟨nofun, .inl rfl⟩
  | cancellation after =>
    cases hnext
    exact ⟨nofun, .inr (Task.late_cancelled h)⟩
  | loose => cases hnext

theorem Aftermath.late_done {a : Aftermath} {s : Shared} {next : Task} (hnext : a.done s = some next)
    (h : next.IsLate) : a.IsLate := by
  cases a with
  | write f d => exact (Sending.late_done hnext h).imp_right (Or.imp_left Except.error.inj)
  | handshake f =>
    cases hnext
    cases f <;> cases h
  | exit answer =>
    cases hnext
    exact h
  | abandoned | ended => cases hnext

namespace Task

variable {me : TaskId} {s : Shared} {task : Task} {p : Progress}

/-- A call gets late in one step only: its time is over where it waits. -/
theorem Steps.late (h : Steps me s task p) (untimed : s.pending.Untimed) {next : Task}
    (hnext : p.next = some next) (hlate : next.IsLate) : task.IsLate ∨ task.IsTimeUp s := by
  cases h with
  | taken hentry hready =>
    rename_i c first
    cases hnext
    cases c <;> cases hentry <;> cases hlate
  | unregistered hregister =>
    cases hnext
    cases Purpose.late_settled hlate
    exact absurd rfl (PendingCalls.ne_timeout_of_register hregister)
  | settled hpoll =>
    cases hnext
    exact absurd (Purpose.late_settled hlate) (untimed.poll hpoll).1
  | timedOut hpoll htime => exact .inr ⟨_, _, _, rfl, Option.map_eq_none_iff.mp hpoll, htime⟩
  | left =>
    cases hnext
    cases Purpose.late_settled hlate
    exact .inl rfl
  | notFound _ | unnoticed _ =>
    cases hnext
    exact .inl (late_cancelled hlate)
  | written _ => exact .inl ((Sending.late_done hnext hlate).2.resolve_left nofun)
  | unwritten _ =>
    cases hnext
    exact .inl (hlate.2.resolve_left nofun)
  | closed => exact .inl (Aftermath.late_done hnext hlate)
  | notEdited happly =>
    cases hnext
    cases hlate
    rcases DocumentStore.fault_of_apply happly with heq | heq | ⟨_, _, heq⟩ <;> cases heq
  | rejected | cancelled _ | noticed _ | terminated | outflowClosed _ _ =>
    cases hnext
    exact .inl hlate
  | _ => cases hnext <;> cases hlate

/-- Nobody is told of what is left of a call. -/
theorem Leaves.not_late {rest : List Task} (h : task.Leaves rest) {left : Task} (hmem : left ∈ rest) :
    ¬ left.IsLate := by
  cases h.remnant hmem with
  | writing m | abandoning w p | failing => exact id
  | terminating f | closing f => exact fun hlate => hlate.1 rfl

end Task

namespace Session

/-! ## Turns of the past -/

/-- In a run a task has had a turn at a place and in a state as described. -/
def HadTurn (options : SessionOptions) (actions : List Action) (t : TaskId) (P : Session → Task → Prop) :
    Prop :=
  ∃ before task after, actions = before ++ .turn t :: after
    ∧ ((create options).run before).task? t = some task ∧ P ((create options).run before) task

variable {options : SessionOptions} {actions : List Action} {t : TaskId} {P : Session → Task → Prop}

theorem HadTurn.append (h : HadTurn options actions t P) (later : List Action) :
    HadTurn options (actions ++ later) t P := by
  obtain ⟨before, task, after, rfl, hplace, hP⟩ := h
  exact ⟨before, task, after ++ later, by simp, hplace, hP⟩

/-- The last turn. -/
theorem hadTurn_last {task : Task} (hplace : ((create options).run actions).task? t = some task)
    (hP : P ((create options).run actions) task) : HadTurn options (actions ++ [.turn t]) t P :=
  ⟨actions, task, [], rfl, hplace, hP⟩

/-! ## Why a call is late -/

theorem untimed_run (options : SessionOptions) (actions : List Action) :
    ((create options).run actions).shared.pending.Untimed := by
  induction actions using List.reverseRecOn with
  | nil => exact nofun
  | append_singleton actions a ih =>
    have happened := ((named_create options).run actions).happens_act a
    rw [run_append]
    rcases happened.changes with hsame | ⟨t, task, p, -, -, step, hsame⟩
    · exact hsame.pending ▸ ih
    · exact hsame.pending ▸ step.untimed ih

/-- **A call that is late has waited until its time was over.** -/
theorem timeUp_of_late {task : Task} (here : (t, task) ∈ ((create options).run actions).tasks)
    (hlate : task.IsLate) : HadTurn options actions t fun s task => task.IsTimeUp s.shared := by
  induction actions using List.reverseRecOn generalizing t task with
  | nil =>
    cases List.mem_singleton.mp here
    cases hlate
  | append_singleton actions a ih =>
    have hnamed := (named_create options).run actions
    rw [run_append] at here
    cases (hnamed.happens_act a).arises here with
    | stays here => exact (ih here hlate).append [a]
    | steps action here step next =>
      rcases step.late (untimed_run options actions) next hlate with hbefore | htimeUp
      · exact (ih here hbefore).append [a]
      · rw [action]
        exact hadTurn_last (hnamed.task?_eq_some_iff.mpr here) htimeUp
    | left _ _ leaves mem _ => exact absurd hlate (leaves.not_late mem)
    | called _ _ | asked _ | awaited _ _ => cases hlate

end Session

end LanguageClient
