import LanguageClient.Proofs.Session.Places

/-!
# LanguageClient.Proofs.Session.Waiters -- who has which waiter

A task has at most one waiter at a time (`Task.waiter?`), and takes it along from place to place: a step keeps
the waiter of its task, unless it is the one that hands a waiter out or one of those after which nobody waits
any more (`Task.Passes`). A call that is dropped leaves its waiter behind (`Task.Recasts.waiters`). For what
tasks have in all, only the places matter at which they are, and `Moves` says what an action does to these.
-/

namespace LanguageClient

/-! ## The waiter of a task -/

def Answer.waiter? : Answer → Option Waiter
  | .waiter w => some w
  | _ => none

def Sending.waiter? : Sending → Option Waiter
  | .request w _ => some w
  | .cancellation after => after.map (·.1)
  | _ => none

def Aftermath.waiter? : Aftermath → Option Waiter
  | .write _ d => d.waiter?
  | _ => none

namespace Task

/-- The waiter that a task has. -/
def waiter? : Task → Option Waiter
  | .writing _ d => d.waiter?
  | .rejecting w _ _ | .leaving w _ _ | .waiting w _ _ | .abandoning w _ => some w
  | .cancelling _ after | .noticing _ after => after.map (·.1)
  | .terminating a | .closing a => a.waiter?
  | .finished (.ok answer) => answer.waiter?
  | _ => none

end Task

/-- No waiter is promised to the caller of an operation on a document, or of the end of the session. -/
def Sending.Plain : Sending → Prop
  | .exit answer => (Task.finished answer).waiter? = none
  | .document answer => answer.waiter? = none
  | _ => True

def Aftermath.Plain : Aftermath → Prop
  | .write _ d => d.Plain
  | .exit answer => (Task.finished answer).waiter? = none
  | _ => True

namespace Task

/-- What a task promises is no waiter. -/
def Plain : Task → Prop
  | .writing _ d => d.Plain
  | .terminating a | .closing a => a.Plain
  | .closingOutflow answer => (Task.finished answer).waiter? = none
  | _ => True

end Task

/-! ## Where waiters go -/

variable {me : TaskId} {s : Shared} {task : Task} {p : Progress}

theorem Purpose.waiter?_settled (p : Purpose) (outcome : Outcome) : (p.settled outcome).waiter? = none := by
  have hsettles := p.settles outcome
  generalize p.settled outcome = next at hsettles
  cases hsettles with
  | refused | unreadable | accepted | shutdown => rfl
  | result | waiter => cases outcome <;> rfl

theorem Purpose.waiter?_sent (p : Purpose) (s : Shared) (w : Waiter) : (p.sent s w).waiter? = some w := by
  cases p <;> rfl

theorem Task.waiter?_cancelled (after : AfterCancel) : (Task.cancelled after).waiter? = after.map (·.1) := by
  cases after <;> rfl

theorem Sending.waiter?_done {d : Sending} (h : d.Plain) (s : Shared) (r : Except Fault Unit) :
    (d.done s r).bind Task.waiter? = d.waiter? := by
  cases d with
  | request w p =>
    cases r with
    | error f => rfl
    | ok _ => exact p.waiter?_sent s w
  | cancellation after => exact Task.waiter?_cancelled after
  | document answer =>
    cases r with
    | error f => rfl
    | ok _ => exact h
  | initialized result | notification => cases r <;> rfl
  | exit answer | loose => rfl

theorem Aftermath.waiter?_done {a : Aftermath} (h : a.Plain) (s : Shared) :
    (a.done s).bind Task.waiter? = a.waiter? := by
  cases a with
  | write f d => exact Sending.waiter?_done h s _
  | exit answer => exact h
  | handshake f | abandoned | ended => rfl

theorem Purpose.plain_settled (p : Purpose) (outcome : Outcome) : (p.settled outcome).Plain := by
  have hsettles := p.settles outcome
  generalize p.settled outcome = next at hsettles
  cases hsettles with
  | refused | unreadable | accepted | result | waiter => trivial
  | shutdown =>
    rcases outcome with f | _
    · show (Task.finished (Purpose.shutdownAnswer (.error f))).waiter? = none
      cases f <;> rfl
    · rfl

theorem Sending.plain_done {d : Sending} (h : d.Plain) {r : Except Fault Unit} {next : Task}
    (hnext : d.done s r = some next) : next.Plain := by
  cases d with
  | request w p =>
    rcases r with f | _ <;> cases hnext
    · trivial
    · cases p <;> trivial
  | initialized result => rcases r with f | _ <;> cases hnext <;> trivial
  | exit answer =>
    cases hnext
    exact h
  | notification | document answer =>
    cases hnext
    trivial
  | cancellation after =>
    cases hnext
    cases after <;> trivial
  | loose => cases hnext

theorem Aftermath.plain_done {a : Aftermath} (h : a.Plain) {next : Task} (hnext : a.done s = some next) :
    next.Plain := by
  cases a with
  | write f d => exact Sending.plain_done h hnext
  | handshake f | exit answer =>
    cases hnext
    trivial
  | abandoned | ended => cases hnext

namespace Task

/-- What is promised is still no waiter after a step. -/
theorem Steps.plain (h : Steps me s task p) (hplain : task.Plain) {next : Task} (hnext : p.next = some next) :
    next.Plain := by
  cases h with
  | taken hentry hready =>
    rename_i c first
    cases hnext
    cases c <;> cases hentry <;> trivial
  | unregistered _ | left | settled _ =>
    cases hnext
    exact Purpose.plain_settled _ _
  | notFound _ | unnoticed _ =>
    rename_i after _
    cases hnext
    cases after <;> trivial
  | written _ => exact Sending.plain_done hplain hnext
  | unwritten _ | terminated | outflowClosed _ _ =>
    cases hnext
    exact hplain
  | closed => exact Aftermath.plain_done hplain hnext
  | edited _ =>
    rename_i n documents _
    cases hnext
    show n.answer.waiter? = none
    cases n <;> rfl
  | exitBegun _ =>
    cases hnext
    rfl
  | _ =>
    cases hnext
    try trivial

/-! ## Calls that are begun, awaited, dropped and collected -/

/-- What callers make of a place: a call begins, or a task becomes others. -/
inductive Recasts : List Task → List Task → Prop
  | same : Recasts [] []
  | called (c : Call) : Recasts [] [.called c]
  | left {task : Task} {rest : List Task} (h : task.Leaves rest) : Recasts [task] rest
  | awaited (w : Waiter) : Recasts [.finished (.ok (.waiter w))] [.waiting w .waiter none]
  | collected {answer : Except Fault Answer} (h : ∀ w, answer ≠ .ok (.waiter w)) :
      Recasts [.finished answer] []

theorem waiters_afterWrite (d : Sending) : (afterWrite d).filterMap waiter? = d.waiter?.toList := by
  cases d with
  | cancellation after => cases after <;> rfl
  | _ => rfl

theorem waiter?_finished {answer : Except Fault Answer} (h : ∀ w, answer ≠ .ok (.waiter w)) :
    (finished answer).waiter? = none := by
  rcases answer with f | answer
  · rfl
  · cases answer with
    | waiter w => exact absurd rfl (h w)
    | _ => rfl

/-- Waiters are not lost, whatever callers do. -/
theorem Recasts.waiters {old new : List Task} (h : Recasts old new) :
    new.filterMap waiter? = old.filterMap waiter? := by
  have hwrite : ∀ (first : Task) (d : Sending), first.waiter? = none →
      (first :: afterWrite d).filterMap waiter? = d.waiter?.toList := by
    intro first d hfirst
    rw [List.filterMap_cons_none hfirst]
    exact waiters_afterWrite d
  have hone : ∀ task : Task, [task].filterMap waiter? = task.waiter?.toList := fun task =>
    (Session.filterMap_cons_toList waiter? task []).trans (List.append_nil _)
  cases h with
  | same | called c | awaited w => rfl
  | collected h => rw [hone, waiter?_finished h]; rfl
  | left h =>
    rw [hone]
    cases h with
    | called | locking | closingOutflow | waiting | started => rfl
    | writing _ | terminating _ | closing _ => exact hwrite _ _ rfl
    | finished h => rw [waiter?_finished h]; rfl

theorem Recasts.plain {old new : List Task} (h : Recasts old new) : ∀ task ∈ new, task.Plain := by
  intro task hmem
  cases h with
  | same | collected _ => cases hmem
  | called c | awaited w =>
    obtain rfl := List.mem_singleton.mp hmem
    trivial
  | left h => cases h.remnant hmem <;> trivial

/-- The connection is failed to the end although the caller is gone. -/
theorem Recasts.closing (h : Recasts old new) (hold : ∃ a, .closing a ∈ old) : ∃ a, .closing a ∈ new := by
  obtain ⟨a, hmem⟩ := hold
  cases h with
  | same | called _ => cases hmem
  | awaited _ | collected _ => cases List.mem_singleton.mp hmem
  | left h =>
    cases List.mem_singleton.mp hmem
    cases h with
    | closing _ => exact ⟨_, List.mem_cons_self⟩

end Task

/-! ## What an action does to the places -/

namespace Session

variable {s s' : Session}

/-- What an action does to the places of the tasks, but for their order, and to what they share. -/
inductive Moves (s : Session) : Action → Session → Prop
  /-- A task takes a step, and a request that is read is answered by a task of its own. -/
  | turn {t : TaskId} {task : Task} {p : Progress} {others : List Task} {s' : Session}
      (task? : s.task? t = some task) (takes : task.step t s.shared = some p)
      (before : s.places.Perm (task :: others))
      (after : s'.places.Perm (p.next.toList ++ (p.asked.toList.map .answering ++ others)))
      (agrees : Agrees p.shared s'.shared) : Moves s (.turn t) s'
  /-- No task takes a step. -/
  | still {a : Action} {old new others : List Task} {s' : Session} (recasts : Task.Recasts old new)
      (before : s.places.Perm (old ++ others)) (after : s'.places.Perm (new ++ others))
      (agrees : Agrees s.shared s'.shared)
      (idle : ∀ t, a = .turn t → (s.task? t).bind (Task.step t s.shared) = none) : Moves s a s'

theorem Agrees.refl (s : Shared) : Agrees s s := ⟨rfl, rfl, rfl⟩

theorem agrees_after (s : Shared) (t : TaskId) (next : Option Task) : Agrees s (s.after t next) := by
  obtain ⟨holder, hafter⟩ := s.after_eq t next
  rw [hafter]
  exact ⟨rfl, rfl, rfl⟩

section Still

variable {a : Action} (hs : s.Named)
  (idle : ∀ t, a = .turn t → (s.task? t).bind (Task.step t s.shared) = none)

include hs idle

theorem Replaced.still {t : TaskId} {task : Task} {stay : Option Task} {new : List Task} {shared : Shared}
    (moved : Replaced s t task stay new shared s') (recasts : Task.Recasts [task] (stay.toList ++ new))
    (agrees : Agrees s.shared shared) : Moves s a s' := by
  obtain ⟨others, hbefore, hafter⟩ := moved.places hs
  rw [← List.append_assoc] at hafter
  exact .still recasts hbefore hafter (moved.shared ▸ agrees) idle

theorem Happens.still (happened : Happens s a s') : Moves s a s' := by
  cases happened with
  | nothing => exact .still .same (.refl s.places) (.refl _) (.refl _) idle
  | turn step moved =>
    have hnone := idle _ rfl
    rw [hs.task?_eq_some_iff.mpr moved.here, Option.bind_some, step.step_eq] at hnone
    cases hnone
  | call c =>
    have hplaces : (s.spawn (.called c)).places = s.places ++ [.called c] := List.map_append
    refine .still (.called c) (.refl s.places) ?_ (.refl _) idle
    rw [hplaces]
    exact List.perm_append_comm
  | drop leaves moved => exact moved.still hs idle (.left leaves) (agrees_after _ _ _)
  | await moved => exact moved.still hs idle (.awaited _) (.refl _)
  | collect taken moved => exact moved.still hs idle (.collected taken) (.refl _)
  | arrive _ | endInput _ | breakOutflow _ | pass _ =>
    exact .still .same (.refl s.places) (.refl _) ⟨rfl, rfl, rfl⟩ idle

end Still

/-- Whatever an action does is one of both. -/
theorem Named.moves_act (hs : s.Named) (a : Action) : Moves s a (s.act a) := by
  by_cases htakes : ∃ t task p, a = .turn t ∧ s.task? t = some task ∧ task.step t s.shared = some p
  · obtain ⟨t, task, p, rfl, htask, hstep⟩ := htakes
    have moved := hs.replaced_turn (hs.task?_eq_some_iff.mp htask) hstep
    obtain ⟨others, hbefore, hafter⟩ := moved.places hs
    exact .turn htask hstep hbefore hafter (moved.shared ▸ agrees_after _ _ _)
  · refine (hs.happens_act a).still hs ?_
    rintro t rfl
    cases hbind : (s.task? t).bind (Task.step t s.shared) with
    | none => rfl
    | some p =>
      obtain ⟨task, htask, hstep⟩ := Option.bind_eq_some_iff.mp hbind
      exact absurd ⟨t, task, p, rfl, htask, hstep⟩ htakes

/-! ## The places after a step -/

section Turn

variable {task : Task} {p : Progress} {others : List Task}

theorem mem_places_turn
    (after : s'.places.Perm (p.next.toList ++ (p.asked.toList.map .answering ++ others))) {x : Task}
    (hmem : x ∈ s'.places) : p.next = some x ∨ (∃ r, x = .answering r) ∨ x ∈ others := by
  rcases List.mem_append.mp (after.mem_iff.mp hmem) with hnext | hmem
  · exact .inl (Option.mem_toList.mp hnext)
  · rcases List.mem_append.mp hmem with hasked | hother
    · obtain ⟨r, -, rfl⟩ := List.mem_map.mp hasked
      exact .inr (.inl ⟨r, rfl⟩)
    · exact .inr (.inr hother)

/-- What tasks carry, before and after a step. -/
theorem filterMap_turn {α : Type} (f : Task → Option α) (hasked : ∀ r, f (.answering r) = none)
    (before : s.places.Perm (task :: others))
    (after : s'.places.Perm (p.next.toList ++ (p.asked.toList.map .answering ++ others))) :
    (s.places.filterMap f).Perm ((f task).toList ++ others.filterMap f)
      ∧ (s'.places.filterMap f).Perm ((p.next.bind f).toList ++ others.filterMap f) := by
  have hnone : (p.asked.toList.map Task.answering).filterMap f = [] := by
    cases p.asked with
    | none => rfl
    | some r => exact List.filterMap_cons_none (hasked r)
  rw [← filterMap_cons_toList, ← filterMap_toList]
  refine ⟨before.filterMap f, (after.filterMap f).trans ?_⟩
  rw [List.filterMap_append, List.filterMap_append, hnone, List.nil_append]

end Turn

end Session

end LanguageClient
