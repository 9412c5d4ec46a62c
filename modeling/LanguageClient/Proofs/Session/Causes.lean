import LanguageClient.Proofs.Session.Answering
import LanguageClient.Proofs.Session.Sealing

/-!
# LanguageClient.Proofs.Session.Causes -- why sessions end

A session does not terminate without a cause (`Session.Caused`): `exit` was written and the direction to the
server ended, or one of the directions failed, or the handshake did. It terminates at one place only, and what
is the cause is known on the way there (`Task.Warranted`); every session keeps this (`Session.Causal`).
-/

namespace LanguageClient

namespace Task

/-! ## What is known at the places where a session ends -/

/-- The handshake was not successful, or its caller is gone. -/
def failsHandshake : Task → Bool
  | terminating (.handshake _) | terminating .abandoned => true
  | _ => false

/-- What is known where the session is about to end. `lost` says that the handshake has failed. -/
def Warranted (lost : Prop) (s : Shared) : Task → Prop
  | writing m (.exit _) => m = Purpose.exitMessage
  | closingOutflow _ => s.outflow = .flowing → Purpose.exitMessage ∈ s.wire
  | terminating (.write _ _) | terminating (.exit _) | closing (.write _ _) => s.outflow ≠ .flowing
  | terminating (.handshake _) | terminating .abandoned => lost
  | _ => True

variable {lost : Prop} {me : TaskId} {s s' : Shared} {task : Task} {p : Progress}

/-- It is known still when more was written, or when the direction to the server has failed. -/
theorem Warranted.mono (h : task.Warranted lost s) (hwire : ∀ m ∈ s.wire, m ∈ s'.wire)
    (hflow : s'.outflow = .flowing → s.outflow = .flowing) : task.Warranted lost s' := by
  unfold Warranted at h ⊢
  split
  · exact h
  · exact fun hflowing => hwire _ (h (hflow hflowing))
  · exact fun hflowing => h (hflow hflowing)
  · exact fun hflowing => h (hflow hflowing)
  · exact fun hflowing => h (hflow hflowing)
  · exact h
  · exact h
  · trivial

theorem warranted_settled (purpose : Purpose) (outcome : Outcome)
    (hlost : (purpose.settled outcome).failsHandshake = true → lost) :
    (purpose.settled outcome).Warranted lost s := by
  have hsettles := purpose.settles outcome
  generalize purpose.settled outcome = next at hsettles hlost
  cases hsettles with
  | refused | unreadable => exact hlost rfl
  | shutdown => rfl
  | accepted | result | waiter => trivial

theorem warranted_cancelled (after : AfterCancel) : (Task.cancelled after).Warranted lost s := by
  cases after <;> trivial

theorem Sending.warranted_done {d : Sending} {m : Message} {r : Except Fault Unit} {shared : Shared} {next : Task}
    (hnext : d.done shared r = some next) (hwarranted : (writing m d).Warranted lost s)
    (hwritten : s.outflow = .flowing → m ∈ s.wire) (hlost : next.failsHandshake = true → lost) :
    next.Warranted lost s := by
  cases d with
  | request w p =>
    rcases r with f | _ <;> cases hnext
    · trivial
    · cases p <;> trivial
  | initialized result =>
    rcases r with f | _ <;> cases hnext
    · exact hlost rfl
    · trivial
  | exit answer =>
    cases hnext
    obtain rfl : m = Purpose.exitMessage := hwarranted
    exact hwritten
  | notification | document answer =>
    cases hnext
    trivial
  | cancellation after =>
    cases hnext
    exact warranted_cancelled after
  | loose => cases hnext

/-- What is known at a place is known at the next. -/
theorem Steps.warranted (h : Steps me s task p) (hwarranted : task.Warranted lost s) {next : Task}
    (hnext : p.next = some next) (hlost : next.failsHandshake = true → lost) :
    next.Warranted lost p.shared := by
  cases h with
  | exitBegun _ =>
    cases hnext
    rfl
  | taken hentry hready =>
    rename_i c first
    cases hnext
    cases c <;> cases hentry <;> trivial
  | unregistered _ | left | settled _ =>
    cases hnext
    exact warranted_settled _ _ hlost
  | notFound _ | unnoticed _ =>
    cases hnext
    exact warranted_cancelled _
  | written _ =>
    exact Sending.warranted_done hnext (hwarranted.mono (fun _ => List.mem_append_left _) id)
      (fun _ => List.mem_append_right _ List.mem_cons_self) hlost
  | unwritten hflow =>
    cases hnext
    exact hflow
  | outflowClosed hclosed _ =>
    cases hnext
    exact hclosed
  | terminated =>
    rename_i a
    cases hnext
    cases a with
    | write f d => exact hwarranted
    | _ => trivial
  | closed =>
    rename_i a
    cases a with
    | write f d =>
      refine Sending.warranted_done hnext (m := Purpose.exitMessage) ?_ (fun hflow => absurd hflow hwarranted) hlost
      cases d <;> first | rfl | trivial
    | handshake f | exit answer =>
      cases hnext
      trivial
    | abandoned | ended => cases hnext
  | handshakeUnfit _ _ | abandonedHandshake =>
    cases hnext
    exact hlost rfl
  | abandoned _ => cases hnext
  | _ =>
    cases hnext
    trivial

theorem Leaves.warranted {rest : List Task} (h : task.Leaves rest) (hwarranted : task.Warranted lost s) {left : Task}
    (hmem : left ∈ rest) (hlost : left.failsHandshake = true → lost) : left.Warranted lost s := by
  have hafter : ∀ {d : Sending}, left ∈ afterWrite d → left.Warranted lost s := by
    intro d hmem
    rcases mem_afterWrite hmem with ⟨w, p, rfl, -⟩ | ⟨result, rfl, -⟩
    · trivial
    · exact hlost rfl
  cases h with
  | called | locking | closingOutflow | finished _ => cases hmem
  | waiting | started =>
    obtain rfl := List.mem_singleton.mp hmem
    trivial
  | writing _ =>
    rcases List.mem_cons.mp hmem with rfl | hmem
    · trivial
    · exact hafter hmem
  | terminating _ | closing _ =>
    rcases List.mem_cons.mp hmem with rfl | hmem
    · exact hwarranted
    · exact hafter hmem

/-- Only the read loop comes to the end of what is read. -/
theorem Steps.was_reading (h : Steps me s task p) (hnext : p.next = some (.terminating .ended)) :
    task = .reading := by
  have hsequel : ∀ {next : Task}, next.IsSequel → next ≠ .terminating .ended := by
    rintro next hsequel rfl
    cases hsequel
  cases h with
  | readEnd _ _ => rfl
  | taken hentry hready =>
    rename_i c first
    cases hnext
    cases c <;> cases hentry
  | unregistered _ | left | settled _ =>
    exact absurd (Option.some.inj hnext) (hsequel (Purpose.sequel_settled _ _))
  | notFound _ | unnoticed _ => exact absurd (Option.some.inj hnext) (hsequel (sequel_cancelled _))
  | written _ => exact absurd rfl (hsequel (Sending.sequel_done hnext))
  | closed => exact absurd rfl (hsequel (Aftermath.sequel_done hnext))
  | _ => cases hnext

end Task

namespace Session

/-! ## What every session keeps -/

variable {lost : Prop} {s s' : Session} {t u : TaskId} {task : Task} {p : Progress} {a : Action}

/-- What was written stays written. -/
theorem Happens.mem_wire (h : Happens s a s') {m : Message} (hm : m ∈ s.shared.wire) : m ∈ s'.shared.wire := by
  rcases h.changes with hsame | ⟨t, task, p, -, -, step, hsame⟩
  · rw [hsame.wire]
    exact hm
  · rw [hsame.wire]
    rcases step.writes with heq | ⟨m', d, -, heq⟩ <;> rw [heq]
    · exact hm
    · exact List.mem_append_left _ hm

/-- The direction to the server stays as it is, or breaks, or is ended at its place. -/
theorem Happens.outflow (h : Happens s a s') : s'.shared.outflow = s.shared.outflow
    ∨ s'.shared.outflow = .broken
    ∨ s.shared.outflow = .flowing ∧ ∃ t answer, (t, .closingOutflow answer) ∈ s.tasks := by
  cases h with
  | nothing | call _ | arrive _ | endInput _ | pass _ => exact .inl rfl
  | breakOutflow _ => exact .inr (.inl rfl)
  | turn step moved =>
    rename_i t task p
    obtain ⟨holder, hafter⟩ := p.shared.after_eq t p.next
    rw [moved.shared, hafter]
    by_cases hclosing : ∃ answer, task = .closingOutflow answer
    · obtain ⟨answer, rfl⟩ := hclosing
      cases hflow : s.shared.outflow with
      | flowing => exact .inr (.inr ⟨rfl, t, answer, moved.here⟩)
      | broken | closed =>
        cases step with
        | outflowClosed _ heq =>
          rw [← heq, Shared.closeOutflow, hflow]
          exact .inl hflow
    · exact .inl (step.outflow fun answer heq => hclosing ⟨answer, heq⟩)
  | drop leaves moved =>
    rename_i t task rest
    obtain ⟨holder, hafter⟩ := s.shared.after_eq t none
    rw [moved.shared, hafter]
    exact .inl rfl
  | await moved | collect _ moved =>
    rw [moved.shared]
    exact .inl rfl

/-- Why a session has terminated. -/
def Caused (lost : Prop) (s : Session) : Prop :=
  Purpose.exitMessage ∈ s.shared.wire ∧ s.shared.outflow = .closed
    ∨ s.shared.outflow = .broken ∨ (readLoop, .reading) ∉ s.tasks ∨ lost

/-- What every session keeps about its end. `lost` says that the handshake has failed. -/
structure Causal (lost : Prop) (s : Session) : Prop where
  attended : s.Attended
  sealed : s.Sealed
  warranted : ∀ t task, (t, task) ∈ s.tasks → task.Warranted lost s.shared
  reader : ∀ t, (t, .terminating .ended) ∈ s.tasks → t = readLoop
  closed : s.shared.outflow = .closed → Purpose.exitMessage ∈ s.shared.wire
  cause : s.shared.lifecycle.phase = .terminated → s.Caused lost

theorem causal_create (options : SessionOptions) : (create options).Causal lost where
  attended := attended_create options
  sealed := sealed_create options
  warranted t task hmem := by
    cases List.mem_singleton.mp hmem
    trivial
  reader t hmem := nomatch List.mem_singleton.mp hmem
  closed := nofun
  cause := nofun

/-- The read loop does not begin again. -/
theorem Happens.not_reading (happened : Happens s a s')
    (hover : (readLoop, .reading) ∉ s.tasks) : (readLoop, .reading) ∉ s'.tasks := by
  intro hmem
  cases happened.arises hmem with
  | stays here => exact hover here
  | steps action here step next =>
    rename_i before p
    by_cases hreading : before = .reading
    · exact hover (hreading ▸ here)
    · exact (step.of_not_reading hreading).2.2.2 next
  | left action here leaves mem new => exact leaves.not_reading mem

section Preserved

variable (h : s.Causal lost) (happened : Happens s a s')
  (hlost : ∀ t task, (t, task) ∈ s'.tasks → task.failsHandshake = true → lost)

include h happened hlost

theorem Causal.warranted_happens (hmem : (u, task) ∈ s'.tasks) : task.Warranted lost s'.shared := by
  have still : ∀ {x : Task}, x.Warranted lost s.shared → x.Warranted lost s'.shared := fun hx =>
    hx.mono (fun _ => happened.mem_wire) happened.flowing
  cases happened with
  | nothing | arrive _ | endInput _ | breakOutflow _ | pass _ => exact still (h.warranted u task hmem)
  | call c =>
    rcases List.mem_append.mp hmem with hold | hnew
    · exact still (h.warranted u task hold)
    · cases List.mem_singleton.mp hnew
      trivial
  | turn step moved =>
    rename_i t before p
    rcases moved.mem hmem with ⟨rfl, hnext⟩ | ⟨hnew, -⟩ | ⟨hold, -⟩
    · obtain ⟨holder, hafter⟩ := p.shared.after_eq u p.next
      rw [moved.shared, hafter]
      exact step.warranted (h.warranted u before moved.here) hnext (hlost u task hmem)
    · obtain ⟨r, -, rfl⟩ := List.mem_map.mp hnew
      trivial
    · exact still (h.warranted u task hold)
  | drop leaves moved =>
    rename_i t before rest
    rcases moved.mem hmem with ⟨-, hnone⟩ | ⟨hnew, -⟩ | ⟨hold, -⟩
    · cases hnone
    · exact still (leaves.warranted (h.warranted t before moved.here) hnew (hlost u task hmem))
    · exact still (h.warranted u task hold)
  | await moved | collect _ moved =>
    rcases moved.mem hmem with ⟨-, hnext⟩ | ⟨hnew, -⟩ | ⟨hold, -⟩
    · cases hnext
      try trivial
    · cases hnew
    · exact still (h.warranted u task hold)

omit hlost in
theorem Causal.reader_happens (hmem : (u, .terminating .ended) ∈ s'.tasks) : u = readLoop := by
  cases happened.arises hmem with
  | stays here => exact h.reader u here
  | steps action here step next => exact h.attended.reader u (step.was_reading next ▸ here)
  | left action here leaves mem new =>
    have hafter : ∀ d, Task.terminating .ended ∉ Task.afterWrite d := by
      intro d hd
      rcases Task.mem_afterWrite hd with ⟨w, p, heq, -⟩ | ⟨result, heq, -⟩ <;> cases heq
    cases leaves with
    | writing _ | terminating _ | closing _ =>
      rcases List.mem_cons.mp mem with heq | mem
      · cases heq
      · exact absurd mem (hafter _)
    | waiting | started => cases List.mem_singleton.mp mem
    | called | locking | closingOutflow | finished _ => cases mem

omit hlost in
theorem Causal.closed_happens (hclosed : s'.shared.outflow = .closed) :
    Purpose.exitMessage ∈ s'.shared.wire := by
  refine happened.mem_wire ?_
  rcases happened.outflow with hsame | hbroken | ⟨hflow, t, answer, hmem⟩
  · exact h.closed (hsame.symm.trans hclosed)
  · exact absurd (hbroken.symm.trans hclosed) nofun
  · exact h.warranted t _ hmem hflow

omit hlost in
theorem Causal.stopped_happens (hflow : s'.shared.outflow ≠ .flowing) : s'.Caused lost := by
  cases hout : s'.shared.outflow with
  | flowing => exact absurd hout hflow
  | broken => exact .inr (.inl hout)
  | closed => exact .inl ⟨h.closed_happens happened hout, hout⟩

omit hlost in
/-- A cause stays one, whatever happens. -/
theorem Causal.caused_happens (hcaused : s.Caused lost) : s'.Caused lost := by
  rcases hcaused with ⟨-, hout⟩ | hout | hover | hlost
  · exact h.stopped_happens happened fun hflow => nomatch hout.symm.trans (happened.flowing hflow)
  · exact h.stopped_happens happened fun hflow => nomatch hout.symm.trans (happened.flowing hflow)
  · exact .inr (.inr (.inl (happened.not_reading hover)))
  · exact .inr (.inr (.inr hlost))

omit hlost in
theorem Causal.cause_happens (hphase : s'.shared.lifecycle.phase = .terminated) : s'.Caused lost := by
  have before : s.shared.lifecycle.phase = .terminated → s'.Caused lost := fun hover =>
    h.caused_happens happened (h.cause hover)
  rcases happened.changes with hsame | ⟨t, task, p, rfl, here, step, hsame⟩
  · exact before (hsame.lifecycle ▸ hphase)
  rcases step.terminated_iff.mp (hsame.lifecycle ▸ hphase) with hover | hterminating
  · exact before hover
  · -- the session terminates at one place, and there is known why
    have hwarranted := h.warranted t task here
    cases task with
    | terminating a =>
      cases a with
      | write f d | exit answer =>
        exact h.stopped_happens happened fun hflow => hwarranted (happened.flowing hflow)
      | handshake f | abandoned => exact .inr (.inr (.inr hwarranted))
      | ended =>
        obtain rfl := h.reader t here
        refine .inr (.inr (.inl (happened.not_reading fun hreading => ?_)))
        cases h.attended.named.unique here hreading
    | _ => cases hterminating

theorem Causal.happens : s'.Causal lost where
  attended := h.attended.happens happened
  sealed := h.sealed.happens happened
  warranted _ _ := h.warranted_happens happened hlost
  reader _ := h.reader_happens happened
  closed := h.closed_happens happened
  cause := h.cause_happens happened

end Preserved

/-- In some state of a run it was seen that the handshake fails, or that its caller is gone. -/
def HandshakeLost (s : Session) (actions : List Action) : Prop :=
  ∃ before, before <+: actions ∧ ∃ t task, (t, task) ∈ (s.run before).tasks ∧ task.failsHandshake = true

theorem Causal.run (h : s.Causal lost) (actions : List Action) (hlost : s.HandshakeLost actions → lost) :
    (s.run actions).Causal lost := by
  induction actions generalizing s with
  | nil => exact h
  | cons a rest ih =>
    have hrest : (s.act a).HandshakeLost rest → lost := by
      rintro ⟨before, hprefix, hfails⟩
      exact hlost ⟨a :: before, List.cons_prefix_cons.mpr ⟨rfl, hprefix⟩, hfails⟩
    refine ih (h.happens (h.attended.named.happens_act a) fun t task hmem hfails => ?_) hrest
    exact hrest ⟨[], List.nil_prefix, t, task, hmem, hfails⟩

end Session

end LanguageClient
