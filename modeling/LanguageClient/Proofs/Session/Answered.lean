import LanguageClient.Proofs.Session.Answering
import Mathlib.Algebra.GroupWithZero.Nat

/-!
# LanguageClient.Proofs.Session.Answered -- the responses on the wire

Once the stream has ended, some more turns bring the read loop to its end and all responses onto the wire
(`Attended.serves`), and while no call is going on nothing else is written (`Serving.run`). With the account
of the requests this says what is on the wire: `requests_answered`.
-/

namespace LanguageClient

namespace Task

/-- What goes on when no call does: the read loop and the answering of requests, beside calls that are
over. -/
inductive IsServing : Task → Prop
  | loop {task : Task} (h : task.IsLoop) : IsServing task
  | answering (r : Request) : IsServing (.answering r)
  | writing (r : Response) : IsServing (.writing (.response r) .loose)
  | hanging : IsServing .hanging
  | finished (answer : Except Fault Answer) : IsServing (.finished answer)

theorem IsServing.step {task : Task} (h : task.IsServing) {me : TaskId} {s : Shared} {p : Progress}
    (step : Steps me s task p) (hflow : s.outflow = .flowing) :
    (∀ next, p.next = some next → next.IsServing) ∧
      ∃ responses : List Response, p.shared.wire = s.wire ++ responses.map .response := by
  have quiet : ∀ {s' : Shared}, s'.wire = s.wire →
      ∃ responses : List Response, s'.wire = s.wire ++ responses.map .response :=
    fun hwire => ⟨[], hwire.trans (List.append_nil _).symm⟩
  cases h with
  | loop hloop =>
    refine ⟨fun next hnext => .loop (hloop.next step hnext), ?_⟩
    cases hloop with
    | reading =>
      cases step with
      | readRequest | readResponse | readNotification | readBadResponse | readStray | readEnd =>
        exact quiet rfl
    | terminating | closing =>
      cases step
      exact quiet rfl
  | answering r =>
    cases step with
    | answered _ => exact ⟨fun next hnext => Option.some.inj hnext ▸ .writing _, quiet rfl⟩
    | hung _ => exact ⟨fun next hnext => Option.some.inj hnext ▸ .hanging, quiet rfl⟩
  | writing r =>
    cases step with
    | written => exact ⟨fun _ hnext => (Option.some_ne_none _ hnext.symm).elim, [r], rfl⟩
    | unwritten hbroken => exact absurd hflow hbroken
  | hanging => cases step
  | finished answer => cases step

end Task

namespace Session

variable {s s' : Session} {t : TaskId} {task : Task}

/-! ## All requests come to be answered -/

/-- How much is left to do for the requests of the server. -/
def effort (s : Session) : Nat :=
  (match s.task? readLoop with
    | some .reading => 3 * s.shared.input.length
    | _ => 0) + (s.places.map Task.effort).sum

theorem effort_of_reading (h : s.task? readLoop = some .reading) :
    s.effort = 3 * s.shared.input.length + (s.places.map Task.effort).sum := by
  unfold effort
  rw [h]

theorem effort_of_over (h : s.task? readLoop ≠ some .reading) :
    s.effort = (s.places.map Task.effort).sum := by
  unfold effort
  split
  · next hreading => exact absurd hreading h
  · exact Nat.zero_add _

/-- The read loop is over, and nothing is left to do for the requests of the server. -/
structure Served (s : Session) : Prop where
  loop : s.task? readLoop = none
  aside : ∀ task ∈ s.places, task.IsAside

theorem sum_effort (hs : s.Named) {stay : Option Task} {new : List Task} {shared : Shared}
    (moved : Replaced s t task stay new shared s') : ∃ others,
      (s.places.map Task.effort).sum = task.effort + others ∧
      (s'.places.map Task.effort).sum
        = (stay.map Task.effort).getD 0 + ((new.map Task.effort).sum + others) := by
  obtain ⟨others, hbefore, hafter⟩ := moved.places hs
  refine ⟨(others.map Task.effort).sum, ?_, ?_⟩
  · rw [(hbefore.map Task.effort).sum_nat, List.map_cons, List.sum_cons]
  · rw [(hafter.map Task.effort).sum_nat, List.map_append, List.map_append, List.sum_append_nat,
      List.sum_append_nat]
    cases stay <;> rfl

/-- A turn of a task that has something to do for the requests of the server. -/
theorem Attended.effort_turn (hs : s.Attended) (here : (t, task) ∈ s.tasks) (hpos : 0 < task.effort)
    {cause : Option IoFault} (hended : s.shared.inflow = .ended cause)
    (hflow : s.shared.outflow = .flowing) :
    (s.act (.turn t)).effort < s.effort ∧ (s.act (.turn t)).shared.inflow = .ended cause ∧
      (s.act (.turn t)).shared.outflow = .flowing := by
  have hready : task.isReady s.shared = true := by
    cases task with
    | reading => simp [Task.isReady, Shared.hasInput, hended]
    | called _ | waiting _ _ _ | locking _ | hanging | finished _ => cases hpos
    | _ => rfl
  obtain ⟨p, hstep⟩ := Option.isSome_iff_exists.mp ((Task.isReady_iff t _ _).mp hready)
  have step : task.Steps t s.shared p := .of_step hstep
  have moved := hs.named.replaced_turn here hstep
  generalize s.act (.turn t) = s' at moved
  obtain ⟨holder, hafter⟩ := p.shared.after_eq t p.next
  have hshared : s'.shared = { p.shared with documentsHolder := holder } := moved.shared.trans hafter
  have hplace : s.task? t = some task := hs.named.task?_eq_some_iff.mpr here
  have hself := moved.task?_self hs.named
  have hnew : ((p.asked.toList.map Task.answering).map Task.effort).sum = 2 * p.asked.toList.length := by
    cases p.asked <;> rfl
  have hclosing : ∀ answer, task ≠ .closingOutflow answer := by
    rintro answer rfl
    cases hpos
  have houtflow : s'.shared.outflow = .flowing := by rw [hshared, step.outflow hclosing, hflow]
  obtain ⟨others, hsum, hsum'⟩ := sum_effort hs.named moved
  rw [hnew] at hsum'
  by_cases hreading : task = .reading
  · subst hreading
    obtain rfl := hs.reader t here
    obtain ⟨item, rest, hfound, hinput, hinflow, hasked, hnext⟩ := step.reads
    refine ⟨?_, by rw [hshared, hinflow, hended], houtflow⟩
    rw [effort_of_reading hplace, hsum]
    rw [hnext] at hself hsum'
    cases hfatal : Inbound.isFatal item with
    | false =>
      have hlt := length_next? hfound hfatal
      have hone : p.asked.toList.length ≤ 1 := by cases p.asked <;> simp
      have hrest : s'.shared.input = rest := by rw [hshared, hinput]
      rw [hfatal] at hself hsum'
      rw [effort_of_reading hself, hsum', hrest]
      show 3 * rest.length + (3 + (2 * p.asked.toList.length + others))
        < 3 * s.shared.input.length + (3 + others)
      omega
    | true =>
      have hnone : Inbound.request? item = none := by
        rcases item with f | m
        · rfl
        · cases hfatal
      have hover : s'.task? readLoop ≠ some .reading := by
        simp [hself, hfatal]
      rw [effort_of_over hover, hsum', hfatal, hasked, hnone]
      show 2 + (0 + others) < _ + (3 + others)
      omega
  · obtain ⟨hinput, hinflow, hasked, hnext⟩ := step.of_not_reading hreading
    refine ⟨?_, by rw [hshared, hinflow, hended], houtflow⟩
    have hlt := step.effort_lt hreading hpos hflow
    rw [hasked, Option.toList_none, List.length_nil] at hsum'
    by_cases hplace' : s'.task? readLoop = some .reading
    · -- then the task is another than the read loop, which is where it was
      have ht : readLoop ≠ t := by
        rintro rfl
        exact hnext (hself.symm.trans hplace')
      have hbefore : s.task? readLoop = some .reading :=
        (moved.task?_other hs.named ht hs.named.loop).symm.trans hplace'
      have hinput' : s'.shared.input = s.shared.input := by rw [hshared, hinput]
      rw [effort_of_reading hbefore, effort_of_reading hplace', hinput', hsum, hsum']
      omega
    · have hle : (s.places.map Task.effort).sum ≤ s.effort := Nat.le_add_left _ _
      rw [effort_of_over hplace', hsum']
      omega

/-- Once the stream has ended, some more turns bring it about that all requests are answered. -/
theorem Attended.serves (hs : s.Attended) {cause : Option IoFault}
    (hended : s.shared.inflow = .ended cause) (hflow : s.shared.outflow = .flowing) :
    ∃ turns : List TaskId, (s.run (turns.map .turn)).shared.outflow = .flowing ∧
      (s.run (turns.map .turn)).Served := by
  -- as long as a task has something to do, its turn leaves less to do
  induction hn : s.effort using Nat.strongRecOn generalizing s with
  | ind n ih =>
    by_cases hpos : ∃ t task, (t, task) ∈ s.tasks ∧ 0 < task.effort
    · obtain ⟨t, task, here, hpos⟩ := hpos
      obtain ⟨hlt, hended', hflow'⟩ := hs.effort_turn here hpos hended hflow
      have hs' := hs.happens (hs.named.happens_act (.turn t))
      obtain ⟨turns, hturns⟩ := ih _ (hn ▸ hlt) hs' hended' hflow' rfl
      exact ⟨t :: turns, hturns⟩
    · have hnone : ∀ t task, (t, task) ∈ s.tasks → task.effort = 0 := by
        intro t task here
        exact Nat.eq_zero_of_not_pos fun h => hpos ⟨t, task, here, h⟩
      refine ⟨[], hflow, ?_, ?_⟩
      · cases hplace : s.task? readLoop with
        | none => exact hplace
        | some task =>
          have here := hs.named.task?_eq_some_iff.mp hplace
          exact absurd (hnone _ _ here) (Nat.ne_of_gt (hs.loop task here).effort_pos)
      · intro task hmem
        obtain ⟨⟨t, task⟩, here, rfl⟩ := List.mem_map.mp hmem
        exact Task.aside_of_effort (hnone t task here)

/-! ## Nothing but responses is written while no call goes on -/

/-- No call goes on. -/
def Serving (s : Session) : Prop := ∀ t task, (t, task) ∈ s.tasks → task.IsServing

theorem Serving.act (h : s.Serving) (hs : s.Named) {a : Action} (ha : a.IsInbound)
    (hflow : (s.act a).shared.outflow = .flowing) : (s.act a).Serving ∧
      ∃ responses : List Response, (s.act a).shared.wire = s.shared.wire ++ responses.map .response := by
  have happened := hs.happens_act a
  generalize s.act a = s' at happened hflow
  have hbefore := happened.flowing hflow
  constructor
  · intro t task hmem
    cases happened.arises hmem with
    | stays here => exact h t task here
    | steps action here step next => exact ((h _ _ here).step step hbefore).1 task next
    | asked => exact .answering _
    | called action | left action | awaited action =>
      subst action
      exact ha.elim
  · cases happened with
    | turn step moved =>
      rename_i t before p
      obtain ⟨holder, hafter⟩ := p.shared.after_eq t p.next
      rw [moved.shared, hafter]
      exact ((h _ _ moved.here).step step hbefore).2
    | nothing | arrive _ | endInput _ | breakOutflow _ | pass _ => exact ⟨[], (List.append_nil _).symm⟩
    | call _ | drop _ _ | await _ | collect _ _ => exact ha.elim

theorem Serving.run (h : s.Serving) (hs : s.Named) {actions : List Action}
    (hactions : ∀ a ∈ actions, a.IsInbound) (hflow : (s.run actions).shared.outflow = .flowing) :
    ∃ responses : List Response,
      (s.run actions).shared.wire = s.shared.wire ++ responses.map .response := by
  induction actions generalizing s with
  | nil => exact ⟨[], (List.append_nil _).symm⟩
  | cons a rest ih =>
    have ha : a.IsInbound := hactions a List.mem_cons_self
    obtain ⟨h', first, hfirst⟩ := h.act hs ha (flowing_run (hs.act a) hflow)
    obtain ⟨more, hmore⟩ := ih h' (hs.act a) (fun b hb => hactions b (List.mem_cons_of_mem _ hb)) hflow
    refine ⟨first ++ more, ?_⟩
    rw [List.map_append, ← List.append_assoc, ← hfirst]
    exact hmore

/-! ## Every request is answered once -/

/-- What becomes of the requests of the server in a run. -/
structure RequestsAnswered (options : SessionOptions) (actions : List Action) : Prop where
  /-- At any time every request of the stream is handled once, about to be, or still to be read, and the
  responses on the wire, with those about to be written, are the ones due to the handled requests. -/
  accounted : ∃ log, ((create options).run actions).Account options.handlers []
    (Inbound.requests ((create options).inbound actions)) log
  /-- When the read loop is over and nothing is left to do, the responses on the wire are, but for their
  order, the ones due to the requests that came before the end of the stream. -/
  answered : ((create options).run actions).Served → ∃ log : List Exchange,
    (∀ e ∈ log, e.IsDue options.handlers) ∧
    (log.map (·.request)).Perm (Inbound.requests ((create options).inbound actions)) ∧
    (((create options).run actions).shared.wire.filterMap Message.response?).Perm
      (log.filterMap (·.response))
  /-- Once the stream has ended, some more turns bring that about. -/
  serves : (∃ cause, .endInput cause ∈ actions) → ∃ turns : List TaskId,
    ((create options).run (actions ++ turns.map .turn)).shared.outflow = .flowing ∧
      ((create options).run (actions ++ turns.map .turn)).Served
  /-- While no call goes on, nothing but responses is written, whatever comes in. -/
  only : ∀ before later, actions = before ++ later → (∀ a ∈ later, a.IsInbound) →
    ((create options).run before).Serving → ∃ responses : List Response,
      ((create options).run actions).shared.wire
        = ((create options).run before).shared.wire ++ responses.map .response

theorem inflow_act (hs : s.Attended) (a : Action) {cause : Option IoFault}
    (hended : s.shared.inflow = .ended cause) : (s.act a).shared.inflow = .ended cause := by
  have happened := hs.named.happens_act a
  generalize s.act a = s' at happened
  cases happened with
  | nothing | call _ | breakOutflow _ | pass _ => exact hended
  | arrive hflowing | endInput hflowing =>
    rw [hended] at hflowing
    cases hflowing
  | turn step moved =>
    rename_i t task p
    obtain ⟨holder, hafter⟩ := p.shared.after_eq t p.next
    rw [moved.shared, hafter]
    by_cases hreading : task = .reading
    · subst hreading
      obtain ⟨item, rest, -, -, hinflow, -⟩ := step.reads
      exact hinflow.trans hended
    · exact (step.of_not_reading hreading).2.1.trans hended
  | drop leaves moved =>
    rename_i t task rest
    obtain ⟨holder, hafter⟩ := s.shared.after_eq t none
    rw [moved.shared, hafter]
    exact hended
  | await moved | collect _ moved =>
    rw [moved.shared]
    exact hended

/-- A run in which the stream ends leaves it so. -/
theorem inflow_run (hs : s.Attended) {actions : List Action}
    (hend : (∃ cause, s.shared.inflow = .ended cause) ∨ ∃ cause, .endInput cause ∈ actions) :
    ∃ cause, (s.run actions).shared.inflow = .ended cause := by
  induction actions generalizing s with
  | nil =>
    rcases hend with hended | ⟨cause, hmem⟩
    · exact hended
    · cases hmem
  | cons a rest ih =>
    refine ih (hs.happens (hs.named.happens_act a)) ?_
    rcases hend with ⟨cause, hended⟩ | ⟨cause, hmem⟩
    · exact .inl ⟨cause, inflow_act hs a hended⟩
    · rcases List.mem_cons.mp hmem with rfl | hmem
      · left
        cases hinflow : s.shared.inflow with
        | flowing => exact ⟨cause, by simp [act, hinflow]⟩
        | ended f => exact ⟨f, by simp [act, hinflow]⟩
      · exact .inr ⟨cause, hmem⟩

/-- **Every request of the server is answered once**, in whatever order the tasks take their turns. -/
theorem requests_answered (options : SessionOptions) (actions : List Action)
    (hflow : ((create options).run actions).shared.outflow = .flowing) :
    RequestsAnswered options actions := by
  have hs := (attended_create options).run actions
  obtain ⟨log, hlog⟩ := (account_create options actions).run (attended_create options) hflow
  exact {
    accounted := ⟨log, hlog⟩
    answered := by
      intro hserved
      have hrequest : ((create options).run actions).places.filterMap Task.request? = [] :=
        List.filterMap_eq_nil_iff.mpr fun task hmem => (hserved.aside task hmem).1
      have hresponse : ((create options).run actions).places.filterMap Task.response? = [] :=
        List.filterMap_eq_nil_iff.mpr fun task hmem => (hserved.aside task hmem).2
      have hover : ((create options).run actions).task? readLoop ≠ some .reading := by
        rw [hserved.loop]
        exact (Option.some_ne_none _).symm
      have hrequests := hlog.requests
      have hresponses := hlog.responses
      rw [hrequest, unread_of_over hover, List.append_nil, List.append_nil] at hrequests
      rw [hresponse, List.append_nil] at hresponses
      exact ⟨log, hlog.due, hrequests.symm, hresponses⟩
    serves := by
      intro hend
      obtain ⟨cause, hended⟩ := inflow_run (attended_create options) (.inr hend)
      obtain ⟨turns, hturns⟩ := hs.serves hended hflow
      rw [← run_append] at hturns
      exact ⟨turns, hturns⟩
    only := by
      rintro before later rfl hlater hserving
      rw [run_append] at hflow ⊢
      exact hserving.run ((named_create options).run before) hlater hflow }

/-! ### Three requests under one id -/

/-- Handlers of which one answers and one gives up; a third method has only a handler of notifications. -/
def threeHandlers : HandlerRegistry :=
  ⟨.ofList [("boom", .request fun _ _ => { ending := .panicked }),
    ("note", .notifications [fun _ _ => {}]),
    ("sum", .request fun _ _ => { ending := .answered (.ok (.int 42)) })]⟩

/-- Three requests come under the same id, with a notification between them, and are handled in another
order than they came. -/
def threeRequests : List Action :=
  let request (method : String) := Message.request { id := .number 7, method }
  let messages := [request "boom", .notification { method := "note" }, request "note", request "sum"]
  .arrive (Sink.framesBytes (messages.map Message.encode)) :: .endInput none ::
    ([0, 0, 0, 0, 3, 0, 1, 2, 0, 2, 3, 1, 0].map .turn)

/-- Each gets the answer that is due to it. -/
theorem requests_answered_three :
    ((create { handlers := threeHandlers }).run threeRequests).shared.wire.map Message.response?
        = [some (.failure (some (.number 7)) (.methodNotFound "Unhandled method note")),
          some (.success (.number 7) (.int 42)),
          some (.failure (some (.number 7)) (.internalError "Handler for boom panicked"))] ∧
      RequestsAnswered { handlers := threeHandlers } threeRequests :=
  ⟨by decide +kernel, requests_answered _ _ (by decide +kernel)⟩

end Session

end LanguageClient
