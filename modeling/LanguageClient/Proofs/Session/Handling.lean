import LanguageClient.Proofs.Session.Reading

/-!
# LanguageClient.Proofs.Session.Handling -- calls of handlers of notifications

When the read loop takes a notification off the stream, it calls every handler of its method in the order of
their registration, and does nothing else (`Handles`). What the handlers do has no part in it: one that gives
up does not keep the others, or what comes later, from being handled. So the calls that are made in a run can
be read off the stream (`handles_in_order`).
-/

namespace LanguageClient

/-! ## Which handlers are called -/

/-- Which handler of notifications is called, and with what params. -/
structure Invocation where
  method : String
  place : Nat
  params : Option Json
  deriving DecidableEq

/-- The call of a handler, if it is one of notifications. -/
def HandlerCall.invocation? (c : HandlerCall) : Option Invocation :=
  c.place.map fun place => { method := c.method, place, params := c.params }

namespace HandlerRegistry

/-- Every handler of the method of a notification, in the order of their registration, with its params. -/
def invocations (registry : HandlerRegistry) (n : Notification) : List Invocation :=
  (registry.notificationHandlers n.method).mapIdx fun place _ =>
    { method := n.method, place, params := n.params }

/-- The calls of these handlers, and what they make visible, after so many calls of handlers. -/
def callsFor (registry : HandlerRegistry) (n : Notification) (turn : Nat) : List HandlerCall :=
  (registry.notificationHandlers n.method).mapIdx fun place handler =>
    .ofNotification n place (handler (turn + place) n.params)

/-- A call of a handler of notifications is one of the handler at its place, with its params, and of no
other; it is told how many calls came before. -/
def Explains (registry : HandlerRegistry) (handled : List HandlerCall) : Prop :=
  ∀ (turn : Nat) (call : HandlerCall) (place : Nat), handled[turn]? = some call → call.place = some place →
    ∃ handler, (registry.notificationHandlers call.method)[place]? = some handler ∧
      call.events = (handler turn call.params).events ∧ call.panicked = (handler turn call.params).panicked

variable {registry : HandlerRegistry} {handled calls : List HandlerCall}

theorem invocations_callsFor (registry : HandlerRegistry) (n : Notification) (turn : Nat) :
    (registry.callsFor n turn).filterMap HandlerCall.invocation? = registry.invocations n := by
  unfold callsFor invocations
  rw [List.mapIdx_eq_zipIdx_map, List.mapIdx_eq_zipIdx_map, List.filterMap_map]
  exact congrFun List.filterMap_eq_map _

/-- The handlers of notifications of a method are those that are registered under it. -/
theorem notificationHandlers_of_bound {method : String} {handlers : List NotificationHandler}
    (h : registry.get? method = some (.notifications handlers)) :
    registry.notificationHandlers method = handlers := by
  simp only [notificationHandlers, h]

theorem callsFor_of_bound {n : Notification} {handlers : List NotificationHandler}
    (h : registry.get? n.method = some (.notifications handlers)) (turn : Nat) :
    registry.callsFor n turn = handlers.mapIdx fun place handler =>
      .ofNotification n place (handler (turn + place) n.params) := by
  rw [callsFor, notificationHandlers_of_bound h]

theorem invocations_of_unbound {n : Notification}
    (h : ∀ handlers, registry.get? n.method ≠ some (.notifications handlers)) :
    registry.invocations n = [] := by
  have hnone : registry.notificationHandlers n.method = [] := by
    unfold notificationHandlers
    split
    · next handlers hget => exact absurd hget (h handlers)
    · rfl
  rw [invocations, hnone, List.mapIdx_nil]

theorem explains_append (h : registry.Explains handled)
    (hcalls : ∀ (turn : Nat) (call : HandlerCall) (place : Nat),
      calls[turn]? = some call → call.place = some place →
      ∃ handler, (registry.notificationHandlers call.method)[place]? = some handler ∧
        call.events = (handler (handled.length + turn) call.params).events ∧
        call.panicked = (handler (handled.length + turn) call.params).panicked) :
    registry.Explains (handled ++ calls) := by
  intro turn call place hcall hplace
  by_cases hturn : turn < handled.length
  · rw [List.getElem?_append_left hturn] at hcall
    exact h turn call place hcall hplace
  · have hle : handled.length ≤ turn := Nat.le_of_not_lt hturn
    rw [List.getElem?_append_right hle] at hcall
    obtain ⟨handler, hhandler, hreaction⟩ := hcalls _ call place hcall hplace
    rw [Nat.add_sub_cancel' hle] at hreaction
    exact ⟨handler, hhandler, hreaction⟩

theorem Explains.callsFor (h : registry.Explains handled) (n : Notification) :
    registry.Explains (handled ++ registry.callsFor n handled.length) := by
  apply explains_append h
  intro turn call place hcall hplace
  rw [HandlerRegistry.callsFor, List.getElem?_mapIdx, Option.map_eq_some_iff] at hcall
  obtain ⟨handler, hhandler, rfl⟩ := hcall
  obtain rfl := Option.some.inj hplace
  exact ⟨handler, hhandler, rfl, rfl⟩

theorem Explains.requests (h : registry.Explains handled) (hcalls : ∀ call ∈ calls, call.place = none) :
    registry.Explains (handled ++ calls) := by
  apply explains_append h
  intro turn call place hcall hplace
  rw [hcalls call (List.mem_of_getElem? hcall)] at hplace
  cases hplace

end HandlerRegistry

/-- Calls of handlers of requests are no calls of handlers of notifications. -/
theorem HandlerCall.invocations_of_requests {calls : List HandlerCall}
    (h : ∀ call ∈ calls, call.place = none) : calls.filterMap invocation? = [] := by
  apply List.filterMap_eq_nil_iff.mpr
  intro call hcall
  rw [invocation?, h call hcall, Option.map_none]

/-! ## What is read -/

namespace Inbound

/-- The notification that an item is, if it is one. -/
def notification? : Except Fault Message → Option Notification
  | .ok (.notification n) => some n
  | _ => none

/-- The notifications among some items, up to the first item that ends the connection. -/
def notifications (found : List (Except Fault Message)) : List Notification :=
  (found.takeWhile fun item => !isFatal item).filterMap notification?

theorem notifications_cons {item : Except Fault Message} (h : isFatal item = false)
    (found : List (Except Fault Message)) :
    notifications (item :: found) = (notification? item).toList ++ notifications found := by
  unfold notifications
  rw [List.takeWhile_cons_of_pos (by rw [h]; rfl)]
  exact Session.filterMap_cons_toList notification? item _

theorem notifications_of_fatal {item : Except Fault Message} (h : isFatal item = true)
    (found : List (Except Fault Message)) : notifications (item :: found) = [] := by
  unfold notifications
  rw [List.takeWhile_cons_of_neg (by rw [h]; exact Bool.false_ne_true)]
  rfl

theorem notification?_of_fatal {item : Except Fault Message} (h : isFatal item = true) :
    notification? item = none := by
  rcases item with f | m
  · rfl
  · cases h

end Inbound

/-! ## What a step does -/

/-- What is shared after a notification was read and handled. -/
def Shared.heard (s : Shared) (n : Notification) (left : List UInt8) : Shared :=
  { s with
    input := left
    handled := s.handled ++ s.options.handlers.callsFor n s.handled.length }

theorem Shared.invocations_heard (s : Shared) (n : Notification) (left : List UInt8) :
    (s.heard n left).handled.filterMap HandlerCall.invocation?
      = s.handled.filterMap HandlerCall.invocation? ++ s.options.handlers.invocations n := by
  rw [heard, List.filterMap_append, HandlerRegistry.invocations_callsFor]

theorem Shared.answer_calls {s s' : Shared} {r : Request} {response : Option Response}
    (h : s.answer r = (response, s')) :
    ∃ calls, s'.handled = s.handled ++ calls ∧ ∀ call ∈ calls, call.place = none := by
  unfold Shared.answer Shared.callHandler at h
  split at h
  · cases h
    exact ⟨[], (List.append_nil _).symm, fun _ hcall => absurd hcall List.not_mem_nil⟩
  · simp only at h
    split at h <;> cases h <;>
      exact ⟨[_], rfl, fun _ hcall => by rw [List.mem_singleton.mp hcall]⟩

namespace Task

variable {me : TaskId} {s : Shared} {task : Task} {p : Progress}

/-- A step reads a notification and calls its handlers, or calls no handler of notifications. -/
theorem Steps.handles (h : Steps me s task p) :
    (∃ n left, task = .reading ∧ s.next? = some (.ok (.notification n), left) ∧
      p = ⟨s.heard n left, some .reading, none⟩) ∨
    (task = .reading → ∀ n left, s.next? ≠ some (.ok (.notification n), left)) ∧
      p.shared.options = s.options ∧
      ∃ calls, p.shared.handled = s.handled ++ calls ∧ ∀ call ∈ calls, call.place = none := by
  have silent : ∀ {s' : Shared}, s'.handled = s.handled →
      ∃ calls, s'.handled = s.handled ++ calls ∧ ∀ call ∈ calls, call.place = none := by
    intro s' heq
    exact ⟨[], by rw [heq, List.append_nil], fun _ hcall => absurd hcall List.not_mem_nil⟩
  have other : ∀ {item : Except Fault Message} {rest : List UInt8}, s.next? = some (item, rest) →
      Inbound.notification? item = none → ∀ n left, s.next? ≠ some (.ok (.notification n), left) := by
    intro item rest hfound hnone n left heq
    rw [hfound] at heq
    rw [(Prod.mk.inj (Option.some.inj heq)).1] at hnone
    cases hnone
  cases h with
  | readNotification hfound hcalls =>
    rename_i n left calls
    left
    rw [Shared.callHandlers_eq] at hcalls
    refine ⟨n, left, rfl, hfound, ?_⟩
    rw [← hcalls]
    simp only [Nat.zero_add]
    rfl
  | readRequest hfound | readResponse hfound => exact .inr ⟨fun _ => other hfound rfl, rfl, silent rfl⟩
  | readBadResponse hfound | readStray hfound | readEnd hfound _ =>
    exact .inr ⟨fun _ => other hfound rfl, rfl, silent rfl⟩
  | answered hanswer | hung hanswer => exact .inr ⟨nofun, rfl, Shared.answer_calls hanswer⟩
  | _ => exact .inr ⟨nofun, rfl, silent rfl⟩

end Task

namespace Session

variable {s s' : Session} {a : Action}

/-- What an action has to do with handlers of notifications: the read loop takes a notification off the
stream and calls its handlers, and nothing else changes; or none is called. -/
inductive Handles (s : Session) (a : Action) (s' : Session) : Prop
  | notification {n : Notification} {left : List UInt8}
      (took : s.took? a = some (.ok (.notification n), left))
      (after : s' = { s with shared := s.shared.heard n left })
  | other {calls : List HandlerCall} (took : ∀ n left, s.took? a ≠ some (.ok (.notification n), left))
      (options : s'.shared.options = s.shared.options)
      (handled : s'.shared.handled = s.shared.handled ++ calls)
      (requests : ∀ call ∈ calls, call.place = none)

/-- Nothing is handled. -/
theorem Handles.silent (took : ∀ n left, s.took? a ≠ some (.ok (.notification n), left))
    (options : s'.shared.options = s.shared.options) (handled : s'.shared.handled = s.shared.handled) :
    Handles s a s' := by
  apply @Handles.other s a s' [] took options
  · rw [handled, List.append_nil]
  · exact fun _ hcall => absurd hcall List.not_mem_nil

theorem Attended.handles (hs : s.Attended) (a : Action) : Handles s a (s.act a) := by
  have happened := hs.named.happens_act a
  have after : ∀ (shared : Shared) (t : TaskId) (next : Option Task),
      (shared.after t next).options = shared.options ∧ (shared.after t next).handled = shared.handled := by
    intro shared t next
    obtain ⟨holder, hafter⟩ := shared.after_eq t next
    rw [hafter]
    exact ⟨rfl, rfl⟩
  have untaken : s.took? a = none → ∀ n left, s.took? a ≠ some (.ok (.notification n), left) := by
    intro hnone n left htook
    rw [hnone] at htook
    cases htook
  cases a with
  | turn t =>
    cases htask : s.task? t with
    | none =>
      have hact : s.act (.turn t) = s := by simp [Session.act, step?, htask]
      have huntaken : s.took? (.turn t) = none := by
        refine took?_of_not_reading ?_
        rw [htask]
        exact (Option.some_ne_none _).symm
      rw [hact]
      exact .silent (untaken huntaken) rfl rfl
    | some task =>
      cases hstep : task.step t s.shared with
      | none =>
        have hact : s.act (.turn t) = s := by simp [Session.act, step?, htask, hstep]
        rw [hact]
        refine .silent ?_ rfl rfl
        intro n left htook
        obtain rfl := Action.turn.inj (hs.takes htook).1
        have huntaken := (hs.idle (hs.named.task?_eq_some_iff.mp htask) hstep).2.1
        rw [htook] at huntaken
        cases huntaken
      | some p =>
        rcases (Task.Steps.of_step hstep).handles with
          ⟨n, left, rfl, hfound, rfl⟩ | ⟨hother, hoptions, calls, hhandled, hrequests⟩
        · refine .notification ((took?_of_reading htask).trans hfound) ?_
          have hreplace := hs.named.replace_self htask
          simp only [Session.act, step?, htask, hstep, Option.getD_some, release, Option.all_some, Task.isOver,
            Bool.false_eq_true, if_false]
          exact congrArg (fun u : Session => ({ u with shared := _ } : Session)) hreplace
        · have moved := hs.named.replaced_turn (hs.named.task?_eq_some_iff.mp htask) hstep
          obtain ⟨hsame, hsame'⟩ := after p.shared t p.next
          refine .other ?_ ?_ ?_ hrequests
          · intro n left htook
            by_cases hreading : task = .reading
            · rw [took?_of_reading (htask.trans (congrArg some hreading))] at htook
              exact hother hreading n left htook
            · rw [took?_of_not_reading] at htook
              · cases htook
              · rw [htask]
                exact fun heq => hreading (Option.some.inj heq)
          · rw [moved.shared, hsame, hoptions]
          · rw [moved.shared, hsame', hhandled]
  | call c => exact .silent (untaken rfl) rfl rfl
  | drop t =>
    generalize s.act (.drop t) = s' at happened
    cases happened with
    | nothing => exact .silent (untaken rfl) rfl rfl
    | drop leaves moved =>
      obtain ⟨hsame, hsame'⟩ := after s.shared t none
      exact .silent (untaken rfl) (moved.shared ▸ hsame) (moved.shared ▸ hsame')
  | await t =>
    generalize s.act (.await t) = s' at happened
    cases happened with
    | nothing => exact .silent (untaken rfl) rfl rfl
    | await moved => exact .silent (untaken rfl) (moved.shared ▸ rfl) (moved.shared ▸ rfl)
  | collect t =>
    generalize s.act (.collect t) = s' at happened
    cases happened with
    | nothing => exact .silent (untaken rfl) rfl rfl
    | collect _ moved => exact .silent (untaken rfl) (moved.shared ▸ rfl) (moved.shared ▸ rfl)
  | arrive bytes =>
    generalize s.act (.arrive bytes) = s' at happened
    cases happened <;> exact .silent (untaken rfl) rfl rfl
  | endInput cause =>
    generalize s.act (.endInput cause) = s' at happened
    cases happened <;> exact .silent (untaken rfl) rfl rfl
  | breakOutflow =>
    generalize s.act .breakOutflow = s' at happened
    cases happened <;> exact .silent (untaken rfl) rfl rfl
  | pass ms => exact .silent (untaken rfl) rfl rfl

/-! ## Runs -/

/-- The notifications that are still to be read. -/
def unheard (s : Session) : List Notification :=
  match s.task? readLoop with
  | some .reading => Inbound.notifications (s.inbound [])
  | _ => []

theorem unheard_of_reading (h : s.task? readLoop = some .reading) :
    s.unheard = Inbound.notifications (s.inbound []) := by
  unfold unheard
  rw [h]

theorem unheard_of_not_reading (h : s.task? readLoop ≠ some .reading) : s.unheard = [] := by
  unfold unheard
  split
  · next hreading => exact absurd hreading h
  · rfl

/-- The notifications of the stream are those that are read and those that are still to be read. -/
theorem Attended.notifications_eq (hs : s.Attended) (hplace : s.task? readLoop = some .reading)
    (actions : List Action) : Inbound.notifications (s.inbound actions)
      = (s.taken actions).filterMap Inbound.notification? ++ (s.run actions).unheard := by
  induction actions generalizing s with
  | nil => exact (unheard_of_reading hplace).symm
  | cons a rest ih =>
    cases htook : s.took? a with
    | none =>
      obtain ⟨hleaves, hreading⟩ := hs.untaken htook
      have hinbound : (s.act a).inbound rest = s.inbound (a :: rest) := by
        show Inbound.items _ ((s.act a).stream rest) = Inbound.items _ (s.stream (a :: rest))
        rw [hleaves.stream, hleaves.failure]
      rw [taken_cons_of_untaken htook, ← hinbound]
      exact ih (hs.act a) (hreading.mpr hplace)
    | some found =>
      obtain ⟨item, left⟩ := found
      obtain ⟨rfl, htakes⟩ := hs.takes htook
      rw [taken_cons_of_took htook, filterMap_cons_toList, List.append_assoc]
      cases hfatal : Inbound.isFatal item with
      | false =>
        have hnext : (s.act (.turn readLoop)).task? readLoop = some .reading := by
          rw [htakes.next, hfatal]
          rfl
        have hinbound := inbound_read htakes.found hfatal htakes.input htakes.inflow rest
        show Inbound.notifications (s.inbound rest) = _
        rw [hinbound, Inbound.notifications_cons hfatal, ih (hs.act _) hnext]
        rfl
      | true =>
        obtain ⟨tail, htail⟩ := Inbound.items_head (read_of_next? htakes.found rest)
        obtain ⟨htaken, -, hstopped⟩ := (hs.act _).nothing_taken (htakes.stops hfatal) rest
        have hrun : s.run (.turn readLoop :: rest) = (s.act (.turn readLoop)).run rest := rfl
        show Inbound.notifications (s.inbound rest) = _
        unfold inbound
        rw [htail, Inbound.notifications_of_fatal hfatal, Inbound.notification?_of_fatal hfatal, htaken,
          hrun, unheard_of_not_reading hstopped]
        rfl

/-- What is handled in a run: the handlers of every notification that is read are called. -/
theorem Attended.handled_run (hs : s.Attended) (actions : List Action) :
    (s.run actions).shared.options = s.shared.options ∧
    (s.run actions).shared.handled.filterMap HandlerCall.invocation?
      = s.shared.handled.filterMap HandlerCall.invocation? ++
        ((s.taken actions).filterMap Inbound.notification?).flatMap s.shared.options.handlers.invocations ∧
    (s.shared.options.handlers.Explains s.shared.handled →
      s.shared.options.handlers.Explains (s.run actions).shared.handled) := by
  induction actions generalizing s with
  | nil => exact ⟨rfl, (List.append_nil _).symm, id⟩
  | cons a rest ih =>
    obtain ⟨hoptions, hhandled, hexplains⟩ := ih (hs.act a)
    have hrun : s.run (a :: rest) = (s.act a).run rest := rfl
    have hhandles := hs.handles a
    rw [hrun, taken, List.filterMap_append, List.flatMap_append]
    cases hhandles with
    | notification took after =>
      rename_i n left
      have hshared : (s.act a).shared = s.shared.heard n left := by rw [after]
      have hsame : (s.act a).shared.options = s.shared.options := by
        rw [hshared]
        rfl
      have hnotified : (((s.took? a).map (·.1)).toList.filterMap Inbound.notification?) = [n] := by
        rw [took]
        rfl
      rw [hsame] at hoptions hhandled hexplains
      refine ⟨hoptions, ?_, fun hexplained => hexplains ?_⟩
      · rw [hhandled, hshared, Shared.invocations_heard, hnotified, List.append_assoc, List.flatMap_cons,
          List.flatMap_nil, List.append_nil]
      · rw [hshared]
        exact hexplained.callsFor n
    | @other calls took options handled requests =>
      have hnotified : (((s.took? a).map (·.1)).toList.filterMap Inbound.notification?) = [] := by
        cases htook : s.took? a with
        | none => rfl
        | some found =>
          obtain ⟨item, left⟩ := found
          cases hitem : Inbound.notification? item with
          | none => simp [hitem]
          | some n =>
            unfold Inbound.notification? at hitem
            split at hitem
            · exact absurd htook (took _ _)
            · cases hitem
      rw [options] at hoptions hhandled hexplains
      refine ⟨hoptions, ?_, fun hexplained => hexplains ?_⟩
      · rw [hhandled, handled, List.filterMap_append, HandlerCall.invocations_of_requests requests, hnotified,
          List.append_nil, List.flatMap_nil, List.nil_append]
      · rw [handled]
        exact hexplained.requests requests

/-- What is handled in a session, whatever its handlers do. -/
structure HandlesInOrder (options : SessionOptions) (actions : List Action) : Prop where
  /-- The calls of handlers of notifications: for each notification that is read, one of every handler of its
  method, in the order of their registration. -/
  invoked : ((create options).run actions).shared.handled.filterMap HandlerCall.invocation?
    = (((create options).taken actions).filterMap Inbound.notification?).flatMap
      options.handlers.invocations
  /-- The notifications are read as they arrive, up to the end of the connection; those that are not read are
  at hand while the loop reads. -/
  arrival : Inbound.notifications ((create options).inbound actions)
    = ((create options).taken actions).filterMap Inbound.notification?
      ++ ((create options).run actions).unheard
  /-- So when the loop has stopped, the handlers of every notification before the end were called. -/
  complete : ((create options).run actions).task? readLoop ≠ some .reading →
    ((create options).run actions).shared.handled.filterMap HandlerCall.invocation?
      = (Inbound.notifications ((create options).inbound actions)).flatMap options.handlers.invocations
  /-- Every call is one of the handler that it stands for. -/
  explained : options.handlers.Explains ((create options).run actions).shared.handled
  /-- A turn in which a notification is read calls all of its handlers and does nothing else: the loop goes
  on, and the phase, the table and all that goes on in the session stay as they are. -/
  contained : ∀ before later n left, actions = before ++ .turn readLoop :: later →
    ((create options).run before).took? (.turn readLoop) = some (.ok (.notification n), left) →
    ((create options).run before).task? readLoop = some .reading ∧
    (create options).run (before ++ [.turn readLoop])
      = { (create options).run before with shared := ((create options).run before).shared.heard n left }
  /-- In that turn each handler that is registered for the method is called once, in the order of their
  registration, with the params of the notification. -/
  called : ∀ before later n left handlers, actions = before ++ .turn readLoop :: later →
    ((create options).run before).took? (.turn readLoop) = some (.ok (.notification n), left) →
    options.handlers.get? n.method = some (.notifications handlers) →
    let turn := ((create options).run before).shared.handled.length
    ((create options).run (before ++ [.turn readLoop])).shared.handled
      = ((create options).run before).shared.handled ++ handlers.mapIdx fun place handler =>
        .ofNotification n place (handler (turn + place) n.params)
  /-- Nothing else calls such a handler, a notification without them as little as a request or a response. -/
  silent : ∀ before a later, actions = before ++ a :: later →
    (∀ n left handlers, ((create options).run before).took? a = some (.ok (.notification n), left) →
      options.handlers.get? n.method ≠ some (.notifications handlers)) →
    ((create options).run (before ++ [a])).shared.handled.filterMap HandlerCall.invocation?
      = ((create options).run before).shared.handled.filterMap HandlerCall.invocation?

/-- **Handlers of notifications are called in order, each once, whatever they do.** -/
theorem handles_in_order (options : SessionOptions) (actions : List Action) :
    HandlesInOrder options actions := by
  have hs := attended_create options
  have hinvoked : ∀ done : List Action,
      ((create options).run done).shared.handled.filterMap HandlerCall.invocation?
        = (((create options).taken done).filterMap Inbound.notification?).flatMap
          options.handlers.invocations := fun done => (hs.handled_run done).2.1
  have harrival := hs.notifications_eq rfl actions
  have hlast : ∀ (before : List Action) (a : Action), (create options).run (before ++ [a])
      = ((create options).run before).act a := fun before a => run_append _ before [a]
  have hoptions : ∀ done : List Action, ((create options).run done).shared.options = options :=
    fun done => (hs.handled_run done).1
  have hcontained : ∀ before n left,
      ((create options).run before).took? (.turn readLoop) = some (.ok (.notification n), left) →
      ((create options).run before).task? readLoop = some .reading ∧
      (create options).run (before ++ [.turn readLoop])
        = { (create options).run before with shared := ((create options).run before).shared.heard n left } := by
    intro before n left htook
    have hhandles := (hs.run before).handles (.turn readLoop)
    refine ⟨((hs.run before).takes htook).2.place, ?_⟩
    rw [hlast]
    cases hhandles with
    | other took => exact absurd htook (took n left)
    | notification took after =>
      rw [htook] at took
      cases took
      exact after
  exact {
    invoked := hinvoked actions
    arrival := harrival
    complete := by
      intro hstopped
      rw [harrival, unheard_of_not_reading hstopped, List.append_nil]
      exact hinvoked actions
    explained := (hs.handled_run actions).2.2 fun _ _ _ hcall => nomatch hcall
    contained := fun before later n left _ htook => hcontained before n left htook
    called := by
      intro before later n left handlers _ htook hbound
      rw [(hcontained before n left htook).2]
      show _ ++ ((create options).run before).shared.options.handlers.callsFor n _ = _
      rw [hoptions, HandlerRegistry.callsFor_of_bound hbound]
    silent := by
      intro before a later _ hunbound
      have hhandles := (hs.run before).handles a
      rw [hlast]
      cases hhandles with
      | other took _ handled requests =>
        rw [handled, List.filterMap_append, HandlerCall.invocations_of_requests requests, List.append_nil]
      | notification took after =>
        rw [after]
        show (Shared.heard _ _ _).handled.filterMap _ = _
        rw [Shared.invocations_heard, hoptions,
          HandlerRegistry.invocations_of_unbound fun handlers => hunbound _ _ handlers took, List.append_nil] }

/-- The first of two handlers gives up, and the second is called all the same; the loop goes on. -/
example :
    let handlers : HandlerRegistry :=
      ⟨.ofList [("note", .notifications [fun _ _ => { panicked := true }, fun _ _ => {}])]⟩
    let message := Message.notification { method := "note", params := some .null }
    let after := (create { handlers }).run [.arrive (Sink.framesBytes [message.encode]), .turn readLoop]
    after.shared.handled.map (·.place) = [some 0, some 1] ∧ after.isReading = true := by
  decide +kernel

end Session

end LanguageClient
