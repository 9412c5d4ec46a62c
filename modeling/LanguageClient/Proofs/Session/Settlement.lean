import LanguageClient.Proofs.Session.Requests

/-!
# LanguageClient.Proofs.Session.Settlement -- no waiter is lost

The end of a session races with the calls that are on their way: one may take its id before the phase is
`terminated` and enter the table after, or find it closed, or fail to write. `Settlement` says what becomes of
them in every run: a closed table has fulfilled every waiter that a task has, a request is written only after
it has entered, one that could not be written is taken out again, and ids do not collide.
-/

namespace LanguageClient

/-! ## Requests that could not be written -/

namespace Task

/-- The request of a waiter could not be written, or its caller is gone, and it is still to be taken out. -/
inductive Withdraws (w : Waiter) : Task → Prop
  | terminating (f : Fault) (p : Purpose) : Withdraws w (.terminating (.write f (.request w p)))
  | closing (f : Fault) (p : Purpose) : Withdraws w (.closing (.write f (.request w p)))
  | abandoning (p : Purpose) : Withdraws w (.abandoning w p)

variable {w : Waiter} {task : Task}

theorem Recasts.withdraws {old new : List Task} (h : Recasts old new) (hold : ∃ x ∈ old, x.Withdraws w) :
    ∃ x ∈ new, x.Withdraws w := by
  obtain ⟨x, hmem, hx⟩ := hold
  cases h with
  | same | called _ => cases hmem
  | awaited _ | collected _ =>
    cases List.mem_singleton.mp hmem
    cases hx
  | left h =>
    obtain rfl := List.mem_singleton.mp hmem
    cases hx with
    | terminating f p =>
      cases h
      exact ⟨_, List.mem_cons_of_mem _ List.mem_cons_self, .abandoning p⟩
    | closing f p =>
      cases h
      exact ⟨_, List.mem_cons_of_mem _ List.mem_cons_self, .abandoning p⟩
    | abandoning p => cases h

/-- The request is taken out in a step, or still to be taken out. -/
theorem Steps.withdraws {me : TaskId} {s : Shared} {p : Progress} (h : Steps me s task p)
    (hw : task.Withdraws w) :
    (∃ next, p.next = some next ∧ next.Withdraws w) ∨ ∀ c ∈ p.shared.pending.calls, c.waiter ≠ w := by
  have habandon : ∀ c ∈ (s.pending.abandon w).calls, c.waiter ≠ w := by
    intro c hc
    exact (PendingCalls.mem_abandon_waiters.mp (List.mem_map_of_mem hc)).2
  cases hw with
  | terminating f purpose =>
    cases h
    exact .inl ⟨_, rfl, .closing f purpose⟩
  | closing f purpose =>
    cases h
    exact .inr nofun
  | abandoning purpose => cases h <;> exact .inr habandon

end Task

namespace Session

variable {k : Nat} {b : CallBook} {s : Session} {w : Waiter}

/-- An entry of a waiter is still to be taken out. -/
def Unsent (s : Session) (w : Waiter) : Prop :=
  (∃ c ∈ s.shared.pending.calls, c.waiter = w) → ∃ task ∈ s.places, task.Withdraws w

/-- A request that has entered does not enter again. -/
theorem Booked.old_call (h : s.Booked k b) {t : TaskId} {task : Task} {p : Progress}
    (step : task.Steps t s.shared p) (here : task ∈ s.places) {c : PendingCall}
    (hc : c ∈ p.shared.pending.calls) (hissued : c.waiter ∈ b.issued) : c ∈ s.shared.pending.calls := by
  rcases step.tabled.calls c hc with hold | ⟨method, params, purpose, rfl⟩
  · exact hold
  · exact absurd rfl (h.not_entering here c.waiter hissued)

theorem Unsent.act (hs : s.Unsent w) (h : s.Booked k b) (hw : w ∈ b.issued) (a : Action) :
    (s.act a).Unsent w := by
  have hmoves := h.named.moves_act a
  generalize s.act a = s' at *
  rintro ⟨c, hc, rfl⟩
  cases hmoves with
  | still recasts before after agrees idle =>
    rw [agrees.pending] at hc
    obtain ⟨x, hmem, hx⟩ := hs ⟨c, hc, rfl⟩
    rcases List.mem_append.mp (before.mem_iff.mp hmem) with hold | hother
    · obtain ⟨y, hnew, hy⟩ := recasts.withdraws ⟨x, hold, hx⟩
      exact ⟨y, after.mem_iff.mpr (List.mem_append_left _ hnew), hy⟩
    · exact ⟨x, after.mem_iff.mpr (List.mem_append_right _ hother), hx⟩
  | turn htask takes before after agrees =>
    have step := Task.Steps.of_step takes
    rw [agrees.pending] at hc
    have hbefore := h.old_call step (before.mem_iff.mpr List.mem_cons_self) hc hw
    obtain ⟨x, hmem, hx⟩ := hs ⟨c, hbefore, rfl⟩
    rcases List.mem_cons.mp (before.mem_iff.mp hmem) with rfl | hother
    · rcases step.withdraws hx with ⟨next, hnext, hwithdraws⟩ | hnone
      · refine ⟨next, after.mem_iff.mpr (List.mem_append_left _ ?_), hwithdraws⟩
        exact Option.mem_toList.mpr hnext
      · exact absurd rfl (hnone c hc)
    · exact ⟨x, after.mem_iff.mpr (List.mem_append_right _ (List.mem_append_right _ hother)), hx⟩

theorem Unsent.run (hs : s.Unsent w) (h : s.Booked k b) (hw : w ∈ b.issued) (actions : List Action)
    (few : k + s.idsTaken actions + 1 < 2 ^ 64) : (s.run actions).Unsent w := by
  refine (h.keeps (P := fun b s => w ∈ b.issued ∧ s.Unsent w) ?_ ⟨hw, hs⟩ actions few).2
  intro k b s h _ hP a
  exact ⟨CallBook.mem_book_issued hP.1, hP.2.act h hP.1 a⟩

/-! ## What becomes of the calls of a session -/

/-- The waiters that the tasks of a session have. -/
def waiters (s : Session) : List Waiter := s.places.filterMap Task.waiter?

/-- The waiters that were handed out in a run, each with what was done to the table later. -/
def issues (s : Session) (actions : List Action) : List Issue := CallBook.issues {} (s.bookings actions)

/-- What becomes of the calls of a session in a run: `s` is where it leads, and `all` are the waiters that
were handed out. -/
structure Settlement (options : SessionOptions) (actions : List Action) (s : Session) (all : List Issue) :
    Prop where
  /-- The entries of the table are the waiters that are neither fulfilled nor dropped. -/
  entries : s.shared.pending.calls.map PendingCall.waiter = (all.filter Issue.isLive).map Issue.waiter
  /-- Each of them is the waiter of one task. -/
  owners : s.waiters.Nodup ∧ ∀ c ∈ s.shared.pending.calls, c.waiter ∈ s.waiters
  /-- A waiter that a task has is in the table, or its outcome is there. -/
  minded : ∀ w ∈ s.waiters, (∃ c ∈ s.shared.pending.calls, c.waiter = w)
    ∨ (s.shared.pending.outcome? w).isSome = true
  /-- When the table is closed, the session has terminated, and every waiter is fulfilled. -/
  closed : s.shared.pending.closed = true → s.shared.lifecycle.phase = .terminated
    ∧ s.shared.pending.calls = [] ∧ (∀ x ∈ all, x.isLive = false)
    ∧ ∀ w ∈ s.waiters, (s.shared.pending.outcome? w).isSome = true
  /-- Then a task that waits has the outcome in its next turn, and one that is about to enter is refused. -/
  waits : s.shared.pending.closed = true → ∀ t w p deadline, s.task? t = some (.waiting w p deadline) →
    ∃ o, s.shared.pending.outcome? w = some o ∧ (s.act (.turn t)).task? t = some (p.settled o)
  refused : s.shared.pending.closed = true → ∀ t id method params p,
    s.task? t = some (.registering id method params p) →
    (s.act (.turn t)).task? t = some (p.failed .connectionClosed)
  /-- A session that has terminated has closed its table, or some task is about to. -/
  terminated : s.shared.lifecycle.phase = .terminated →
    s.shared.pending.closed = true ∨ ∃ t a, s.task? t = some (.closing a)
  /-- Its turn closes the table and fails all calls that are left. -/
  closes : ∀ t a, s.task? t = some (.closing a) → (s.act (.turn t)).shared.pending.closed = true
    ∧ (s.act (.turn t)).shared.pending.calls = []
    ∧ ∀ c ∈ s.shared.pending.calls,
        (s.act (.turn t)).shared.pending.outcome? c.waiter = some (.error .connectionClosed)
  /-- The waiter of a request is handed out before the request is written. -/
  entered : ∀ before a later r, actions = before ++ a :: later →
    ((create options).run (before ++ [a])).shared.wire
      = ((create options).run before).shared.wire ++ [.request r] →
    ∃ x ∈ (create options).issues before, x.waiter.id = r.id
  /-- A request on the wire has one waiter, and a response finds it unless it is fulfilled or dropped. -/
  answered : ∀ r, .request r ∈ s.shared.wire → ∃ x ∈ all, x.waiter.id = r.id
    ∧ (∀ y ∈ all, y.waiter.id = r.id → y = x)
    ∧ ∀ response : Response, response.id = some r.id →
        (s.shared.pending.resolve response).1 = x.isLive
  /-- A call whose request could not be written leaves no entry of its id when it is over. -/
  withdrawn : ∀ before later t r w p, actions = before ++ .turn t :: later →
    ((create options).run before).task? t = some (.writing (.request r) (.request w p)) →
    ((create options).run before).shared.outflow ≠ .flowing →
    ∀ c ∈ s.shared.pending.calls, c.id = r.id → ∃ task ∈ s.places, task.Withdraws w
  /-- A request is refused only because the table is closed, not for its id. -/
  registers : ∀ t id method params p f, s.task? t = some (.registering id method params p) →
    s.shared.pending.register id method = .error f → f = .connectionClosed ∧ s.shared.pending.closed = true

/-! ### In one state -/

namespace Booked

theorem outcome?_eq (h : s.Booked k b) (w : Waiter) :
    s.shared.pending.outcome? w = b.table.outcome? w := by
  obtain ⟨n, hn⟩ := h.table
  rw [hn]
  rfl

/-- Nobody waits for a call that is not in the table and has no outcome. -/
theorem minded (h : s.Booked k b) (hw : w ∈ s.waiters) :
    (∃ c ∈ s.shared.pending.calls, c.waiter = w) ∨ (s.shared.pending.outcome? w).isSome = true := by
  rw [h.calls_eq, h.outcome?_eq]
  exact (h.owned.minded w hw).imp_right Option.isSome_iff_ne_none.mpr

theorem calls_of_closed (h : s.Booked k b) (hclosed : s.shared.pending.closed = true) :
    s.shared.pending.calls = [] := by
  rw [h.closed_iff] at hclosed
  rw [h.calls_eq]
  exact h.emptied hclosed

theorem fulfilled (h : s.Booked k b) (hclosed : s.shared.pending.closed = true) (hw : w ∈ s.waiters) :
    (s.shared.pending.outcome? w).isSome = true := by
  refine (h.minded hw).resolve_left ?_
  rw [h.calls_of_closed hclosed]
  nofun

variable {t : TaskId} {task : Task} {p : Progress}

theorem mem_places (h : s.Booked k b) (here : s.task? t = some task) : task ∈ s.places :=
  List.mem_map.mpr ⟨(t, task), h.named.task?_eq_some_iff.mp here, rfl⟩

/-- Where a task is after its turn. -/
theorem task?_turn (h : s.Booked k b) (here : s.task? t = some task) (step : task.Steps t s.shared p) :
    (s.act (.turn t)).task? t = p.next :=
  (h.named.goes_on here step).1

/-- The table of calls after a turn. -/
theorem pending_turn (h : s.Booked k b) (here : s.task? t = some task) (step : task.Steps t s.shared p) :
    (s.act (.turn t)).shared.pending = p.shared.pending := by
  obtain ⟨-, holder, hshared⟩ := h.named.goes_on here step
  rw [hshared]

/-- A task that waits goes on with the outcome that is there. -/
theorem told (h : s.Booked k b) {w : Waiter} {p : Purpose} {deadline : Option Nat} {o : Outcome}
    (here : s.task? t = some (.waiting w p deadline)) (ho : s.shared.pending.outcome? w = some o) :
    (s.act (.turn t)).task? t = some (p.settled o) := by
  have hpoll : s.shared.pending.poll w = some (o, { s.shared.pending with
      outcomes := s.shared.pending.outcomes.filter (·.1 ≠ w.serial) }) := by
    rw [PendingCalls.poll, ho]
    rfl
  exact h.task?_turn here (.settled hpoll)

theorem waits (h : s.Booked k b) (hclosed : s.shared.pending.closed = true) {w : Waiter} {p : Purpose}
    {deadline : Option Nat} (here : s.task? t = some (.waiting w p deadline)) :
    ∃ o, s.shared.pending.outcome? w = some o ∧ (s.act (.turn t)).task? t = some (p.settled o) := by
  have hw : w ∈ s.waiters := List.mem_filterMap.mpr ⟨_, h.mem_places here, rfl⟩
  obtain ⟨o, ho⟩ := Option.isSome_iff_exists.mp (h.fulfilled hclosed hw)
  exact ⟨o, ho, h.told here ho⟩

theorem refused (h : s.Booked k b) (hclosed : s.shared.pending.closed = true) {id : Id} {method : String}
    {params : Option Json} {p : Purpose} (here : s.task? t = some (.registering id method params p)) :
    (s.act (.turn t)).task? t = some (p.failed .connectionClosed) := by
  refine h.task?_turn here (.unregistered ?_)
  rw [PendingCalls.register, if_pos hclosed]

theorem closes (h : s.Booked k b) {a : Aftermath} (here : s.task? t = some (.closing a)) :
    (s.act (.turn t)).shared.pending.closed = true ∧ (s.act (.turn t)).shared.pending.calls = []
      ∧ ∀ c ∈ s.shared.pending.calls,
          (s.act (.turn t)).shared.pending.outcome? c.waiter = some (.error .connectionClosed) := by
  rw [h.pending_turn here .closed]
  refine ⟨rfl, rfl, fun c hc => ?_⟩
  have hnone : s.shared.pending.outcome? c.waiter = none := by
    rw [h.outcome?_eq]
    exact h.sound.table.outcome?_waiter (h.calls_eq ▸ hc)
  show s.shared.pending.close.outcome? c.waiter = _
  rw [PendingCalls.outcome?_close, hnone, Option.none_or, if_pos ⟨c, hc, rfl⟩]

theorem registers (h : s.Booked k b) {id : Id} {method : String} {params : Option Json} {p : Purpose} {f : Fault}
    (here : s.task? t = some (.registering id method params p))
    (hrefused : s.shared.pending.register id method = .error f) :
    f = .connectionClosed ∧ s.shared.pending.closed = true := by
  unfold PendingCalls.register at hrefused
  split at hrefused
  · next hclosed =>
    cases hrefused
    exact ⟨rfl, hclosed⟩
  · split at hrefused
    · next hfound =>
      -- a call of the same id would have been handed out a waiter
      obtain ⟨c, hc, hid⟩ := PendingCalls.find?_isSome_iff.mp hfound
      rw [h.calls_eq] at hc
      exact absurd hid (h.not_entering (h.mem_places here) c.waiter (h.sound.calls c hc))
    · cases hrefused

theorem closing_of_terminated (h : s.Booked k b) (hphase : s.shared.lifecycle.phase = .terminated) :
    s.shared.pending.closed = true ∨ ∃ t a, s.task? t = some (.closing a) := by
  refine (h.ending hphase).imp_right ?_
  rintro ⟨a, hmem⟩
  obtain ⟨⟨t, task⟩, here, rfl⟩ := List.mem_map.mp hmem
  exact ⟨t, a, h.named.task?_eq_some_iff.mpr here⟩

/-- A request that is written has entered the table before. -/
theorem knows_written (h : s.Booked k b) {a : Action} {r : Request}
    (hwire : (s.act a).shared.wire = s.shared.wire ++ [.request r]) : b.Knows r.id := by
  have hmoves := h.named.moves_act a
  generalize s.act a = s' at *
  have hmore : s'.shared.wire ≠ s.shared.wire := by
    rw [hwire]
    exact fun heq => List.cons_ne_nil _ _ (List.append_right_eq_self.mp heq)
  cases hmoves with
  | still recasts before after agrees idle => exact absurd agrees.wire hmore
  | turn htask takes before after agrees =>
    rw [agrees.wire] at hwire hmore
    rcases (Task.Steps.of_step takes).writes with hsame | ⟨m, d, rfl, hwritten⟩
    · exact absurd hsame hmore
    · rw [hwritten] at hwire
      obtain rfl := List.singleton_inj.mp (List.append_cancel_left hwire)
      exact (h.writing r d (before.mem_iff.mpr List.mem_cons_self)).1

end Booked

/-! ### In a whole run -/

theorem booked_run (options : SessionOptions) (actions : List Action)
    (few : (create options).idsTaken actions + 1 < 2 ^ 64) :
    ((create options).run actions).Booked ((create options).idsTaken actions)
      (CallBook.run {} ((create options).bookings actions)) := by
  have h := (booked_create options).run actions (by rwa [Nat.zero_add])
  rwa [Nat.zero_add] at h

theorem mem_issued_iff (options : SessionOptions) (actions : List Action) {w : Waiter} :
    w ∈ (CallBook.run {} ((create options).bookings actions)).issued
      ↔ ∃ x ∈ (create options).issues actions, x.waiter = w := by
  rw [CallBook.issued_run]
  exact List.mem_map

/-- A waiter that was handed out is known later. -/
theorem mem_issued_append {options : SessionOptions} {before : List Action} (later : List Action)
    (hw : w ∈ (CallBook.run {} ((create options).bookings before)).issued) :
    w ∈ (CallBook.run {} ((create options).bookings (before ++ later))).issued := by
  rw [bookings_append, CallBook.run_append, CallBook.issued_run _ (bookings _ _)]
  exact List.mem_append_left _ hw

section Run

variable (options : SessionOptions) (actions : List Action)
  (few : (create options).idsTaken actions + 1 < 2 ^ 64)

include few

/-- The table of calls agrees with the account of the waiters that were handed out. -/
theorem tracks_issues :
    CallBook.Tracks ((create options).bookings actions) ((create options).issues actions) := by
  refine CallBook.tracks_run _ ?_
  have hlength := congrArg List.length (CallBook.issued_run {} ((create options).bookings actions))
  have hle := (booked_run options actions few).length_issued_le
  simp only [List.length_append, List.length_map, List.length_nil] at hlength
  omega

/-- A waiter that is neither fulfilled nor dropped has an entry. -/
theorem entry_of_live {x : Issue} (hx : x ∈ (create options).issues actions) (hlive : x.isLive = true) :
    ∃ c ∈ ((create options).run actions).shared.pending.calls, c.waiter = x.waiter := by
  rw [(booked_run options actions few).calls_eq]
  exact List.mem_map.mp (((tracks_issues options actions few).mem_calls_iff hx).mpr hlive)

/-- Before a request is written, its waiter is handed out. -/
theorem issued_before_written {a : Action} {r : Request}
    (hwire : ((create options).run (actions ++ [a])).shared.wire
      = ((create options).run actions).shared.wire ++ [.request r]) :
    ∃ x ∈ (create options).issues actions, x.waiter.id = r.id := by
  rw [run_append] at hwire
  obtain ⟨w, hw, hid⟩ := (booked_run options actions few).knows_written hwire
  obtain ⟨x, hx, rfl⟩ := (mem_issued_iff options actions).mp hw
  exact ⟨x, hx, hid⟩

/-- Two waiters of one id are one. -/
theorem issue_eq {x y : Issue} (hx : x ∈ (create options).issues actions)
    (hy : y ∈ (create options).issues actions) (hid : y.waiter.id = x.waiter.id) : y = x := by
  have hwaiter : y.waiter = x.waiter :=
    (booked_run options actions few).waiter_eq ((mem_issued_iff options actions).mpr ⟨y, hy, rfl⟩)
      ((mem_issued_iff options actions).mpr ⟨x, hx, rfl⟩) hid
  exact List.inj_on_of_nodup_map (tracks_issues options actions few).serials_nodup hy hx
    (congrArg Waiter.serial hwaiter)

/-- A response finds its call unless the call is fulfilled or dropped. -/
theorem resolve_eq_isLive {x : Issue} (hx : x ∈ (create options).issues actions) {response : Response}
    (hresponse : response.id = some x.waiter.id) :
    (((create options).run actions).shared.pending.resolve response).1 = x.isLive := by
  have hfound : (∃ c ∈ ((create options).run actions).shared.pending.calls, c.id = x.waiter.id)
      ↔ x.isLive = true := by
    rw [(booked_run options actions few).calls_eq, (tracks_issues options actions few).exists_call_iff]
    constructor
    · rintro ⟨y, hy, hlive, hid⟩
      exact issue_eq options actions few hx hy hid ▸ hlive
    · exact fun hlive => ⟨x, hx, hlive, rfl⟩
  rw [PendingCalls.resolve, hresponse]
  show (PendingCalls.settle _ _ _).1 = _
  rw [PendingCalls.settle_found, Bool.eq_iff_iff, decide_eq_true_iff]
  exact hfound

/-- The entry of a waiter that was handed out under an id is the only one of this id. -/
theorem waiter_of_entry {id : Id} (hw : w ∈ (CallBook.run {} ((create options).bookings actions)).issued)
    (hwid : w.id = id) {c : PendingCall} (hc : c ∈ ((create options).run actions).shared.pending.calls)
    (hcid : c.id = id) : c.waiter = w := by
  have h := booked_run options actions few
  exact h.waiter_eq (h.sound.calls c (h.calls_eq ▸ hc)) hw (hcid.trans hwid.symm)

end Run

/-- Whose request could not be written is taken out of the table again. -/
theorem withdraws_unwritten (options : SessionOptions) (before later : List Action)
    {t : TaskId} {r : Request} {w : Waiter} {p : Purpose}
    (few : (create options).idsTaken (before ++ .turn t :: later) + 1 < 2 ^ 64)
    (here : ((create options).run before).task? t = some (.writing (.request r) (.request w p)))
    (hbroken : ((create options).run before).shared.outflow ≠ .flowing) {c : PendingCall}
    (hc : c ∈ ((create options).run (before ++ .turn t :: later)).shared.pending.calls) (hid : c.id = r.id) :
    ∃ task ∈ ((create options).run (before ++ .turn t :: later)).places, task.Withdraws w := by
  have hsplit := few
  rw [idsTaken_append] at hsplit
  have hbefore := booked_run options before (by omega)
  have hmem := hbefore.mem_places here
  have hw : w ∈ (CallBook.run {} ((create options).bookings before)).issued :=
    hbefore.owned.issued w (List.mem_filterMap.mpr ⟨_, hmem, rfl⟩)
  have hkept := mem_issued_append (.turn t :: later) hw
  have hwid : w.id = r.id := (hbefore.writing r _ hmem).2 w p rfl
  have hwaiter := waiter_of_entry options _ few hkept hwid hc hid
  -- it is to be taken out after its turn, and from then on until it is
  have hstart : (((create options).run before).act (.turn t)).Unsent w := by
    intro _
    have hnext := hbefore.task?_turn here (.unwritten hbroken)
    have hnamed := hbefore.named.act (.turn t)
    exact ⟨_, List.mem_map.mpr ⟨_, hnamed.task?_eq_some_iff.mp hnext, rfl⟩, .terminating _ p⟩
  have hunsent := hstart.run (hbefore.act (by omega) (.turn t)) (CallBook.mem_book_issued hw) later (by
    simp only [idsTaken] at hsplit
    omega)
  rw [run_append] at hc ⊢
  exact hunsent ⟨c, hc, hwaiter⟩

/-- **No waiter is lost**, whatever happens and in whatever order. -/
theorem settlement (options : SessionOptions) (actions : List Action)
    (few : (create options).idsTaken actions < 2 ^ 63 - 1) :
    Settlement options actions ((create options).run actions) ((create options).issues actions) := by
  have hfew : (create options).idsTaken actions + 1 < 2 ^ 64 := by omega
  have h := booked_run options actions hfew
  exact {
    entries := h.calls_eq ▸ (tracks_issues options actions hfew).calls
    owners := ⟨h.owned.nodup, fun c hc => h.owned.entries c (h.calls_eq ▸ hc)⟩
    minded := fun w hw => h.minded hw
    closed := by
      intro hclosed
      have hempty := h.calls_of_closed hclosed
      refine ⟨h.sealed.closed hclosed, hempty, fun x hx => ?_, fun w hw => h.fulfilled hclosed hw⟩
      by_contra hlive
      obtain ⟨c, hc, -⟩ := entry_of_live options actions hfew hx (Bool.of_not_eq_false hlive)
      rw [hempty] at hc
      cases hc
    waits := fun hclosed t w p deadline here => h.waits hclosed here
    refused := fun hclosed t id method params p here => h.refused hclosed here
    terminated := h.closing_of_terminated
    closes := fun t a here => h.closes here
    entered := by
      rintro before a later r rfl hwire
      rw [idsTaken_append] at hfew
      exact issued_before_written options before (by omega) hwire
    answered := by
      intro r hr
      obtain ⟨w, hw, hid⟩ := h.sent r hr
      obtain ⟨x, hx, rfl⟩ := (mem_issued_iff options actions).mp hw
      refine ⟨x, hx, hid, fun y hy hyid => ?_, fun response hresponse => ?_⟩
      · exact issue_eq options actions hfew hx hy (hyid.trans hid.symm)
      · exact resolve_eq_isLive options actions hfew hx (hresponse.trans (congrArg some hid.symm))
    withdrawn := by
      rintro before later t r w p rfl here hbroken c hc hid
      exact withdraws_unwritten options before later hfew here hbroken hc hid
    registers := fun t id method params p f here hrefused => h.registers here hrefused }

/-! ### A handshake that cannot be written -/

/-- The direction to the server breaks when the first request has entered the table. The connection is
failed for it, and the request leaves the table with its waiter fulfilled. -/
def unwritten : List Action :=
  .call .handshake :: List.replicate 3 (.turn 1) ++ .breakOutflow :: List.replicate 3 (.turn 1)

theorem settlement_unwritten :
    ((create {}).run unwritten).shared.pending.closed = true ∧
      ((create {}).issues unwritten).map Issue.waiter = [⟨.number 1, 0⟩] ∧
      Settlement {} unwritten ((create {}).run unwritten) ((create {}).issues unwritten) :=
  ⟨by decide +kernel, by decide +kernel, settlement {} unwritten (by decide +kernel)⟩

end Session

end LanguageClient
