import LanguageClient.Proofs.Calls.Table
import LanguageClient.Proofs.Session.Waiters

/-!
# LanguageClient.Proofs.Session.Sealing -- the table of calls in a session

`Task.Tabled` says what a step can do to the table of calls: calls enter it at one place only, ids are taken
at one place only, and it is closed at one place only. The phase is `terminated` before the table is closed,
and stays so, whatever happens (`Session.Sealed`).
-/

namespace LanguageClient

namespace PendingCalls

/-- Nothing has entered a table, no id was taken, and it was not closed. -/
structure Shrinks (t u : PendingCalls) : Prop where
  calls : ∀ c ∈ u.calls, c ∈ t.calls
  nextNumber : u.nextNumber = t.nextNumber
  closed : u.closed = t.closed

variable (t : PendingCalls)

theorem Shrinks.refl : t.Shrinks t := ⟨fun _ h => h, rfl, rfl⟩

theorem shrinks_settle (id : Id) (o : Outcome) : t.Shrinks (t.settle id o).2 := by
  unfold settle
  split
  · exact .refl t
  · exact ⟨fun _ h => List.mem_of_mem_erase h, rfl, rfl⟩

theorem shrinks_reject (id : Id) (f : Fault) : t.Shrinks (t.reject id f).2 := t.shrinks_settle id _

theorem shrinks_cancel (id : Id) : t.Shrinks (t.cancel id).2 := t.shrinks_settle id _

theorem shrinks_resolve (r : Response) : t.Shrinks (t.resolve r).2 := by
  unfold resolve
  split
  · exact .refl t
  · exact t.shrinks_settle _ _

theorem shrinks_abandon (w : Waiter) : t.Shrinks (t.abandon w) :=
  ⟨fun _ h => List.mem_of_mem_filter h, rfl, rfl⟩

variable {t}

theorem shrinks_poll {w : Waiter} {o : Outcome} {u : PendingCalls} (h : t.poll w = some (o, u)) :
    t.Shrinks u := by
  obtain ⟨found, -, heq⟩ := Option.map_eq_some_iff.mp h
  cases heq
  exact ⟨fun _ h => h, rfl, rfl⟩

end PendingCalls

namespace Task

variable {me : TaskId} {s : Shared} {task : Task} {p : Progress}

/-- What a step does to the table of calls. -/
structure Tabled (s : Shared) (task : Task) (p : Progress) : Prop where
  calls : ∀ c ∈ p.shared.pending.calls, c ∈ s.pending.calls ∨
    ∃ method params purpose, task = .registering c.id method params purpose
  number : p.shared.pending.nextNumber = s.pending.nextNumber ∨
    (∃ method params purpose, task = .numbering method params purpose) ∧
      p.shared.pending.nextNumber = s.pending.nextNumber + 1
  closed : p.shared.pending.closed = s.pending.closed ∨ ∃ a, task = .closing a

theorem Tabled.of_shrinks {s' : Shared} {next asked} (h : s.pending.Shrinks s'.pending) :
    Tabled s task ⟨s', next, asked⟩ :=
  ⟨fun c hc => .inl (h.calls c hc), .inl h.nextNumber, .inl h.closed⟩

theorem Steps.tabled (h : Steps me s task p) : Tabled s task p := by
  cases h with
  | numbered =>
    exact ⟨fun _ hc => .inl hc, .inr ⟨⟨_, _, _, rfl⟩, rfl⟩, .inl rfl⟩
  | registered hregister =>
    obtain ⟨-, rfl, rfl⟩ := PendingCalls.of_register hregister
    refine ⟨fun c hc => ?_, .inl rfl, .inl rfl⟩
    rcases List.mem_append.mp hc with hc | hc
    · exact .inl hc
    · cases List.mem_singleton.mp hc
      exact .inr ⟨_, _, _, rfl⟩
  | rejected => exact .of_shrinks (s.pending.shrinks_reject _ _)
  | left => exact .of_shrinks (s.pending.shrinks_abandon _)
  | settled hpoll => exact .of_shrinks (PendingCalls.shrinks_poll hpoll)
  | cancelled => exact .of_shrinks (s.pending.shrinks_cancel _)
  | abandonedHandshake => exact .of_shrinks (s.pending.shrinks_abandon _)
  | abandoned => exact .of_shrinks (s.pending.shrinks_abandon _)
  | closed => exact ⟨nofun, .inl rfl, .inr ⟨_, rfl⟩⟩
  | readResponse => exact .of_shrinks (s.pending.shrinks_resolve _)
  | readBadResponse => exact .of_shrinks (s.pending.shrinks_reject _ _)
  | _ => exact .of_shrinks (.refl _)

/-- The session is about to end. -/
def isTerminating : Task → Bool
  | .terminating _ => true
  | _ => false

/-- A session ends in one way only, and stays so. -/
theorem Steps.terminated_iff (h : Steps me s task p) : p.shared.lifecycle.phase = .terminated ↔
    s.lifecycle.phase = .terminated ∨ task.isTerminating = true := by
  have same : ∀ {l : Lifecycle}, l.phase = s.lifecycle.phase → task.isTerminating = false →
      (l.phase = .terminated ↔ s.lifecycle.phase = .terminated ∨ task.isTerminating = true) := by
    intro l hl htask
    rw [hl, htask]
    exact (or_iff_left Bool.false_ne_true).symm
  have changed : ∀ before after : Phase, s.lifecycle.phase = before → before ≠ .terminated →
      after ≠ .terminated → task.isTerminating = false →
      (after = .terminated ↔ s.lifecycle.phase = .terminated ∨ task.isTerminating = true) := by
    intro before after hbefore hne hafter htask
    rw [hbefore, htask]
    exact iff_of_false hafter (not_or.mpr ⟨hne, Bool.false_ne_true⟩)
  cases h with
  | handshakeBegun hbefore _ | handshakeUnfit hbefore _ =>
    exact changed _ .initializing hbefore (by decide) (by decide) rfl
  | becameReady hbefore => exact changed _ .ready hbefore (by decide) (by decide) rfl
  | leftReady hbefore => exact changed _ .shuttingDown hbefore (by decide) (by decide) rfl
  | terminated => exact iff_of_true rfl (.inr rfl)
  | _ => exact same rfl rfl

/-! ## Where steps lead -/

/-- What a step has done that leads to one of the places where the table and the phase matter. -/
def Leads (s : Shared) (task : Task) (p : Progress) : Task → Prop
  | .numbering _ _ .shutdown => p.shared.lifecycle.phase = .shuttingDown
  | .registering id method params purpose => task = .numbering method params purpose ∧
      (id, p.shared.pending) = s.pending.allocate ∧ p.shared.lifecycle = s.lifecycle
  | .closing _ => p.shared.lifecycle.phase = .terminated
  | _ => True

theorem IsSequel.leads {next : Task} (h : next.IsSequel) : Leads s task p next := by
  cases h <;> trivial

theorem Steps.leads (h : Steps me s task p) {next : Task} (hnext : p.next = some next) :
    Leads s task p next := by
  cases h with
  | taken hentry hready =>
    rename_i c first
    cases hnext
    cases c <;> cases hentry <;> trivial
  | unregistered _ | left | settled _ =>
    cases hnext
    exact (Purpose.sequel_settled _ _).leads
  | notFound _ | unnoticed _ =>
    cases hnext
    exact (sequel_cancelled _).leads
  | written _ => exact (Sending.sequel_done hnext).leads
  | closed => exact (Aftermath.sequel_done hnext).leads
  | numbered =>
    cases hnext
    exact ⟨rfl, rfl, rfl⟩
  | leftReady _ | terminated =>
    cases hnext
    rfl
  | _ =>
    cases hnext
    try trivial

theorem Leaves.was_closing {rest : List Task} (h : task.Leaves rest) {a : Aftermath}
    (hmem : .closing a ∈ rest) : ∃ b, task = .closing b := by
  have hafter : ∀ d, Task.closing a ∉ afterWrite d := by
    intro d hmem
    rcases mem_afterWrite hmem with ⟨w, p, heq, -⟩ | ⟨result, heq, -⟩ <;> cases heq
  cases h with
  | closing => exact ⟨_, rfl⟩
  | writing | terminating =>
    rcases List.mem_cons.mp hmem with heq | hmem
    · cases heq
    · exact absurd hmem (hafter _)
  | waiting | started => cases List.mem_singleton.mp hmem
  | called | locking | closingOutflow | finished => cases hmem

end Task

namespace Session

/-- The phase is `terminated` when the table is closed, and already when it is about to be. -/
structure Sealed (s : Session) : Prop where
  closing : ∀ t a, (t, .closing a) ∈ s.tasks → s.shared.lifecycle.phase = .terminated
  closed : s.shared.pending.closed = true → s.shared.lifecycle.phase = .terminated

variable {s s' : Session}

theorem sealed_create (options : SessionOptions) : (create options).Sealed where
  closing _ _ hmem := nomatch List.mem_singleton.mp hmem
  closed := nofun

/-- A session that has terminated stays so, whatever happens. -/
theorem Happens.stays_terminated {a : Action} (h : Happens s a s')
    (hphase : s.shared.lifecycle.phase = .terminated) : s'.shared.lifecycle.phase = .terminated := by
  rcases h.changes with hsame | ⟨t, task, p, -, -, step, hsame⟩
  · rw [hsame.lifecycle]
    exact hphase
  · rw [hsame.lifecycle]
    exact step.terminated_iff.mpr (.inl hphase)

/-- A table that is closed stays closed. -/
theorem Happens.stays_closed {a : Action} (h : Happens s a s') (hclosed : s.shared.pending.closed = true) :
    s'.shared.pending.closed = true := by
  rcases h.changes with hsame | ⟨t, task, p, -, -, step, hsame⟩
  · rw [hsame.pending]
    exact hclosed
  · rw [hsame.pending]
    rcases step.tabled.closed with heq | ⟨b, rfl⟩
    · exact heq.trans hclosed
    · cases step
      rfl

theorem Sealed.happens (hs : s.Sealed) {a : Action} (h : Happens s a s') : s'.Sealed := by
  have stays := h.stays_terminated
  refine ⟨fun t b hmem => ?_, fun hclosed => ?_⟩
  · cases h with
    | nothing | arrive _ | endInput _ | breakOutflow _ | pass _ => exact hs.closing t b hmem
    | call c =>
      rcases List.mem_append.mp hmem with hmem | hmem
      · exact hs.closing t b hmem
      · cases List.mem_singleton.mp hmem
    | turn step moved =>
      rename_i u task p
      rcases moved.mem hmem with ⟨rfl, hnext⟩ | ⟨hnew, -⟩ | ⟨hmem, -⟩
      · obtain ⟨holder, hafter⟩ := p.shared.after_eq t p.next
        rw [moved.shared, hafter]
        exact step.leads hnext
      · obtain ⟨r, -, heq⟩ := List.mem_map.mp hnew
        cases heq
      · exact stays (hs.closing t b hmem)
    | drop leaves moved =>
      rcases moved.mem hmem with ⟨-, hnext⟩ | ⟨hnew, -⟩ | ⟨hmem, -⟩
      · cases hnext
      · obtain ⟨c, rfl⟩ := leaves.was_closing hnew
        exact stays (hs.closing _ c moved.here)
      · exact stays (hs.closing t b hmem)
    | await moved | collect _ moved =>
      rcases moved.mem hmem with ⟨-, hnext⟩ | ⟨hnew, -⟩ | ⟨hmem, -⟩
      · cases hnext
      · cases hnew
      · exact stays (hs.closing t b hmem)
  · refine stays ?_
    rcases h.changes with hsame | ⟨t, task, p, -, here, step, hsame⟩
    · exact hs.closed (hsame.pending ▸ hclosed)
    · rw [hsame.pending] at hclosed
      rcases step.tabled.closed with hbefore | ⟨b, rfl⟩
      · exact hs.closed (hbefore ▸ hclosed)
      · exact hs.closing t b here

/-! ## The table after the end -/

/-- A session that has terminated has closed the table, or is about to. -/
def Ending (s : Session) : Prop := s.shared.lifecycle.phase = .terminated →
  s.shared.pending.closed = true ∨ ∃ a, .closing a ∈ s.places

/-- Nobody waits in a table that is closed. -/
def Emptied (s : Session) : Prop := s.shared.pending.closed = true → s.shared.pending.calls = []

section Turn

variable {t : TaskId} {task : Task} {p : Progress} {others : List Task}
  (step : task.Steps t s.shared p) (agrees : Agrees p.shared s'.shared)

include step agrees

theorem Ending.turn (h : s.Ending) (before : s.places.Perm (task :: others))
    (after : s'.places.Perm (p.next.toList ++ (p.asked.toList.map .answering ++ others))) : s'.Ending := by
  intro hphase
  rw [agrees.lifecycle] at hphase
  rw [agrees.pending]
  have hclosed : s.shared.pending.closed = true → p.shared.pending.closed = true := by
    intro hclosed
    rcases step.tabled.closed with hsame | ⟨a, rfl⟩
    · exact hsame.trans hclosed
    · cases step
      rfl
  rcases step.terminated_iff.mp hphase with hbefore | hends
  · rcases h hbefore with hclosed' | ⟨a, hmem⟩
    · exact .inl (hclosed hclosed')
    · rcases List.mem_cons.mp (before.mem_iff.mp hmem) with rfl | hother
      · cases step
        exact .inl rfl
      · exact .inr ⟨a, after.mem_iff.mpr (List.mem_append_right _ (List.mem_append_right _ hother))⟩
  · cases task with
    | terminating a =>
      cases step
      exact .inr ⟨a, after.mem_iff.mpr List.mem_cons_self⟩
    | _ => cases hends

theorem Emptied.turn (h : s.Emptied) : s'.Emptied := by
  unfold Emptied
  rw [agrees.pending]
  intro hclosed
  rcases step.tabled.closed with hsame | ⟨a, rfl⟩
  · have hempty := h (hsame.symm.trans hclosed)
    refine List.eq_nil_iff_forall_not_mem.mpr fun c hc => ?_
    rcases step.tabled.calls c hc with hold | ⟨method, params, purpose, rfl⟩
    · rw [hempty] at hold
      cases hold
    · -- no call enters a table that is closed
      cases step with
      | registered hregister =>
        have hopen := (PendingCalls.of_register hregister).1
        rw [hsame.symm.trans hclosed] at hopen
        cases hopen
      | unregistered _ =>
        rw [hempty] at hc
        cases hc
  · cases step
    rfl

end Turn

theorem Ending.still {old new others : List Task} (h : s.Ending) (recasts : Task.Recasts old new)
    (before : s.places.Perm (old ++ others)) (after : s'.places.Perm (new ++ others))
    (agrees : Agrees s.shared s'.shared) : s'.Ending := by
  unfold Ending
  rw [agrees.lifecycle, agrees.pending]
  intro hphase
  refine (h hphase).imp_right ?_
  rintro ⟨a, hmem⟩
  rcases List.mem_append.mp (before.mem_iff.mp hmem) with hclosing | hother
  · obtain ⟨a', hmem'⟩ := recasts.closing ⟨a, hclosing⟩
    exact ⟨a', after.mem_iff.mpr (List.mem_append_left _ hmem')⟩
  · exact ⟨a, after.mem_iff.mpr (List.mem_append_right _ hother)⟩

theorem Emptied.still (h : s.Emptied) (agrees : Agrees s.shared s'.shared) : s'.Emptied := by
  unfold Emptied
  rw [agrees.pending]
  exact h

end Session

end LanguageClient
