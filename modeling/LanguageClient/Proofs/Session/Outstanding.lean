import LanguageClient.Proofs.Session.Alone
import LanguageClient.Proofs.Session.Causes
import LanguageClient.Proofs.Session.Settlement

/-!
# LanguageClient.Proofs.Session.Outstanding -- requests that are outstanding

A request is outstanding as long as the table has an entry of its id (`Session.Outstanding`). An id that has
left the table does not come back, whatever happens (`Booked.gone_act`), and a call that goes on without its
waiter, or is over, has left no entry of it behind (`Booked.parted_run`). When calls do not overlap, what is
outstanding is on the wire, unless the call that goes on is about to write it (`Session.Posted`).
-/

namespace LanguageClient

namespace Session

/-- The table has an entry of an id. -/
def Outstanding (s : Session) (id : Id) : Prop := ∃ c ∈ s.shared.pending.calls, c.id = id

instance (s : Session) (id : Id) : Decidable (s.Outstanding id) :=
  inferInstanceAs (Decidable (∃ c ∈ s.shared.pending.calls, c.id = id))

/-- A request of an id is on the wire. -/
def HasWritten (s : Session) (id : Id) : Prop := ∃ r, .request r ∈ s.shared.wire ∧ r.id = id

variable {k : Nat} {b : CallBook} {s s' : Session} {t : TaskId} {task : Task} {w : Waiter} {id : Id}

/-- A cancellation finds what is outstanding. -/
theorem cancel_found_iff : (s.shared.pending.cancel id).1 = true ↔ s.Outstanding id := by
  rw [PendingCalls.cancel, PendingCalls.reject, PendingCalls.settle_found]
  exact decide_eq_true_iff

/-! ## What the table keeps in a run -/

theorem Booked.issued_of_entry (h : s.Booked k b) {c : PendingCall} (hc : c ∈ s.shared.pending.calls) :
    c.waiter ∈ b.issued :=
  h.sound.calls c (h.calls_eq ▸ hc)

theorem Booked.tableSound (h : s.Booked k b) : s.shared.pending.Sound := by
  obtain ⟨n, hn⟩ := h.table
  rw [hn]
  exact ⟨h.sound.table.ids, h.sound.table.serials, h.sound.table.unsettled⟩

/-- An id that has left the table does not come back. -/
theorem Booked.gone_act (h : s.Booked k b) (hknows : b.Knows id) (hgone : ¬ s.Outstanding id) (a : Action) :
    ¬ (s.act a).Outstanding id := by
  rintro ⟨c, hc, rfl⟩
  rcases (h.named.happens_act a).changes with hsame | ⟨t, task, p, -, here, step, hsame⟩
  · exact hgone ⟨c, hsame.pending ▸ hc, rfl⟩
  · rw [hsame.pending] at hc
    rcases step.tabled.calls c hc with hold | ⟨method, params, purpose, rfl⟩
    · exact hgone ⟨c, hold, rfl⟩
    · obtain ⟨w, hw, hid⟩ := hknows
      exact h.not_entering (List.mem_map.mpr ⟨_, here, rfl⟩) w hw hid

/-! ## Waiters that nobody has -/

/-- In a step a task keeps its waiter, or nobody has it any more. -/
theorem Booked.parts (h : s.Booked k b) (here : (t, task) ∈ s.tasks) {p : Progress}
    (step : task.Steps t s.shared p) (hw : task.waiter? = some w) :
    p.next.bind Task.waiter? = some w ∨ w ∉ (s.act (.turn t)).waiters := by
  obtain ⟨others, hbefore, hafter⟩ := (h.named.replaced_turn here step.step_eq).places h.named
  obtain ⟨hhad, hhas⟩ := filterMap_turn Task.waiter? (fun _ => rfl) hbefore hafter
  rw [hw] at hhad
  have hfree : w ∉ others.filterMap Task.waiter? := (List.nodup_cons.mp (hhad.nodup_iff.mp h.owned.nodup)).1
  by_cases hkeeps : p.next.bind Task.waiter? = some w
  · exact .inl hkeeps
  · refine .inr fun hmem => ?_
    rcases List.mem_append.mp (hhas.mem_iff.mp hmem) with hnext | hother
    · exact hkeeps (Option.mem_toList.mp hnext)
    · exact hfree hother

/-- A waiter that nobody has is not handed out again. -/
theorem Booked.unowned_act (h : s.Booked k b) (few : k + 1 < 2 ^ 64) (hw : w ∈ b.issued)
    (hfree : w ∉ s.waiters) (a : Action) : w ∉ (s.act a).waiters := by
  have hmoves := h.named.moves_act a
  generalize s.act a = s' at *
  intro hmem
  cases hmoves with
  | still recasts before after _ _ =>
    apply hfree
    have hafter := (after.filterMap Task.waiter?).mem_iff.mp hmem
    rw [List.filterMap_append, recasts.waiters, ← List.filterMap_append] at hafter
    exact (before.filterMap Task.waiter?).mem_iff.mpr hafter
  | turn htask takes before after agrees =>
    rename_i t task p others
    have step : task.Steps t s.shared p := .of_step takes
    obtain ⟨hhad, hhas⟩ := filterMap_turn Task.waiter? (fun _ => rfl) before after
    rcases List.mem_append.mp (hhas.mem_iff.mp hmem) with hnext | hother
    · rw [Option.mem_toList] at hnext
      have hpasses := (h.books step before).2
      rw [hnext] at hpasses
      generalize b.book (task.booking? s.shared) = b' at hpasses
      generalize hhas' : task.waiter? = had at hpasses hhad
      cases hpasses with
      | keeps | settles _ => exact hfree (hhad.mem_iff.mpr List.mem_cons_self)
      | enters _ _ =>
        have hless : b.issued.length < 2 ^ 64 := by
          have hle := h.length_issued_le
          omega
        exact h.sound.fresh_waiter hless hw
    · exact hfree (hhad.mem_iff.mpr (List.mem_append_right _ hother))

theorem Booked.unowned_run (h : s.Booked k b) (hw : w ∈ b.issued) (hfree : w ∉ s.waiters)
    (actions : List Action) (few : k + s.idsTaken actions + 1 < 2 ^ 64) : w ∉ (s.run actions).waiters := by
  refine (h.keeps (P := fun b s => w ∈ b.issued ∧ w ∉ s.waiters) ?_ ⟨hw, hfree⟩ actions few).2
  intro k b s h hless hP a
  exact ⟨CallBook.mem_book_issued hP.1, h.unowned_act hless hP.1 hP.2 a⟩

/-- No entry is left of a waiter that nobody has. -/
theorem Booked.gone_of_unowned (h : s.Booked k b) (hw : w ∈ b.issued) (hfree : w ∉ s.waiters) :
    ¬ s.Outstanding w.id := by
  rintro ⟨c, hc, hid⟩
  have hwaiter : c.waiter = w := h.waiter_eq (h.issued_of_entry hc) hw hid
  exact hfree (hwaiter ▸ h.owned.entries c (h.calls_eq ▸ hc))

/-- Names of tasks are not taken again. -/
theorem Happens.stays_over {a : Action} (h : Happens s a s') (hs : s.Named) (hover : s.task? t = none)
    (hold : t < s.nextTask) : s'.task? t = none := by
  have hnone : ∀ {task : Task}, (t, task) ∉ s.tasks := by
    intro task here
    rw [hs.task?_eq_some_iff.mpr here] at hover
    cases hover
  refine Option.eq_none_iff_forall_ne_some.mpr fun task hsome => ?_
  cases h.arises ((h.named hs).task?_eq_some_iff.mp hsome) with
  | stays here | steps _ here _ _ | awaited _ here => exact hnone here
  | called _ new | asked new | left _ _ _ _ new => exact absurd hold (Nat.not_lt_of_le new)

/-- A task has a waiter, or it is gone, or nobody has the waiter. -/
def HasOrParted (s : Session) (t : TaskId) (w : Waiter) : Prop :=
  (∃ task, (t, task) ∈ s.tasks ∧ task.waiter? = some w) ∨ (s.task? t = none ∧ t < s.nextTask)
    ∨ w ∉ s.waiters

theorem Booked.parted_act (h : s.Booked k b) (few : k + 1 < 2 ^ 64) (hw : w ∈ b.issued)
    (hparted : s.HasOrParted t w) (a : Action) : (s.act a).HasOrParted t w := by
  have happened := h.named.happens_act a
  rcases hparted with ⟨task, here, hhas⟩ | ⟨hover, hold⟩ | hfree
  · have hold : t < (s.act a).nextTask := Nat.lt_of_lt_of_le (h.named.given t task here) happened.nextTask_le
    generalize hact : s.act a = s' at *
    cases happened with
    | nothing | arrive _ | endInput _ | breakOutflow _ | pass _ => exact .inl ⟨task, here, hhas⟩
    | call c => exact .inl ⟨task, List.mem_append_left _ here, hhas⟩
    | turn step moved =>
      rename_i u other p
      by_cases hu : t = u
      · subst hu
        cases h.named.unique here moved.here
        rcases h.parts here step hhas with hkeeps | hfree
        · obtain ⟨next, hnext, hhas'⟩ := Option.bind_eq_some_iff.mp hkeeps
          exact .inl ⟨next, (hnext ▸ moved).mem_stay, hhas'⟩
        · exact .inr (.inr (hact ▸ hfree))
      · exact .inl ⟨task, moved.mem_other here hu, hhas⟩
    | drop leaves moved =>
      rename_i u other rest
      by_cases hu : t = u
      · exact .inr (.inl ⟨hu ▸ moved.task?_self h.named, hold⟩)
      · exact .inl ⟨task, moved.mem_other here hu, hhas⟩
    | await moved =>
      rename_i u v
      by_cases hu : t = u
      · subst hu
        cases h.named.unique here moved.here
        exact .inl ⟨_, moved.mem_stay, hhas⟩
      · exact .inl ⟨task, moved.mem_other here hu, hhas⟩
    | collect taken moved =>
      rename_i u answer
      by_cases hu : t = u
      · exact .inr (.inl ⟨hu ▸ moved.task?_self h.named, hold⟩)
      · exact .inl ⟨task, moved.mem_other here hu, hhas⟩
  · exact .inr (.inl ⟨happened.stays_over h.named hover hold, Nat.lt_of_lt_of_le hold happened.nextTask_le⟩)
  · exact .inr (.inr (h.unowned_act few hw hfree a))

/-- Who had a waiter and is there without it has left no entry of it. -/
theorem Booked.parted_run (h : s.Booked k b) (here : (t, task) ∈ s.tasks) (hhas : task.waiter? = some w)
    (actions : List Action) (few : k + s.idsTaken actions + 1 < 2 ^ 64) {last : Task}
    (there : (t, last) ∈ (s.run actions).tasks) (hnone : last.waiter? ≠ some w) :
    w ∉ (s.run actions).waiters := by
  have hw : w ∈ b.issued :=
    h.owned.issued w (List.mem_filterMap.mpr ⟨_, List.mem_map.mpr ⟨_, here, rfl⟩, hhas⟩)
  have hnamed : (s.run actions).Named := h.named.run actions
  have hparted : (s.run actions).HasOrParted t w := by
    refine (h.keeps (P := fun b s => w ∈ b.issued ∧ s.HasOrParted t w) ?_ ⟨hw, .inl ⟨task, here, hhas⟩⟩
      actions few).2
    intro k b s h hless hP a
    exact ⟨CallBook.mem_book_issued hP.1, h.parted_act hless hP.1 hP.2 a⟩
  rcases hparted with ⟨other, hother, hhas'⟩ | ⟨hover, -⟩ | hfree
  · exact absurd (hnamed.unique there hother ▸ hhas') hnone
  · rw [hnamed.task?_eq_some_iff.mpr there] at hover
    cases hover
  · exact hfree

/-! ## Requests that are being sent -/

end Session

/-- A request has entered the table and is not yet on the wire, or could not be written. -/
inductive Task.Sends (id : Id) : Task → Prop
  | writing {r : Request} (w : Waiter) (p : Purpose) (h : r.id = id) :
      Sends id (.writing (.request r) (.request w p))
  | terminating (f : Fault) {w : Waiter} (p : Purpose) (h : w.id = id) :
      Sends id (.terminating (.write f (.request w p)))
  | closing (f : Fault) {w : Waiter} (p : Purpose) (h : w.id = id) :
      Sends id (.closing (.write f (.request w p)))

namespace Session

variable {k : Nat} {b : CallBook} {s s' : Session} {t : TaskId} {task : Task} {id : Id}

/-- What is outstanding is on the wire, or is being sent. -/
def Posted (s : Session) : Prop :=
  ∀ id, s.Outstanding id → s.HasWritten id ∨ ∃ t task, (t, task) ∈ s.tasks ∧ task.Sends id

theorem HasWritten.happens {a : Action} (h : s.HasWritten id) (happened : Happens s a s') : s'.HasWritten id := by
  obtain ⟨r, hr, hid⟩ := h
  exact ⟨r, happened.mem_wire hr, hid⟩

/-- A request that is being sent is written, or is still being sent, or the table is emptied. -/
theorem Booked.sends_turn (h : s.Booked k b) (hsends : task.Sends id) {p : Progress}
    (step : task.Steps t s.shared p) (moved : Replaced s t task p.next (p.asked.toList.map .answering)
      (p.shared.after t p.next) s') (hout : s'.Outstanding id) :
    s'.HasWritten id ∨ ∃ t task, (t, task) ∈ s'.tasks ∧ task.Sends id := by
  have hagrees : Agrees p.shared s'.shared := moved.shared ▸ agrees_after _ _ _
  cases hsends with
  | writing w purpose hid =>
    rename_i r
    have hwid : w.id = id := ((h.writing r _ (List.mem_map.mpr ⟨_, moved.here, rfl⟩)).2 w purpose rfl).trans hid
    cases step with
    | written _ =>
      refine .inl ⟨r, ?_, hid⟩
      rw [hagrees.wire]
      exact List.mem_append_right _ List.mem_cons_self
    | unwritten _ => exact .inr ⟨t, _, moved.mem_stay, .terminating _ purpose hwid⟩
  | terminating f purpose hwid =>
    cases step
    exact .inr ⟨t, _, moved.mem_stay, .closing f purpose hwid⟩
  | closing f purpose hwid =>
    cases step
    obtain ⟨c, hc, -⟩ := hout
    rw [hagrees.pending] at hc
    cases hc

theorem Posted.happens (hs : s.Posted) (h : s.Booked k b) {a : Action} (happened : Happens s a s')
    (permits : s.Permits a) : s'.Posted := by
  intro id hout
  -- what was outstanding before
  have hold : s.Outstanding id → s'.HasWritten id ∨ ∃ t task, (t, task) ∈ s'.tasks ∧ task.Sends id := by
    intro hbefore
    rcases hs id hbefore with hwritten | ⟨t, task, here, hsends⟩
    · exact .inl (hwritten.happens happened)
    · by_cases hturn : a = .turn t
      · subst hturn
        cases happened with
        | nothing => exact .inr ⟨t, task, here, hsends⟩
        | turn step moved =>
          cases h.named.unique here moved.here
          exact h.sends_turn hsends step moved hout
      · have hdrop : a ≠ .drop t := by
          rintro rfl
          have hpaused := permits (t, task) here rfl (by cases hsends <;> rfl)
          cases hsends <;> cases hpaused
        have hover : task.isOver = false := by cases hsends <;> rfl
        exact .inr ⟨t, task, happened.stays h.named here hover hturn hdrop, hsends⟩
  cases happened with
  | turn step moved =>
    have hagrees := moved.shared ▸ agrees_after _ _ _
    obtain ⟨c, hc, hid⟩ := hout
    rw [hagrees.pending] at hc
    rcases step.tabled.calls c hc with hbefore | ⟨method, params, purpose, rfl⟩
    · exact hold ⟨c, hbefore, hid⟩
    · cases step with
      | registered _ => exact .inr ⟨_, _, moved.mem_stay, .writing _ _ hid⟩
      | unregistered _ => exact hold ⟨c, hc, hid⟩
  | nothing | call _ | arrive _ | endInput _ | breakOutflow _ | pass _ => exact hold hout
  | drop leaves moved =>
    have hagrees := moved.shared ▸ agrees_after _ _ _
    obtain ⟨c, hc, hid⟩ := hout
    exact hold ⟨c, hagrees.pending ▸ hc, hid⟩
  | await moved | collect _ moved =>
    obtain ⟨c, hc, hid⟩ := hout
    exact hold ⟨c, moved.shared ▸ hc, hid⟩

end Session

end LanguageClient
