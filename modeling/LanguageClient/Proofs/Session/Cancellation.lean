import LanguageClient.Proofs.Session.Cancelling
import LanguageClient.Proofs.Session.DocumentOrder

/-!
# LanguageClient.Proofs.Session.Cancellation -- only what is outstanding is cancelled

Cancelling a request, an answer to it, the end of its time and the loss of its caller all take the same entry
out of the table, and whoever comes first decides. `CancelsOutstanding` says what follows for the wire and for
the waiters when calls do not overlap: a `$/cancelRequest` is sent once at most, for a request whose entry was
there to be taken; after that its waiter finds that it was cancelled, and an answer that is late finds nothing.
-/

namespace LanguageClient

namespace Task

variable {me : TaskId} {s : Shared} {task : Task} {p : Progress}

/-- A caller gives a request up, and whether the server is told is not decided. -/
inductive GivesUp : Task → Prop
  | called (id : Id) : GivesUp (.called (.cancel id))
  | cancelling (id : Id) : GivesUp (.cancelling id none)
  | noticing (id : Id) : GivesUp (.noticing id none)

theorem GivesUp.needsSession (h : task.GivesUp) : task.needsSession = true := by
  cases h <;> rfl

/-- Outside `ready` only the table is touched. -/
theorem Steps.gives_up (h : Steps me s task p) (hgives : task.GivesUp) (hphase : s.lifecycle.phase ≠ .ready) :
    p.shared.lifecycle = s.lifecycle ∧ p.shared.wire = s.wire
      ∧ ∀ next, p.next = some next → next.GivesUp ∨ next = .finished (.ok .nothing) := by
  cases hgives with
  | called id =>
    cases h with
    | taken hentry _ | notTaken hentry _ => cases hentry
    | cancelBegun => exact ⟨rfl, rfl, fun next hnext => Option.some.inj hnext ▸ .inl (.cancelling id)⟩
  | cancelling id =>
    cases h with
    | cancelled _ => exact ⟨rfl, rfl, fun next hnext => Option.some.inj hnext ▸ .inl (.noticing id)⟩
    | notFound _ => exact ⟨rfl, rfl, fun next hnext => Option.some.inj hnext ▸ .inr rfl⟩
  | noticing id =>
    cases h with
    | noticed hready => exact absurd hready hphase
    | unnoticed _ => exact ⟨rfl, rfl, fun next hnext => Option.some.inj hnext ▸ .inr rfl⟩

end Task

namespace Session

variable {k : Nat} {b : CallBook} {s s' : Session} {t : TaskId} {task : Task} {id : Id}

/-! ## Cancelling outside `ready` -/

/-- A call that gives a request up outside `ready`, or has done so. -/
def Silenced (s : Session) (t : TaskId) : Prop := t < s.nextTask ∧ ∀ task, (t, task) ∈ s.tasks →
  task.GivesUp ∧ s.shared.lifecycle.phase ≠ .ready ∨ task = .finished (.ok .nothing)

/-- While a request is given up nobody else makes the session ready. -/
theorem Alone.not_ready {a : Action} (alone : s.Alone) (hs : s.Named) (here : (t, task) ∈ s.tasks)
    (hgives : task.GivesUp) (hphase : s.shared.lifecycle.phase ≠ .ready) (happened : Happens s a s') :
    s'.shared.lifecycle.phase ≠ .ready := by
  rcases happened.changes with hsame | ⟨u, other, p, -, there, step, hsame⟩
  · rwa [hsame.lifecycle]
  · rw [hsame.lifecycle]
    by_cases hu : u = t
    · subst hu
      obtain rfl := hs.unique there here
      rwa [(step.gives_up hgives hphase).1]
    · have hquiet := alone.beside here hgives.needsSession there hu
      rcases (hquiet.step step).1.phase with hkept | hover
      · rwa [hkept]
      · rw [hover]
        decide

theorem Silenced.happens {a : Action} (h : s.Silenced t) (hs : s.Named) (alone : s.Alone)
    (happened : Happens s a s') : s'.Silenced t := by
  refine ⟨Nat.lt_of_lt_of_le h.1 happened.nextTask_le, fun next hmem => ?_⟩
  cases happened.arises hmem with
  | stays here =>
    refine (h.2 next here).imp_left fun hgives => ⟨hgives.1, ?_⟩
    exact alone.not_ready hs here hgives.1 hgives.2 happened
  | steps _ here step hnext =>
    rcases h.2 _ here with ⟨hgives, hphase⟩ | rfl
    · refine ((step.gives_up hgives hphase).2.2 next hnext).imp_left fun hgoes => ⟨hgoes, ?_⟩
      exact alone.not_ready hs here hgives hphase happened
    · cases step
  | called _ new | asked new | left _ _ _ _ new => exact absurd h.1 (Nat.not_lt_of_le new)
  | awaited _ here =>
    rcases h.2 _ here with ⟨hgives, -⟩ | heq
    · cases hgives
    · cases heq

theorem Silenced.run (h : s.Silenced t) (hs : s.Named) (alone : s.Alone) {actions : List Action}
    (apart : s.OneByOne actions) : (s.run actions).Silenced t := by
  induction actions generalizing s with
  | nil => exact h
  | cons a rest ih =>
    have happened := hs.happens_act a
    exact ih (h.happens hs alone happened) (hs.act a) (alone.happens happened apart.1) apart.2

theorem Silenced.wire_eq (h : s.Silenced t) (hs : s.Named) :
    (s.act (.turn t)).shared.wire = s.shared.wire := by
  rcases (hs.happens_act (.turn t)).changes with hsame | ⟨u, task, p, action, here, step, hsame⟩
  · exact hsame.wire
  · cases action
    rw [hsame.wire]
    rcases h.2 task here with ⟨hgives, hphase⟩ | rfl
    · exact (step.gives_up hgives hphase).2.1
    · cases step

/-! ## Cancelling in `ready` -/

/-- Three turns of its own take the call that finds a request to where the server was told. -/
theorem Named.wire_cancelled (hs : s.Named) {after : AfterCancel}
    (here : s.task? t = some (.cancelling id after)) (hout : s.Outstanding id)
    (hphase : s.shared.lifecycle.phase = .ready) (hflow : s.shared.outflow = .flowing) :
    (s.run [.turn t, .turn t, .turn t]).shared.wire = s.shared.wire ++ [cancellation id] := by
  obtain ⟨hplace, holder, hshared⟩ := hs.goes_on here (.cancelled (cancel_found_iff.mpr hout))
  have hnamed := hs.act (.turn t)
  have hphase' : (s.act (.turn t)).shared.lifecycle.phase = .ready := hshared ▸ hphase
  obtain ⟨hplace', holder', hshared'⟩ := hnamed.goes_on hplace (.noticed hphase')
  have hflow' : ((s.act (.turn t)).act (.turn t)).shared.outflow = .flowing := by
    rw [hshared', hshared]
    exact hflow
  obtain ⟨-, holder'', hshared''⟩ := (hnamed.act (.turn t)).goes_on hplace' (.written hflow')
  show (((s.act (.turn t)).act (.turn t)).act (.turn t)).shared.wire = _
  rw [hshared'', hshared', hshared]
  rfl

/-! ## Answers that are late -/

/-- An answer to a request that is not outstanding is read, and that is all. -/
theorem Locked.late (h : s.Locked) (hs : s.Named) (hgone : ¬ s.Outstanding id)
    (here : s.task? readLoop = some .reading) {item : Except Fault Message} {rest : List UInt8}
    (hnext : s.shared.next? = some (item, rest)) (hanswers : (Inbound.verdict? id item).isSome = true)
    (hgoes : Inbound.isFatal item = false) :
    s.act (.turn readLoop) = { s with shared := { s.shared with input := rest } } := by
  have hsteps : Task.Steps readLoop s.shared .reading ⟨{ s.shared with input := rest }, some .reading, none⟩ := by
    rcases item with f | m
    · cases f with
      | protocol i cause =>
        have hid : i = some id := by
          by_contra hne
          rw [Inbound.verdict?, if_neg hne] at hanswers
          cases hanswers
        subst hid
        have hsame : (s.shared.pending.reject id (.protocol (some id) cause)).2 = s.shared.pending := by
          rw [PendingCalls.reject, PendingCalls.settle_of_gone hgone]
        have step : Task.Steps readLoop s.shared .reading _ := .readBadResponse hnext
        rwa [hsame] at step
      | _ => cases hgoes
    · cases m with
      | response r =>
        have hid : r.id = some id := by
          by_contra hne
          rw [Inbound.verdict?, if_neg hne] at hanswers
          cases hanswers
        have hsame : (s.shared.pending.resolve r).2 = s.shared.pending := by
          simp only [PendingCalls.resolve, hid, PendingCalls.settle_of_gone hgone]
        have step : Task.Steps readLoop s.shared .reading _ := .readResponse hnext
        rwa [hsame] at step
      | request r | notification n => cases hanswers
  rw [h.act_turn hs here rfl hsteps rfl, hs.replace_self here]

/-! ## What becomes of a request that was cancelled -/

/-- A request was cancelled: the table has it no more, and whoever has its waiter finds this. -/
structure GivenUp (s : Session) (id : Id) : Prop where
  gone : ¬ s.Outstanding id
  kept : ∀ w ∈ s.waiters, w.id = id → s.shared.pending.outcome? w = some (.error (.cancelled id))
  told : ∀ t w deadline, s.task? t = some (.waiting w .waiter deadline) → w.id = id →
    (s.act (.turn t)).task? t = some (.finished (.error (.cancelled id)))

/-- Whoever has the waiter of a call that is decided so finds that it was cancelled. -/
theorem givenUp_of_decision {options : SessionOptions} {actions : List Action} {x : Issue}
    {more : List CallAction} (few : (create options).idsTaken actions + 1 < 2 ^ 64)
    (hx : x ∈ (create options).issues actions) (hxid : x.waiter.id = id)
    (hdecision : x.decision = some (.settled (.error (.cancelled id)), more)) :
    ((create options).run actions).GivenUp id := by
  have h := booked_run options actions few
  have htracks := tracks_issues options actions few
  have hgone : ¬ ((create options).run actions).Outstanding id := by
    rw [Outstanding, h.calls_eq, htracks.exists_call_iff]
    rintro ⟨z, hz, hlive, hid⟩
    obtain rfl := issue_eq options actions few hx hz (hid.trans hxid.symm)
    rw [Issue.isLive, hdecision] at hlive
    cases hlive
  have hkept : ∀ w ∈ ((create options).run actions).waiters, w.id = id →
      ((create options).run actions).shared.pending.outcome? w = some (.error (.cancelled id)) := by
    intro w hw hid
    obtain ⟨z, hz, rfl⟩ := (mem_issued_iff options actions).mp (h.owned.issued w hw)
    obtain rfl := issue_eq options actions few hx hz (hid.trans hxid.symm)
    have hsettled : (((create options).run actions).shared.pending.outcome? z.waiter).isSome = true :=
      (h.minded hw).resolve_left fun ⟨c, hc, heq⟩ => hgone ⟨c, hc, (congrArg Waiter.id heq).trans hid⟩
    rw [h.outcome?_eq, htracks.outcome?_eq hx] at hsettled ⊢
    refine (z.stored_of_decision hdecision).resolve_right fun hnone => ?_
    rw [hnone] at hsettled
    cases hsettled
  refine ⟨hgone, hkept, fun t w deadline here hid => ?_⟩
  have hw : w ∈ ((create options).run actions).waiters :=
    List.mem_filterMap.mpr ⟨_, h.mem_places here, rfl⟩
  exact h.told here (hkept w hw hid)

/-- **A request whose entry is taken out by a cancellation stays cancelled**, whatever happens later. -/
theorem givenUp_run {options : SessionOptions} {before later : List Action} {after : AfterCancel}
    (few : (create options).idsTaken (before ++ .turn t :: later) + 1 < 2 ^ 64)
    (here : ((create options).run before).task? t = some (.cancelling id after))
    (hout : ((create options).run before).Outstanding id) :
    ((create options).run (before ++ .turn t :: later)).GivenUp id := by
  have hless : (create options).idsTaken before + 1 < 2 ^ 64 := by
    rw [idsTaken_append] at few
    omega
  have hbefore := booked_run options before hless
  have step : Task.Steps t ((create options).run before).shared (.cancelling id after) _ :=
    .cancelled (cancel_found_iff.mpr hout)
  have hbookings : (create options).bookings (before ++ .turn t :: later)
      = (create options).bookings before
        ++ .cancel id :: (((create options).run before).act (.turn t)).bookings later := by
    rw [bookings_append]
    show _ ++ ((booking? _ _).toList ++ _) = _
    simp only [booking?, here, Option.bind_some, step.step_eq, Task.booking?]
    rfl
  generalize (((create options).run before).act (.turn t)).bookings later = more at hbookings
  -- the entry that is taken out is that of a live waiter, which is decided so
  obtain ⟨c, hc, hcid⟩ := hout
  obtain ⟨x, hx, hwaiter⟩ := (mem_issued_iff options before).mp (hbefore.issued_of_entry hc)
  have hxid : x.waiter.id = id := (congrArg Waiter.id hwaiter).trans hcid
  have hlive : x.isLive = true := by
    rw [← (tracks_issues options before hless).mem_calls_iff hx, hwaiter, ← hbefore.calls_eq]
    exact List.mem_map_of_mem hc
  have hextended : x.extend (.cancel id :: more) ∈ (create options).issues (before ++ .turn t :: later) := by
    rw [issues, hbookings, CallBook.issues_append]
    exact List.mem_append_left _ (List.mem_map_of_mem hx)
  have hdecides : (CallAction.cancel id).decides x.number x.waiter.id
      = some (.settled (.error (.cancelled id))) := if_pos hxid.symm
  exact givenUp_of_decision few hextended hxid (x.decision_extend_cons _ hlive hdecides more)

/-! ## All that is said of cancellations -/

/-- Of what is said of requests that are not wanted, and of what becomes of them. -/
structure CancelsOutstanding (options : SessionOptions) (actions : List Action) : Prop where
  /-- A cancellation on the wire is the only one of its id. It was decided on in a turn in which the table had
  the request, whose waiter was neither fulfilled nor dropped, and which was on the wire already. -/
  once : ∀ pre m post, ((create options).run actions).shared.wire = pre ++ m :: post → m.IsCancellation →
    ∃ id, m = cancellation id ∧ m ∉ pre ∧ m ∉ post ∧
      ∃ t before middle later after, actions = before ++ .turn t :: (middle ++ .turn t :: later) ∧
        ((create options).run before).task? t = some (.cancelling id after) ∧
        ((create options).run before).Outstanding id ∧
        (∃ x ∈ (create options).issues before, x.waiter.id = id ∧ x.isLive = true) ∧
        ((create options).run before).HasWritten id ∧
        ((create options).run before).shared.wire <+: pre ∧
        ((create options).run (before ++ .turn t :: middle)).shared.wire = pre
  /-- In `ready` the server is told of a request that is found, if the message can be written. -/
  sent : ∀ t id after, ((create options).run actions).task? t = some (.cancelling id after) →
    ((create options).run actions).Outstanding id →
    ((create options).run actions).shared.lifecycle.phase = .ready →
    ((create options).run actions).shared.outflow = .flowing →
    ((create options).run (actions ++ [.turn t, .turn t, .turn t])).shared.wire
      = ((create options).run actions).shared.wire ++ [cancellation id]
  /-- A request that was outstanding when it was cancelled is so no more, and whoever has its waiter finds that
  it was cancelled. -/
  cancelled : ∀ before t later id after, actions = before ++ .turn t :: later →
    ((create options).run before).task? t = some (.cancelling id after) →
    ((create options).run before).Outstanding id → ((create options).run actions).GivenUp id
  /-- A call that fails because it took too long has waited until its time was over, without an answer. Its
  request is not outstanding afterwards, and nobody has its waiter. -/
  timedOut : ∀ before t later, actions = before ++ later →
    ((create options).run before).task? t = some (.finished (.error .timeout)) →
    ∃ earlier middle w p time, before = earlier ++ .turn t :: middle ∧
      ((create options).run earlier).task? t = some (.waiting w p (some time)) ∧
      ((create options).run earlier).shared.pending.outcome? w = none ∧
      time ≤ ((create options).run earlier).shared.clock ∧
      ¬ ((create options).run actions).Outstanding w.id ∧ w ∉ ((create options).run actions).waiters
  /-- An answer to a request that is not outstanding is read and dropped, and nothing else changes. -/
  late : ∀ id item rest, ¬ ((create options).run actions).Outstanding id →
    ((create options).run actions).task? readLoop = some .reading →
    ((create options).run actions).shared.next? = some (item, rest) →
    (Inbound.verdict? id item).isSome = true → Inbound.isFatal item = false →
    (create options).run (actions ++ [.turn readLoop])
      = { (create options).run actions with
          shared := { ((create options).run actions).shared with input := rest } }
  /-- Cancelling what is not outstanding changes nothing but that the call is over. -/
  unfound : ∀ id, ¬ ((create options).run actions).Outstanding id →
    (create options).run (actions ++ [.call (.cancel id), .turn ((create options).run actions).nextTask,
        .turn ((create options).run actions).nextTask])
      = ((create options).run actions).spawn (.finished (.ok .nothing))
  /-- The end of a call's time goes on the same way when there is nothing to cancel. -/
  nothingFound : ∀ t id after, ¬ ((create options).run actions).Outstanding id →
    ((create options).run actions).task? t = some (.cancelling id after) →
    (create options).run (actions ++ [.turn t])
      = ((create options).run actions).replace t (some (Task.cancelled after))
  /-- A call that cancels a request and begins outside `ready` writes nothing in any of its turns. -/
  unready : ∀ before middle t later id, actions = before ++ (middle ++ .turn t :: later) →
    ((create options).run before).task? t = some (.called (.cancel id)) →
    ((create options).run before).shared.lifecycle.phase ≠ .ready →
    ((create options).run (before ++ (middle ++ [.turn t]))).shared.wire
      = ((create options).run (before ++ middle)).shared.wire
  /-- Nor is anything written when the session is not `ready` any more where the server would be told. -/
  unnoticed : ∀ t id after, ((create options).run actions).task? t = some (.noticing id after) →
    ((create options).run actions).shared.lifecycle.phase ≠ .ready →
    (create options).run (actions ++ [.turn t])
      = ((create options).run actions).replace t (some (Task.cancelled after))

section Runs

variable {options : SessionOptions} {actions : List Action}

/-- Nothing is left of a call that took too long. -/
theorem nothing_left_of_late {before later : List Action}
    (few : (create options).idsTaken (before ++ later) + 1 < 2 ^ 64)
    (hplace : ((create options).run before).task? t = some (.finished (.error .timeout))) :
    ∃ earlier middle w p time, before = earlier ++ .turn t :: middle ∧
      ((create options).run earlier).task? t = some (.waiting w p (some time)) ∧
      ((create options).run earlier).shared.pending.outcome? w = none ∧
      time ≤ ((create options).run earlier).shared.clock ∧
      ¬ ((create options).run (before ++ later)).Outstanding w.id ∧
      w ∉ ((create options).run (before ++ later)).waiters := by
  have here := ((named_create options).run before).task?_eq_some_iff.mp hplace
  obtain ⟨earlier, task, middle, rfl, hwaiting, w, p, time, rfl, hnone, htime⟩ := timeUp_of_late here rfl
  refine ⟨earlier, middle, w, p, time, rfl, hwaiting, hnone, htime, ?_⟩
  have hids := idsTaken_append (create options) (earlier ++ .turn t :: middle) later
  have hids' := idsTaken_append (create options) earlier (.turn t :: middle)
  have hearlier := booked_run options earlier (by omega)
  have hbefore := booked_run options (earlier ++ .turn t :: middle) (by omega)
  have hplaced := hearlier.mem_places hwaiting
  have hissued := hearlier.owned.issued w (List.mem_filterMap.mpr ⟨_, hplaced, rfl⟩)
  -- the call is there without its waiter, so nobody has it
  have hfree : w ∉ ((create options).run (earlier ++ .turn t :: middle)).waiters := by
    rw [run_append] at here ⊢
    exact hearlier.parted_run (hearlier.named.task?_eq_some_iff.mp hwaiting) rfl _ (by omega) here nofun
  have hstill : w ∉ ((create options).run (earlier ++ .turn t :: middle ++ later)).waiters := by
    rw [run_append]
    exact hbefore.unowned_run (mem_issued_append _ hissued) hfree later (by omega)
  have hafter := booked_run options (earlier ++ .turn t :: middle ++ later) few
  exact ⟨hafter.gone_of_unowned (mem_issued_append _ (mem_issued_append _ hissued)) hstill, hstill⟩

/-- The call of which a cancellation is written found the request in the table. -/
theorem found_of_written {pre post : List Message} {m : Message}
    (apart : (create options).OneByOne actions) (few : (create options).idsTaken actions + 1 < 2 ^ 64)
    (hwire : ((create options).run actions).shared.wire = pre ++ m :: post) (hm : m.IsCancellation) :
    ∃ id, m = cancellation id ∧ ∃ t before middle later after,
      actions = before ++ .turn t :: (middle ++ .turn t :: later) ∧
        ((create options).run before).task? t = some (.cancelling id after) ∧
        ((create options).run before).Outstanding id ∧
        ((create options).run (before ++ .turn t :: middle)).shared.wire = pre := by
  obtain ⟨t, sofar, task, later, rfl, hplace, hpre, d, rfl⟩ := hadTurn_of_written options actions hwire
  rw [idsTaken_append] at few
  have hbefore := (oneByOne_append.mp apart).1
  have hless : (create options).idsTaken sofar + 1 < 2 ^ 64 := by omega
  have here := ((named_create options).run sofar).task?_eq_some_iff.mp hplace
  obtain ⟨id, after, heq⟩ := (heeded_run hbefore hless).called t _ here hm
  cases heq
  obtain ⟨before, task, middle, rfl, hfound, ⟨after', rfl⟩, hout⟩ :=
    found_of_notes hbefore hless here (.writing after)
  refine ⟨id, rfl, t, before, middle, later, after', ?_, hfound, hout, hpre⟩
  rw [List.append_assoc, List.cons_append]

/-- A cancellation stands on the wire once. -/
theorem not_mem_of_written {pre post : List Message} {m : Message}
    (apart : (create options).OneByOne actions) (few : (create options).idsTaken actions + 1 < 2 ^ 64)
    (hwire : ((create options).run actions).shared.wire = pre ++ m :: post) (hm : m.IsCancellation) :
    m ∉ pre ∧ m ∉ post := by
  have honce := (heeded_run apart few).once
  have hcons : (m :: post).filter (·.IsCancellation) = m :: post.filter (·.IsCancellation) :=
    List.filter_cons_of_pos (decide_eq_true hm)
  rw [hwire, List.filter_append, hcons, List.nodup_middle, List.nodup_cons, List.mem_append, not_or] at honce
  have hkept : ∀ {l : List Message}, m ∈ l → m ∈ l.filter (·.IsCancellation) :=
    fun hmem => List.mem_filter.mpr ⟨hmem, decide_eq_true hm⟩
  exact ⟨fun hmem => honce.1.1 (hkept hmem), fun hmem => honce.1.2 (hkept hmem)⟩

end Runs

/-- **Cancellations are sent once at most, and only for requests that are outstanding**, as long as calls do
not overlap. -/
theorem cancels_outstanding (options : SessionOptions) (actions : List Action)
    (apart : (create options).OneByOne actions) (few : (create options).idsTaken actions < 2 ^ 63 - 1) :
    CancelsOutstanding options actions := by
  have hfew : (create options).idsTaken actions + 1 < 2 ^ 64 := by omega
  have hnamed : ∀ done : List Action, ((create options).run done).Named := (named_create options).run
  have hlocked := locked_run options actions
  have hlast : ∀ (done : List Action) (a : Action), (create options).run (done ++ [a])
      = ((create options).run done).act a := fun done a => run_append _ done [a]
  constructor
  · intro pre m post hwire hm
    obtain ⟨id, rfl, t, before, middle, later, after, hsplit, hplace, hout, hpre⟩ :=
      found_of_written apart hfew hwire hm
    obtain ⟨hnotPre, hnotPost⟩ := not_mem_of_written apart hfew hwire hm
    have hbefore : (create options).OneByOne before := (oneByOne_append.mp (hsplit ▸ apart)).1
    have hless : (create options).idsTaken before + 1 < 2 ^ 64 := by
      rw [hsplit, idsTaken_append] at hfew
      omega
    have hlive := hout
    rw [Outstanding, (booked_run options before hless).calls_eq,
      (tracks_issues options before hless).exists_call_iff] at hlive
    obtain ⟨x, hx, hxlive, hxid⟩ := hlive
    refine ⟨id, rfl, hnotPre, hnotPost, t, before, middle, later, after, hsplit, hplace, hout,
      ⟨x, hx, hxid, hxlive⟩, ?_, ?_, hpre⟩
    · exact written_of_outstanding hbefore hless ((hnamed before).task?_eq_some_iff.mp hplace) rfl nofun hout
    · rw [← hpre, run_append]
      exact (hnamed before).wire_extends _
  · intro t id after hplace hout hphase hflow
    rw [run_append]
    exact (hnamed actions).wire_cancelled hplace hout hphase hflow
  · rintro before t later id after rfl hplace hout
    exact givenUp_run hfew hplace hout
  · rintro before t later rfl hplace
    exact nothing_left_of_late hfew hplace
  · intro id item rest hgone hplace hnext hanswers hgoes
    rw [hlast]
    exact hlocked.late (hnamed actions) hgone hplace hnext hanswers hgoes
  · intro id hgone
    have hnotFound : (((create options).run actions).shared.pending.cancel id).1 = false :=
      Bool.eq_false_iff.mpr fun hfound => hgone (cancel_found_iff.mp hfound)
    rw [run_append]
    show ((((create options).run actions).spawn (.called (.cancel id))).act (.turn _)).act (.turn _) = _
    rw [hlocked.act_spawned (hnamed actions) rfl .cancelBegun,
      hlocked.act_spawned (hnamed actions) rfl (.notFound hnotFound)]
    rfl
  · intro t id after hgone hplace
    rw [hlast]
    have hnotFound : (((create options).run actions).shared.pending.cancel id).1 = false :=
      Bool.eq_false_iff.mpr fun hfound => hgone (cancel_found_iff.mp hfound)
    exact hlocked.act_turn (hnamed actions) hplace rfl (.notFound hnotFound) rfl
  · rintro before middle t later id rfl hplace hphase
    have hsilenced : ((create options).run before).Silenced t := by
      have here := (hnamed before).task?_eq_some_iff.mp hplace
      refine ⟨(hnamed before).given t _ here, fun task there => ?_⟩
      exact (hnamed before).unique there here ▸ .inl ⟨.called id, hphase⟩
    obtain ⟨hbefore, hlater⟩ := oneByOne_append.mp apart
    have hstill := hsilenced.run (hnamed before) (alone_run hbefore) (oneByOne_append.mp hlater).1
    rw [← List.append_assoc, hlast, run_append]
    exact hstill.wire_eq ((hnamed before).run middle)
  · intro t id after hplace hphase
    rw [hlast]
    exact hlocked.act_turn (hnamed actions) hplace rfl (.unnoticed hphase) rfl

/-! ### An answer that is late -/

/-- A request is started and cancelled, and then the server answers it. -/
def answeredLate : List Action :=
  handshaken ++ .call (.start "x" none) :: List.replicate 4 (.turn 2) ++
    .call (.cancel (.number 2)) :: List.replicate 4 (.turn 3) ++
    [.arrive (Frame.bodyBytes (Message.encode (.response (.success (.number 2) .null)))), .turn readLoop,
      .await 2, .turn 2]

/-- The server is told once, and the answer is dropped. -/
theorem cancels_outstanding_answered_late :
    (create {}).OneByOne answeredLate ∧
      ((create {}).run answeredLate).shared.wire.map Message.method?
        = [some "initialize", some "initialized", some "x", some "$/cancelRequest"] ∧
      CancelsOutstanding {} answeredLate := by
  have apart : (create {}).OneByOne answeredLate := by decide +kernel
  exact ⟨apart, by decide +kernel, cancels_outstanding {} answeredLate apart (by decide +kernel)⟩

end Session

end LanguageClient
