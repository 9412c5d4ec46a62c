import LanguageClient.Proofs.Session.Outstanding
import LanguageClient.Proofs.Session.TimeUp

/-!
# LanguageClient.Proofs.Session.Cancelling -- how the server is told that a request is not wanted

A `$/cancelRequest` begins at one place (`Task.Steps.cancels`), where the table has just lost the entry of its
id. From there on, and as long as it stands on the wire, the id is not in the table (`Session.Heeded`), so that
no second one can begin for it. `found_of_notes` and `hadTurn_of_written` say at which turns a message was
decided on and written.
-/

namespace LanguageClient

/-! ## Messages and their methods -/

/-- The message that tells the server that a request is not wanted any more. -/
def cancellation (id : Id) : Message := .notification (Method.cancel.notification ⟨id⟩)

/-- The id is all that the params say. -/
theorem cancellation_eq (id : Id) : cancellation id
    = .notification { method := "$/cancelRequest", params := some (.object [("id", id.toJson)]) } := rfl

theorem Id.toJson_injective {i j : Id} (h : i.toJson = j.toJson) : i = j := by
  cases i <;> cases j <;> simp [Id.toJson, Int64.toInt_inj] at h
  all_goals rw [h]

theorem cancellation_injective {i j : Id} (h : cancellation i = cancellation j) : i = j := by
  rw [cancellation_eq, cancellation_eq] at h
  apply Id.toJson_injective
  simpa using h

/-- The method that a message calls, if it is not a response. -/
def Message.method? : Message → Option String
  | .request r => some r.method
  | .notification n => some n.method
  | .response _ => none

/-- A message tells the server that a request is not wanted, whatever it says else. -/
def Message.IsCancellation (m : Message) : Prop := m.method? = some Method.cancel.name

instance (m : Message) : Decidable m.IsCancellation :=
  inferInstanceAs (Decidable (m.method? = some Method.cancel.name))

theorem isCancellation_cancellation (id : Id) : (cancellation id).IsCancellation := rfl

namespace Task

/-- The method that is about to be called. -/
def method? : Task → Option String
  | .called c => c.method?
  | .numbering method _ _ | .registering _ method _ _ => some method
  | .writing m _ => m.method?
  | _ => none

/-- The server is about to be told that a request is not wanted. -/
inductive Notes (id : Id) : Task → Prop
  | noticing (after : AfterCancel) : Notes id (.noticing id after)
  | writing (after : AfterCancel) : Notes id (.writing (LanguageClient.cancellation id) (.cancellation after))

end Task

/-! ## Where cancellations begin -/

theorem Purpose.method?_settled (p : Purpose) (outcome : Outcome) :
    (p.settled outcome).method? ≠ some Method.cancel.name := by
  have hsettles := p.settles outcome
  generalize p.settled outcome = next at hsettles
  cases hsettles with
  | refused | unreadable | result | waiter => exact nofun
  | accepted =>
    show some Method.initialized.name ≠ some Method.cancel.name
    decide
  | shutdown =>
    show some Method.exit.name ≠ some Method.cancel.name
    decide

theorem Task.method?_cancelled (after : AfterCancel) : (Task.cancelled after).method? = none := by
  cases after <;> rfl

theorem Sending.method?_done {d : Sending} {s : Shared} {r : Except Fault Unit} {next : Task}
    (hnext : d.done s r = some next) : next.method? = none := by
  cases d with
  | request w p =>
    rcases r with f | _ <;> cases hnext
    · rfl
    · cases p <;> rfl
  | initialized result => rcases r with f | _ <;> cases hnext <;> rfl
  | exit answer | notification | document answer =>
    cases hnext
    rfl
  | cancellation after =>
    cases hnext
    exact Task.method?_cancelled after
  | loose => cases hnext

theorem Aftermath.method?_done {a : Aftermath} {s : Shared} {next : Task} (hnext : a.done s = some next) :
    next.method? = none := by
  cases a with
  | write f d => exact Sending.method?_done hnext
  | handshake f | exit answer =>
    cases hnext
    rfl
  | abandoned | ended => cases hnext

theorem DocumentNotice.method_ne_cancel (n : DocumentNotice) : n.notification.method ≠ Method.cancel.name := by
  cases n <;> simp only [notification, NotificationMethod.notification] <;> decide

namespace Task

variable {me : TaskId} {s : Shared} {task : Task} {p : Progress}

/-- A cancellation is about to be written because its request has left the table, and for nothing else that
is not called so by a caller. -/
theorem Steps.cancels (h : Steps me s task p) {next : Task} (hnext : p.next = some next)
    (hm : next.method? = some Method.cancel.name) : task.method? = some Method.cancel.name ∨
      ∃ id after, task = .noticing id after ∧ next = .writing (cancellation id) (.cancellation after) := by
  cases h with
  | taken hentry hready =>
    rename_i c first
    cases hnext
    cases c <;> cases hentry <;> exact .inl hm
  | numbered | registered _ =>
    cases hnext
    exact .inl hm
  | unregistered _ | left | settled _ =>
    cases hnext
    exact absurd hm (Purpose.method?_settled _ _)
  | notFound _ | unnoticed _ =>
    cases hnext
    cases (method?_cancelled _).symm.trans hm
  | written _ => cases (Sending.method?_done hnext).symm.trans hm
  | closed => cases (Aftermath.method?_done hnext).symm.trans hm
  | noticed _ =>
    cases hnext
    exact .inr ⟨_, _, rfl, rfl⟩
  | edited _ =>
    cases hnext
    exact absurd (Option.some.inj hm) (DocumentNotice.method_ne_cancel _)
  | handshakeBegun _ _ =>
    have hname : some Method.handshake.name ≠ some Method.cancel.name := by decide
    cases hnext
    exact absurd hm hname
  | exitBegun _ =>
    have hname : some Method.exit.name ≠ some Method.cancel.name := by decide
    cases hnext
    exact absurd hm hname
  | leftReady _ =>
    have hname : some Method.shutdown.name ≠ some Method.cancel.name := by decide
    cases hnext
    exact absurd hm hname
  | _ => cases hnext <;> cases hm

/-- A request is about to be given up on the wire because it was found in the table. -/
theorem Steps.notices (h : Steps me s task p) {id : Id} {after : AfterCancel}
    (hnext : p.next = some (.noticing id after)) :
    task = .cancelling id after ∧ (s.pending.cancel id).1 = true
      ∧ p.shared.pending = (s.pending.cancel id).2 ∧ p.shared.wire = s.wire := by
  have hsequel : ¬ (noticing id after).IsSequel := nofun
  cases h with
  | cancelled hfound =>
    cases hnext
    exact ⟨rfl, hfound, rfl, rfl⟩
  | taken hentry hready =>
    rename_i c first
    cases hnext
    cases c <;> cases hentry
  | unregistered _ | left | settled _ =>
    exact absurd (Option.some.inj hnext ▸ Purpose.sequel_settled _ _) hsequel
  | notFound _ | unnoticed _ => exact absurd (Option.some.inj hnext ▸ sequel_cancelled _) hsequel
  | written _ => exact absurd (Sending.sequel_done hnext) hsequel
  | closed => exact absurd (Aftermath.sequel_done hnext) hsequel
  | _ => cases hnext

theorem Notes.needsSession {id : Id} (h : task.Notes id) : task.needsSession = true := by
  cases h <;> rfl

/-- Nothing is said of a request that is not wanted. -/
def CancelsNothing (task : Task) : Prop := task.method? ≠ some Method.cancel.name ∧ ∀ id, ¬ task.Notes id

theorem IsQuiet.cancelsNothing (h : task.IsQuiet) : task.CancelsNothing := by
  constructor
  · cases h <;> exact nofun
  · intro id hnotes
    have hneeds := hnotes.needsSession
    rw [h.needsSession] at hneeds
    cases hneeds

end Task

namespace Session

/-! ## Cancellations and the table -/

/-- What stands on the wire, or is about to, goes with the table. -/
structure Heeded (b : CallBook) (s : Session) : Prop where
  called : ∀ t task, (t, task) ∈ s.tasks → task.method? = some Method.cancel.name →
    ∃ id after, task = .writing (cancellation id) (.cancellation after)
  noted : ∀ t task id, (t, task) ∈ s.tasks → task.Notes id →
    b.Knows id ∧ ¬ s.Outstanding id ∧ cancellation id ∉ s.shared.wire
  told : ∀ m ∈ s.shared.wire, m.IsCancellation →
    ∃ id, m = cancellation id ∧ b.Knows id ∧ ¬ s.Outstanding id
  once : (s.shared.wire.filter (·.IsCancellation)).Nodup

variable {k : Nat} {b : CallBook} {s s' : Session} {t : TaskId} {task : Task} {id : Id}

theorem heeded_create (options : SessionOptions) : (create options).Heeded {} where
  called t task hmem hm := by
    cases List.mem_singleton.mp hmem
    cases hm
  noted t task id hmem hnotes := by
    cases List.mem_singleton.mp hmem
    cases hnotes
  told := nofun
  once := List.nodup_nil

/-- What says nothing of cancellations leaves all as it is. -/
theorem Heeded.still (hs : s.Heeded b) {b' : CallBook}
    (hgone : ∀ id, b.Knows id → ¬ s.Outstanding id → b'.Knows id ∧ ¬ s'.Outstanding id)
    (hkept : ∀ t task, (t, task) ∈ s'.tasks → (t, task) ∈ s.tasks ∨ task.CancelsNothing)
    (hwire : s'.shared.wire = s.shared.wire) : s'.Heeded b' where
  called t task hmem hm := by
    rcases hkept t task hmem with here | hnothing
    · exact hs.called t task here hm
    · exact absurd hm hnothing.1
  noted t task id hmem hnotes := by
    rcases hkept t task hmem with here | hnothing
    · obtain ⟨hknows, hout, hnew⟩ := hs.noted t task id here hnotes
      obtain ⟨hknows', hout'⟩ := hgone id hknows hout
      exact ⟨hknows', hout', hwire ▸ hnew⟩
    · exact absurd hnotes (hnothing.2 id)
  told m hm hcancels := by
    obtain ⟨id, heq, hknows, hout⟩ := hs.told m (hwire ▸ hm) hcancels
    exact ⟨id, heq, hgone id hknows hout⟩
  once := hwire ▸ hs.once

/-- A cancellation that is about to be written was decided on in the step before. -/
theorem Heeded.noticed (hs : s.Heeded b) (here : (t, task) ∈ s.tasks) {p : Progress}
    (step : task.Steps t s.shared p) {next : Task} (hnext : p.next = some next)
    (hm : next.method? = some Method.cancel.name) :
    ∃ id after, task = .noticing id after ∧ next = .writing (cancellation id) (.cancellation after) := by
  refine (step.cancels hnext hm).resolve_left fun hbefore => ?_
  obtain ⟨id, after, rfl⟩ := hs.called t task here hbefore
  cases step with
  | written _ =>
    cases hnext
    cases (Task.method?_cancelled after).symm.trans hm
  | unwritten _ =>
    cases hnext
    cases hm

/-- The entry that is found is taken out, and its id has not been cancelled before. -/
theorem Heeded.found (hs : s.Heeded b) (h : s.Booked k b) (hfound : (s.shared.pending.cancel id).1 = true) :
    b.Knows id ∧ s.Outstanding id ∧ (∀ c ∈ (s.shared.pending.cancel id).2.calls, c.id ≠ id)
      ∧ cancellation id ∉ s.shared.wire := by
  have hout : s.Outstanding id := cancel_found_iff.mp hfound
  refine ⟨?_, hout, ?_, ?_⟩
  · obtain ⟨c, hc, rfl⟩ := hout
    exact ⟨c.waiter, h.issued_of_entry hc, rfl⟩
  · intro c hc
    exact ((PendingCalls.mem_settle_calls h.tableSound).mp hc).2
  · intro hmem
    obtain ⟨id', heq, -, hgone⟩ := hs.told _ hmem (isCancellation_cancellation id)
    exact hgone (cancellation_injective heq ▸ hout)

theorem Heeded.turn (hs : s.Heeded b) (h : s.Booked k b) (alone : s.Alone) {p : Progress} {b' : CallBook}
    (hgone : ∀ id, b.Knows id → ¬ s.Outstanding id → b'.Knows id ∧ ¬ s'.Outstanding id)
    (hknown : ∀ id, b.Knows id → b'.Knows id) (step : task.Steps t s.shared p)
    (moved : Replaced s t task p.next (p.asked.toList.map .answering) (p.shared.after t p.next) s') :
    s'.Heeded b' := by
  have hagrees : Agrees p.shared s'.shared := moved.shared ▸ agrees_after _ _ _
  constructor
  · refine moved.forall_tasks (fun next hnext hm => ?_) (fun u next hmem _ hm => ?_)
      fun u other there _ => hs.called u other there
    · obtain ⟨id, after, -, rfl⟩ := hs.noticed moved.here step hnext hm
      exact ⟨id, after, rfl⟩
    · obtain ⟨r, -, rfl⟩ := List.mem_map.mp hmem
      cases hm
  · intro u x id hmem hnotes
    rw [hagrees.wire]
    rcases moved.mem hmem with ⟨rfl, hnext⟩ | ⟨hnew, -⟩ | ⟨there, hne⟩
    · cases hnotes with
      | noticing after =>
        obtain ⟨rfl, hfound, hpending, hwire⟩ := step.notices hnext
        obtain ⟨hknows, -, hout, hunsaid⟩ := hs.found h hfound
        refine ⟨hknown id hknows, ?_, hwire ▸ hunsaid⟩
        rintro ⟨c, hc, hid⟩
        rw [hagrees.pending, hpending] at hc
        exact hout c hc hid
      | writing after =>
        obtain ⟨id', after', rfl, heq⟩ := hs.noticed moved.here step hnext (isCancellation_cancellation id)
        obtain rfl := cancellation_injective (Task.writing.inj heq).1
        obtain ⟨hknows, hout, hunsaid⟩ := hs.noted u _ id moved.here (.noticing after')
        rcases step.writes with hwire | ⟨m, d, hwriting, -⟩
        · exact ⟨hknown id hknows, (hgone id hknows hout).2, hwire ▸ hunsaid⟩
        · cases hwriting
    · obtain ⟨r, -, rfl⟩ := List.mem_map.mp hnew
      cases hnotes
    · obtain ⟨hknows, hout, hunsaid⟩ := hs.noted u x id there hnotes
      refine ⟨hknown id hknows, (hgone id hknows hout).2, ?_⟩
      rcases step.writes with hwire | ⟨m, d, rfl, hwire⟩
      · exact hwire ▸ hunsaid
      · -- what is written beside a call that goes on is a response
        have hquiet := alone.beside there hnotes.needsSession moved.here (Ne.symm hne)
        rw [hwire, List.mem_append]
        rintro (hmem | hmem)
        · exact hunsaid hmem
        · cases hquiet
          cases List.mem_singleton.mp hmem
  · intro m hm hcancels
    rw [hagrees.wire] at hm
    have hold : m ∈ s.shared.wire → ∃ id, m = cancellation id ∧ b'.Knows id ∧ ¬ s'.Outstanding id := by
      intro hm
      obtain ⟨id, heq, hknows, hout⟩ := hs.told m hm hcancels
      exact ⟨id, heq, hgone id hknows hout⟩
    rcases step.writes with hwire | ⟨m', d, rfl, hwire⟩
    · exact hold (hwire ▸ hm)
    · rw [hwire] at hm
      rcases List.mem_append.mp hm with hm | hm
      · exact hold hm
      · obtain rfl := List.mem_singleton.mp hm
        obtain ⟨id, after, heq⟩ := hs.called t _ moved.here hcancels
        obtain ⟨hknows, hout, -⟩ := hs.noted t _ id moved.here (heq ▸ .writing after)
        exact ⟨id, (Task.writing.inj heq).1, hgone id hknows hout⟩
  · rw [hagrees.wire]
    rcases step.writes with hwire | ⟨m, d, rfl, hwire⟩
    · exact hwire ▸ hs.once
    · rw [hwire, List.filter_append]
      by_cases hcancels : m.IsCancellation
      · obtain ⟨id, after, heq⟩ := hs.called t _ moved.here hcancels
        obtain ⟨-, -, hunsaid⟩ := hs.noted t _ id moved.here (heq ▸ .writing after)
        obtain rfl := (Task.writing.inj heq).1
        have hone : [cancellation id].filter (·.IsCancellation) = [cancellation id] := by simp [hcancels]
        rw [hone, List.nodup_append]
        refine ⟨hs.once, List.nodup_singleton _, fun x hx y hy => ?_⟩
        rintro rfl
        obtain rfl := List.mem_singleton.mp hy
        exact hunsaid (List.mem_of_mem_filter hx)
      · have hnone : [m].filter (·.IsCancellation) = [] := by simp [hcancels]
        rw [hnone, List.append_nil]
        exact hs.once

/-- **Cancellations go with the table, as long as calls do not overlap.** -/
theorem Heeded.act (hs : s.Heeded b) (h : s.Booked k b) (alone : s.Alone) {a : Action}
    (permits : s.Permits a) : (s.act a).Heeded (b.book (s.booking? a)) := by
  have happened := h.named.happens_act a
  have hgone : ∀ id, b.Knows id → ¬ s.Outstanding id →
      (b.book (s.booking? a)).Knows id ∧ ¬ (s.act a).Outstanding id :=
    fun id hknows hout => ⟨hknows.book _, h.gone_act hknows hout a⟩
  have hknown : ∀ id, b.Knows id → (b.book (s.booking? a)).Knows id := fun id hknows => hknows.book _
  generalize b.book (s.booking? a) = b' at hgone hknown
  generalize s.act a = s' at happened hgone
  cases happened with
  | turn step moved => exact hs.turn h alone hgone hknown step moved
  | nothing | arrive _ | endInput _ | breakOutflow _ | pass _ => exact hs.still hgone (fun _ _ => .inl) rfl
  | call c =>
    refine hs.still hgone (fun t task hmem => ?_) rfl
    refine (List.mem_append.mp hmem).imp_right fun hnew => ?_
    cases List.mem_singleton.mp hnew
    exact ⟨permits.1, nofun⟩
  | drop leaves moved =>
    have hagrees := moved.shared ▸ agrees_after _ _ _
    refine hs.still hgone (fun t task hmem => ?_) hagrees.wire
    rcases moved.mem hmem with ⟨-, hnone⟩ | ⟨hleft, -⟩ | ⟨there, -⟩
    · cases hnone
    · exact .inr (alone.left_quiet moved.here permits leaves task hleft).cancelsNothing
    · exact .inl there
  | await moved =>
    refine hs.still hgone (fun t task hmem => ?_) (congrArg Shared.wire moved.shared)
    rcases moved.mem hmem with ⟨-, hnext⟩ | ⟨hnew, -⟩ | ⟨there, -⟩
    · cases hnext
      exact .inr (Task.IsQuiet.waiting _).cancelsNothing
    · cases hnew
    · exact .inl there
  | collect _ moved =>
    refine hs.still hgone (fun t task hmem => ?_) (congrArg Shared.wire moved.shared)
    rcases moved.mem hmem with ⟨-, hnone⟩ | ⟨hnew, -⟩ | ⟨there, -⟩
    · cases hnone
    · cases hnew
    · exact .inl there

/-! ## Turns at which something was written -/

/-- What is on the wire stays there, at its place. -/
theorem Happens.wire_extends {a : Action} (h : Happens s a s') : s.shared.wire <+: s'.shared.wire := by
  rcases h.changes with hsame | ⟨t, task, p, -, -, step, hsame⟩
  · exact hsame.wire ▸ List.prefix_rfl
  · rcases step.writes with heq | ⟨m, d, -, heq⟩
    · exact (hsame.wire.trans heq) ▸ List.prefix_rfl
    · exact (hsame.wire.trans heq) ▸ List.prefix_append _ _

theorem Named.wire_extends (hs : s.Named) (actions : List Action) :
    s.shared.wire <+: (s.run actions).shared.wire := by
  induction actions generalizing s with
  | nil => exact List.prefix_rfl
  | cons a rest ih => exact (hs.happens_act a).wire_extends.trans (ih (hs.act a))

/-- A message on the wire was written at a turn of its own, after those that stand before it. -/
theorem hadTurn_of_written (options : SessionOptions) (actions : List Action) {pre post : List Message}
    {m : Message} (hwire : ((create options).run actions).shared.wire = pre ++ m :: post) :
    ∃ t, HadTurn options actions t fun s task => s.shared.wire = pre ∧ ∃ d, task = .writing m d := by
  induction actions using List.reverseRecOn generalizing post with
  | nil => exact absurd hwire.symm (List.append_ne_nil_of_right_ne_nil _ (List.cons_ne_nil _ _))
  | append_singleton actions a ih =>
    have hnamed := (named_create options).run actions
    have happened := hnamed.happens_act a
    have hold : ∀ {post : List Message}, ((create options).run actions).shared.wire = pre ++ m :: post →
        ∃ t, HadTurn options (actions ++ [a]) t fun s task => s.shared.wire = pre ∧ ∃ d, task = .writing m d := by
      intro post hbefore
      obtain ⟨t, hturn⟩ := ih hbefore
      exact ⟨t, hturn.append [a]⟩
    rw [run_append] at hwire
    rcases happened.changes with hsame | ⟨t, task, p, rfl, here, step, hsame⟩
    · exact hold (hsame.wire.symm.trans hwire)
    · replace hwire := hsame.wire.symm.trans hwire
      rcases step.writes with heq | ⟨last, d, rfl, heq⟩
      · exact hold (heq.symm.trans hwire)
      · rw [heq] at hwire
        rcases List.eq_nil_or_concat post with rfl | ⟨post', last', rfl⟩
        · -- the message is the one that was written last
          obtain ⟨hpre, hlast⟩ := List.append_inj' hwire rfl
          obtain rfl := List.singleton_inj.mp hlast
          exact ⟨t, hadTurn_last (hnamed.task?_eq_some_iff.mpr here) ⟨hpre, d, rfl⟩⟩
        · rw [List.concat_eq_append, ← List.cons_append, ← List.append_assoc] at hwire
          exact hold (List.append_inj' hwire rfl).1

/-! ## Runs in which calls do not overlap -/

section OneByOne

variable {options : SessionOptions}

/-- What one action more keeps, while calls do not overlap, is kept in a run. -/
theorem oneByOne_induction {P : List Action → Prop} (begins : P [])
    (goesOn : ∀ actions a, (create options).OneByOne actions → (create options).idsTaken actions + 1 < 2 ^ 64 →
      ((create options).run actions).Permits a → P actions → P (actions ++ [a]))
    {actions : List Action} (apart : (create options).OneByOne actions)
    (few : (create options).idsTaken actions + 1 < 2 ^ 64) : P actions := by
  induction actions using List.reverseRecOn with
  | nil => exact begins
  | append_singleton actions a ih =>
    obtain ⟨hbefore, hpermits, -⟩ := oneByOne_append.mp apart
    rw [idsTaken_append] at few
    have hless : (create options).idsTaken actions + 1 < 2 ^ 64 := by omega
    exact goesOn actions a hbefore hless hpermits (ih hbefore hless)

variable {actions : List Action} (apart : (create options).OneByOne actions)
  (few : (create options).idsTaken actions + 1 < 2 ^ 64)

include apart

theorem alone_run : ((create options).run actions).Alone :=
  (alone_create options).run (named_create options) apart

include few

theorem posted_run : ((create options).run actions).Posted := by
  refine oneByOne_induction (P := fun actions => ((create options).run actions).Posted) ?_ ?_ apart few
  · rintro id ⟨c, hc, -⟩
    cases hc
  · intro actions a _ hless hpermits ih
    rw [run_append]
    have h := booked_run options actions hless
    exact ih.happens h (h.named.happens_act a) hpermits

theorem heeded_run :
    ((create options).run actions).Heeded (CallBook.run {} ((create options).bookings actions)) := by
  refine oneByOne_induction (P := fun actions => ((create options).run actions).Heeded
    (CallBook.run {} ((create options).bookings actions))) (heeded_create options) ?_ apart few
  intro actions a hbefore hless hpermits ih
  rw [run_append, bookings_append, CallBook.run_append]
  show (((create options).run actions).act a).Heeded (CallBook.run _ (Option.toList _ ++ []))
  rw [List.append_nil]
  exact ih.act (booked_run options actions hless) (alone_run hbefore) hpermits

/-- What is found outstanding is on the wire, as who finds it is the only one who could be sending it. -/
theorem written_of_outstanding (here : (t, task) ∈ ((create options).run actions).tasks)
    (hneeds : task.needsSession = true) (hidle : ¬ task.Sends id)
    (hout : ((create options).run actions).Outstanding id) : ((create options).run actions).HasWritten id := by
  refine (posted_run apart few id hout).resolve_right ?_
  rintro ⟨u, other, there, hsends⟩
  have hsame : u = t := (alone_run apart).single u t other task there here (by cases hsends <;> rfl) hneeds
  subst hsame
  exact hidle (((named_create options).run actions).unique there here ▸ hsends)

/-- A cancellation that is about to be written was decided on where its request was found in the table. -/
theorem found_of_notes (here : (t, task) ∈ ((create options).run actions).tasks) (hnotes : task.Notes id) :
    HadTurn options actions t fun s task => (∃ after, task = .cancelling id after) ∧ s.Outstanding id := by
  refine oneByOne_induction (P := fun actions => ∀ t task, (t, task) ∈ ((create options).run actions).tasks →
    task.Notes id → HadTurn options actions t fun s task =>
      (∃ after, task = .cancelling id after) ∧ s.Outstanding id) ?_ ?_ apart few t task here hnotes
  · intro t task here hnotes
    cases List.mem_singleton.mp here
    cases hnotes
  · intro actions a hbefore hless hpermits ih t task here hnotes
    have h := booked_run options actions hless
    have hs := heeded_run hbefore hless
    rw [run_append] at here
    cases (h.named.happens_act a).arises here with
    | stays before => exact (ih t task before hnotes).append [a]
    | steps action there step next =>
      subst action
      cases hnotes with
      | noticing after =>
        obtain ⟨rfl, hfound, -, -⟩ := step.notices next
        exact hadTurn_last (h.named.task?_eq_some_iff.mpr there) ⟨⟨after, rfl⟩, (hs.found h hfound).2.1⟩
      | writing after =>
        obtain ⟨id', after', rfl, heq⟩ := hs.noticed there step next (isCancellation_cancellation id)
        obtain rfl := cancellation_injective (Task.writing.inj heq).1
        exact (ih t _ there (.noticing after')).append [.turn t]
    | left action there leaves mem _ =>
      subst action
      exact absurd hnotes (((alone_run hbefore).left_quiet there hpermits leaves task mem).cancelsNothing.2 id)
    | called _ _ | asked _ | awaited _ _ => cases hnotes

end OneByOne

end Session

end LanguageClient
