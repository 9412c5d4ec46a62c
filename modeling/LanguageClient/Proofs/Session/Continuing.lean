import LanguageClient.Proofs.Session.Speaking

/-!
# LanguageClient.Proofs.Session.Continuing -- how a call goes on

A step of a call that speaks where it may leads to a place where it may speak again, or the call is over and
the session at rest (`Task.Speaks.step`). The places that calls have in common are taken one by one first:
what follows an outcome, a cancellation, and a message that was written or was not.
-/

namespace LanguageClient

/-- A call goes on where it may speak, or it is over and the session at rest. -/
inductive Task.Continues (cut : Prop) (s : Shared) : Option Task → Prop
  | speaks {next : Task} (speaks : next.Speaks cut s) : Continues cut s (some next)
  | rests {next : Task} (quiet : next.IsQuiet) (rest : s.AtRest cut) : Continues cut s (some next)

variable {cut : Prop} {s s' : Shared}

theorem Task.Continues.calm {next : Option Task} (h : Task.Continues cut s next) (hcalm : Calm s s') :
    Task.Continues cut s' next := by
  cases h with
  | speaks hspeaks => exact .speaks (hspeaks.calm hcalm)
  | rests hquiet hrest => exact .rests hquiet (hcalm.atRest hrest)

/-! ## Sessions at rest -/

namespace Shared

theorem AtRest.of_phase (hallowed : IsAllowed cut s.sent)
    (hphase : s.lifecycle.phase ≠ .uninitialized ∧ s.lifecycle.phase ≠ .ready) : s.AtRest cut where
  allowed := hallowed
  fresh heq := absurd heq hphase.1
  opened heq := absurd heq hphase.2

theorem AtRest.of_terminated (hallowed : IsAllowed cut s.sent)
    (hphase : s.lifecycle.phase = .terminated) : s.AtRest cut :=
  .of_phase hallowed (by rw [hphase]; decide)

theorem AtRest.of_opened (hopened : IsOpened s.sent) (hphase : s.IsIn .ready) : s.AtRest cut where
  allowed := hopened.allowed
  fresh heq := by
    rcases hphase with hready | hover
    · exact absurd (heq.symm.trans hready) (by decide)
    · exact absurd (heq.symm.trans hover) (by decide)
  opened _ := hopened

end Shared

/-! ## What follows an outcome -/

namespace Purpose

variable {p : Purpose}

/-- The requests that are sent while the session is ready leave it opened. -/
theorem after_iff_opened (hp : p.home = .ready) : p.After s.sent ↔ IsOpened s.sent := by
  cases p with
  | handshake | shutdown => cases hp
  | result _ | waiter => exact .rfl

/-- A request that was sent has failed. -/
theorem After.failed (hp : p ≠ .shutdown) (hafter : p.After s.sent) : p.Failed cut s := by
  cases p with
  | handshake => exact .inr hafter
  | shutdown => exact absurd rfl hp
  | result _ | waiter => exact hafter

/-- A request was not sent because nothing can be sent any more, or because it was refused. -/
theorem Before.failed (hbefore : p.Before s.sent) (hp : p = .shutdown → s.outflow ≠ .flowing ∨ cut) :
    p.Failed cut s := by
  cases p with
  | handshake => exact .inl hbefore
  | shutdown => exact ⟨hbefore, hp rfl⟩
  | result _ | waiter => exact hbefore

theorem failed_continues (hphase : s.IsIn p.home) (hfailed : p.Failed cut s) (f : Fault) :
    Task.Continues cut s (some (p.failed f)) := by
  cases p with
  | handshake => exact .speaks (.terminating (.inl ⟨f, rfl⟩) hfailed.allowed)
  | shutdown => exact .speaks (.writing rfl (.inr (.inr hfailed)))
  | result _ | waiter => exact .rests (.finished _) (.of_opened hfailed hphase)

theorem settled_continues (hphase : s.IsIn p.home) (hafter : p.After s.sent) (outcome : Outcome) :
    Task.Continues cut s (some (p.settled outcome)) := by
  have hsettles := p.settles outcome
  generalize p.settled outcome = next at hsettles
  cases hsettles with
  | refused | unreadable => exact .speaks (.terminating (.inl ⟨_, rfl⟩) (hafter ▸ allowed_handshake))
  | accepted => exact .speaks (.writing rfl ⟨hphase, hafter⟩)
  | shutdown => exact .speaks (.writing rfl (.inr (.inl hafter)))
  | result | waiter => exact .rests (.finished _) (.of_opened hafter hphase)

/-- A request was sent. -/
theorem sent_continues (hphase : s.IsIn p.home) (hafter : p.After s.sent) (w : Waiter) :
    Task.Continues cut s (some (p.sent s w)) := by
  cases p with
  | handshake => exact .speaks (.waiting nofun nofun hphase hafter)
  | shutdown => exact .speaks (.waiting nofun (fun _ => rfl) hphase hafter)
  | result limit => exact .speaks (.waiting nofun nofun hphase hafter)
  | waiter => exact .rests (.finished _) (.of_opened hafter hphase)

end Purpose

/-! ## What follows a cancellation -/

theorem AfterCancel.continues {after : AfterCancel} (hfits : after.Fits cut s) :
    Task.Continues cut s (some (Task.cancelled after)) := by
  cases after with
  | none => exact .rests (.finished _) hfits
  | some pair =>
    obtain ⟨hp, hphase, hafter⟩ := hfits
    exact .speaks (.leaving hphase (hafter.failed hp))

/-- The server is told of a cancellation only while the session is ready. -/
theorem AfterCancel.Fits.notice {after : AfterCancel} (hfits : after.Fits cut s)
    (hphase : s.lifecycle.phase = .ready) : (Sending.cancellation after).Fits cut s := by
  cases after with
  | none => exact ⟨.inl hphase, hfits.opened hphase, nofun⟩
  | some pair =>
    obtain ⟨w, p⟩ := pair
    obtain ⟨-, hin, hafter⟩ := hfits
    have hhome : p.home = .ready := by
      rcases hin with heq | hover
      · exact heq.symm.trans hphase
      · exact absurd (hover.symm.trans hphase) (by decide)
    refine ⟨.inl hphase, (p.after_iff_opened hhome).mp hafter, fun v q heq => ?_⟩
    cases heq
    exact hhome

/-- The server was told of a cancellation, or could not be. -/
theorem AfterCancel.Fits.noticed {after : AfterCancel} (hfits : (Sending.cancellation after).Fits cut s) :
    after.Fits cut s := by
  obtain ⟨hphase, hopened, hhome⟩ := hfits
  cases after with
  | none => exact .of_opened hopened hphase
  | some pair =>
    obtain ⟨w, p⟩ := pair
    have hready : p.home = .ready := hhome w p rfl
    refine ⟨?_, hready ▸ hphase, (p.after_iff_opened hready).mpr hopened⟩
    rintro rfl
    cases hready

/-! ## What follows a message -/

namespace Sending

/-- The message was written. -/
theorem written_continues {d : Sending} {m : Message} (hcarries : d.Carries m)
    (hfits : d.Fits cut s) (hflow : s.outflow = .flowing)
    (hsent : s'.sent = s.sent ++ m.part?.toList) (hlifecycle : s'.lifecycle = s.lifecycle) :
    Task.Continues cut s' (d.done s' (.ok ())) := by
  have isIn : ∀ {phase : Phase}, s.IsIn phase → s'.IsIn phase := by
    intro phase hphase
    rwa [Shared.IsIn, hlifecycle]
  have opened : ∀ n : Notification, m = .notification n → n.method ∉ reserved → IsOpened s.sent →
      IsOpened s'.sent := by
    rintro n rfl hn hopened
    exact hsent ▸ hopened.append hn
  cases d with
  | request w p =>
    obtain ⟨hphase, hbefore⟩ := hfits
    obtain ⟨r, rfl, hnames⟩ := hcarries
    refine Purpose.sent_continues (isIn hphase) ?_ w
    cases p with
    | handshake =>
      have hmethod : r.method = "initialize" := hnames
      show s'.sent = [.handshake]
      rw [hsent, show s.sent = [] from hbefore]
      exact congrArg (fun method => [Part.request method]) hmethod
    | shutdown =>
      have hmethod : r.method = "shutdown" := hnames
      refine ⟨s.sent, hbefore, hsent.trans ?_⟩
      exact congrArg (fun method => s.sent ++ [Part.request method]) hmethod
    | result _ | waiter =>
      show IsOpened s'.sent
      exact hsent ▸ IsOpened.append hbefore hnames
  | initialized result =>
    cases hcarries
    exact .speaks (.recording (isIn hfits.1) (hsent.trans (congrArg (· ++ _) hfits.2)))
  | exit answer =>
    cases hcarries
    refine .speaks (.closingOutflow ?_)
    rw [hsent]
    -- alone, after its request, or, if the request was refused, without it
    rcases hfits with hnil | ⟨ps, hopened, hshutdown⟩ | ⟨hopened, hbroken | hcut⟩
    · exact hnil ▸ allowed_exit
    · exact hshutdown ▸ .inl hopened.conversation
    · exact absurd hflow hbroken
    · exact hopened.allowed_cut hcut
  | notification | document answer =>
    obtain ⟨n, hm, hn⟩ := hcarries
    exact .rests (.finished _) (.of_opened (opened n hm hn hfits.2) (isIn hfits.1))
  | cancellation after =>
    obtain ⟨n, hm, hn⟩ := hcarries
    exact AfterCancel.continues (.noticed ⟨isIn hfits.1, opened n hm hn hfits.2.1, hfits.2.2⟩)
  | loose => exact hfits.elim

/-- The message could not be written. -/
theorem unwritten_continues {d : Sending} (hfits : d.Fits cut s) (hbroken : s.outflow ≠ .flowing)
    (f : Fault) : Task.Continues cut s (d.done s (.error f)) := by
  cases d with
  | request w p => exact .speaks (.rejecting hfits.1 (hfits.2.failed fun _ => .inl hbroken))
  | initialized result => exact .speaks (.terminating (.inl ⟨f, rfl⟩) hfits.allowed)
  | exit answer => exact .speaks (.closingOutflow hfits.allowed)
  | notification | document answer => exact .rests (.finished _) (.of_opened hfits.2 hfits.1)
  | cancellation after => exact AfterCancel.continues (.noticed hfits)
  | loose => exact hfits.elim

end Sending

/-! ## One step of a call -/

/-- A call that is taken while the session is ready. -/
theorem Call.entry_speaks {c : Call} {task : Task} (hordinary : c.IsOrdinary)
    (hentry : c.entry? = some task) (hphase : s.IsIn .ready) (hopened : IsOpened s.sent) :
    task.Speaks cut s := by
  cases c with
  | request method params limit | start method params =>
    cases hentry
    exact .numbering hordinary hphase hopened
  | notify method params =>
    cases hentry
    exact .writing ⟨_, rfl, hordinary⟩ ⟨hphase, hopened⟩
  | edit operation =>
    cases hentry
    exact .locking hphase hopened
  | handshake | shutdown | cancel _ | lookUp _ | closed => cases hentry

/-- The notifications of documents are none of the reserved ones. -/
theorem DocumentNotice.method_notification (n : DocumentNotice) : n.notification.method ∉ reserved := by
  have hnames : ∀ method ∈ [Method.didOpen.name, Method.didChange.name, Method.didSave.name,
      Method.didClose.name], method ∉ reserved := by decide
  apply hnames
  cases n <;> simp [notification, NotificationMethod.notification]

theorem cancel_not_reserved (params : CancelParams) :
    (Method.cancel.notification params).method ∉ reserved := by
  show Method.cancel.name ∉ reserved
  decide

/-- The request that ends the session is refused by the table of calls. -/
def Task.IsRefused (task : Task) (s : Shared) : Prop :=
  ∃ id method params f, task = .registering id method params .shutdown ∧
    s.pending.register id method = .error f

/-- **A call goes on where it may speak, or it is over and the session at rest.** -/
theorem Task.Speaks.step {task : Task} (h : task.Speaks cut s) {me : TaskId} {p : Progress}
    (step : Steps me s task p) (hcut : task.IsRefused s → cut) : Continues cut p.shared p.next := by
  cases h with
  | called ordinary rest =>
    cases step with
    | handshakeBegun hphase _ => exact .speaks (.numbering rfl (.inl rfl) (rest.fresh hphase))
    | handshakeUnfit _ _ => exact .speaks (.terminating (.inl ⟨_, rfl⟩) rest.allowed)
    | exitBegun hphase => exact .speaks (.writing rfl (.inl (rest.fresh hphase)))
    | shutdownBegun hphase => exact .speaks (.leavingReady rest)
    | taken hentry hphase =>
      exact .speaks (Call.entry_speaks ordinary hentry (.inl hphase) (rest.opened hphase))
    | cancelBegun => exact .speaks (.cancelling rest)
    | handshakeRefused _ | notTaken _ _ | lookedUp _ | sawEnd _ => exact .rests (.finished _) rest
  | numbering names phase before =>
    cases step with
    | numbered => exact (Continues.speaks (.registering names phase before)).calm (.of_eq rfl rfl rfl)
  | registering names phase before =>
    cases step with
    | registered _ =>
      rename_i w pending hregister
      have fits : (Sending.request w _).Fits cut s := ⟨phase, before⟩
      refine (Continues.speaks (.writing ?_ fits)).calm (.of_eq rfl rfl rfl)
      exact ⟨_, rfl, names⟩
    | unregistered hrefused =>
      -- of the requests that are refused only the last is followed by another message
      refine Purpose.failed_continues phase (before.failed ?_) _
      rintro rfl
      exact .inr (hcut ⟨_, _, _, _, rfl, hrefused⟩)
  | writing carries fits =>
    cases step with
    | written hflow => exact Sending.written_continues carries fits hflow (s.sent_write _) rfl
    | unwritten hbroken => exact .speaks (.unwritten hbroken fits)
  | rejecting phase failed =>
    cases step with
    | rejected => exact (Continues.speaks (.leaving phase failed)).calm (.of_eq rfl rfl rfl)
  | leaving phase failed =>
    cases step with
    | left => exact (Purpose.failed_continues phase failed _).calm (.of_eq rfl rfl rfl)
  | waiting hp unlimited phase after =>
    cases step with
    | settled _ => exact (Purpose.settled_continues phase after _).calm (.of_eq rfl rfl rfl)
    | timedOut _ _ =>
      -- the last request has all the time it takes
      refine .speaks (.cancelling ⟨?_, phase, after⟩)
      rintro rfl
      cases unlimited rfl
  | cancelling fits =>
    cases step with
    | cancelled _ => exact (Continues.speaks (.noticing fits)).calm (.of_eq rfl rfl rfl)
    | notFound _ => exact AfterCancel.continues fits
  | noticing fits =>
    cases step with
    | noticed hready => exact .speaks (.writing ⟨_, rfl, cancel_not_reserved _⟩ (fits.notice hready))
    | unnoticed _ => exact AfterCancel.continues fits
  | recording phase sent =>
    cases step with
    | recorded => exact .speaks (.entering phase sent)
  | entering phase sent =>
    have opened : IsOpened s.sent := sent ▸ opened_initialized
    cases step with
    | becameReady hphase => exact .rests (.finished _) (.of_opened opened (.inl rfl))
    | notInitializing hphase =>
      exact .rests (.finished _) (.of_opened opened (.inr (phase.resolve_left hphase)))
  | leavingReady rest =>
    cases step with
    | leftReady hphase => exact .speaks (.numbering rfl (.inl rfl) (rest.opened hphase))
    | leftAlready _ | notYetReady _ => exact .rests (.finished _) rest
  | closingOutflow allowed =>
    cases step with
    | outflowClosed _ _ => exact .speaks (.terminating (.inr ⟨_, rfl⟩) allowed)
  | locking phase opened =>
    cases step with
    | locked _ => exact (Continues.speaks (.editing phase opened)).calm (.of_eq rfl rfl rfl)
  | editing phase opened =>
    cases step with
    | edited _ =>
      rename_i n documents happly
      have fits : (Sending.document n.answer).Fits cut s := ⟨phase, opened⟩
      refine (Continues.speaks (.writing ?_ fits)).calm (.of_eq rfl rfl rfl)
      exact ⟨_, rfl, n.method_notification⟩
    | notEdited _ => exact .rests (.finished _) (.of_opened opened phase)
  | unwritten outflow fits =>
    cases step with
    | terminated =>
      have hcalm : Calm s { s with lifecycle := s.lifecycle.terminate } := ⟨rfl, .inr rfl, fun _ => rfl, id⟩
      exact .speaks (.unwrittenClosing rfl outflow (hcalm.sending fits))
  | terminating ends allowed =>
    cases step with
    | terminated => exact .speaks (.closing ends rfl allowed)
  | unwrittenClosing phase outflow fits =>
    have hcalm : Calm s { s with pending := s.pending.close } := .of_eq rfl rfl rfl
    cases step with
    | closed => exact Sending.unwritten_continues (hcalm.sending fits) outflow _
  | closing ends phase allowed =>
    cases step with
    | closed =>
      have hrest : s.AtRest cut := .of_terminated allowed phase
      rcases ends with ⟨f, rfl⟩ | ⟨answer, rfl⟩ <;>
        exact (Continues.rests (.finished _) hrest).calm (.of_eq rfl rfl rfl)

end LanguageClient
