import LanguageClient.Proofs.Session.Departure
import LanguageClient.Proofs.Session.Owing

/-!
# LanguageClient.Proofs.Session.Farewell -- how sessions come to their last words

A session speaks as long as no call closes it, and leaves when one does (`Session.Speaking`,
`Session.Leaving`). In a considerate run (`Session.Considerate`) a call opens or closes the session only while
no other has anything to say, so that one task is left to speak when the session leaves, and what it owes are
the last words.
-/

namespace LanguageClient

/-! ## Last words -/

/-- A message with which a session ends. -/
def Part.IsFarewell (p : Part) : Prop := p ∈ Role.closing.words

instance (p : Part) : Decidable p.IsFarewell := inferInstanceAs (Decidable (p ∈ Role.closing.words))

/-- What was said last and what is owed are the end of a conversation, or part of it. -/
def EndsBy (sent owed : List Part) : Prop :=
  ∃ said last, sent = said ++ last ∧ (∀ p ∈ said, ¬ p.IsFarewell) ∧ (last ++ owed).Sublist Role.closing.words

namespace EndsBy

variable {sent owed rest said before after : List Part}

theorem pays (h : EndsBy sent owed) (hpays : (said ++ rest).Sublist owed) : EndsBy (sent ++ said) rest := by
  obtain ⟨others, last, rfl, hothers, hwords⟩ := h
  refine ⟨others, last ++ said, List.append_assoc _ _ _, hothers, ?_⟩
  rw [List.append_assoc]
  exact (hpays.append_left last).trans hwords

theorem mono (h : EndsBy sent owed) (hless : rest.Sublist owed) : EndsBy sent rest :=
  List.append_nil sent ▸ h.pays hless

/-- Whatever was said after one of the last words is one of them. -/
theorem words (h : EndsBy sent owed) {p : Part} (hp : p.IsFarewell) (hsent : sent = before ++ p :: after) :
    (p :: after).Sublist Role.closing.words := by
  obtain ⟨others, last, rfl, hothers, hwords⟩ := h
  have hlast : last.Sublist Role.closing.words := (List.sublist_append_left _ _).trans hwords
  rcases List.append_eq_append_iff.mp hsent with ⟨more, -, rfl⟩ | ⟨more, heq, hmore⟩
  · exact (List.sublist_append_right _ _).trans hlast
  · cases more with
    | nil =>
      rw [hmore]
      exact hlast
    | cons q more =>
      -- the word would have been said before the end
      obtain ⟨rfl, -⟩ := List.cons.inj hmore
      exact absurd hp (hothers p (heq ▸ List.mem_append_right _ List.mem_cons_self))

theorem after_shutdown (h : EndsBy sent owed) (hsent : sent = before ++ .shutdown :: after) :
    after <+: [.exit] := by
  have hafter : after.Sublist [.exit] := (List.cons_sublist_cons).mp (h.words (by decide) hsent)
  rcases List.sublist_singleton.mp hafter with rfl | rfl
  · exact List.nil_prefix
  · exact List.prefix_rfl

theorem after_exit (h : EndsBy sent owed) (hsent : sent = before ++ .exit :: after) : after = [] := by
  have hwords := h.words (by decide) hsent
  rcases List.sublist_cons_iff.mp hwords with hexit | ⟨rest, heq, -⟩
  · exact List.sublist_nil.mp (List.cons_sublist_cons.mp hexit)
  · cases heq

theorem exit_once (h : EndsBy sent owed) : sent.count .exit ≤ 1 := by
  obtain ⟨others, last, rfl, hothers, hwords⟩ := h
  have hnone : others.count .exit = 0 := List.count_eq_zero.mpr fun hmem => hothers _ hmem (by decide)
  rw [List.count_append, hnone, Nat.zero_add]
  exact ((List.sublist_append_left _ _).trans hwords).count_le .exit

end EndsBy

/-! ## Modest tasks -/

/-- Callers do not say the last words by themselves. -/
def Call.IsModest : Call → Prop
  | .request method _ _ | .start method _ => ¬ (Part.request method).IsFarewell
  | .notify method _ => ¬ (Part.notification method).IsFarewell
  | _ => True

instance : (c : Call) → Decidable c.IsModest
  | .request method _ _ | .start method _ => inferInstanceAs (Decidable (¬ (Part.request method).IsFarewell))
  | .notify method _ => inferInstanceAs (Decidable (¬ (Part.notification method).IsFarewell))
  | .handshake | .shutdown | .cancel _ | .edit _ | .lookUp _ | .closed => .isTrue trivial

theorem DocumentOperation.not_farewell (o : DocumentOperation) : ¬ (Part.notification o.method).IsFarewell := by
  have hnames : ∀ method ∈ documentMethods, ¬ (Part.notification method).IsFarewell := by decide
  apply hnames
  cases o <;> simp [method, documentMethods]

/-- What the caller of a call wants to be said is none of the last words. -/
theorem Call.IsModest.entry {c : Call} (h : c.IsModest) {first : Task} (hentry : c.entry? = some first) :
    ∀ p ∈ first.owed, ¬ p.IsFarewell := by
  cases c with
  | request method params limit | start method params | notify method params =>
    cases hentry
    intro p hp
    exact List.mem_singleton.mp hp ▸ h
  | edit operation =>
    cases hentry
    intro p hp
    exact List.mem_singleton.mp hp ▸ operation.not_farewell
  | handshake | shutdown | cancel _ | lookUp _ | closed => cases hentry

namespace Task

/-- A task that does nothing for the end of the session. -/
structure Modest (task : Task) : Prop where
  call : ∀ c, task = .called c → c.IsModest
  owed : ∀ p ∈ task.owed, ¬ p.IsFarewell
  role : task.role? ≠ some .closing

/-- A task that has still to say something, or to do something for the session as a whole. -/
def isUnderWay (task : Task) : Bool := !task.owed.isEmpty || task.role?.isSome

variable {me : TaskId} {s : Shared} {task : Task} {p : Progress}

theorem owed_of_idle (h : task.isUnderWay = false) : task.owed = [] := by
  unfold isUnderWay at h
  simpa using (Bool.or_eq_false_iff.mp h).1

theorem underWay_of_role {r : Role} (h : task.role? = some r) : task.isUnderWay = true := by
  unfold isUnderWay
  rw [h, Option.isSome_some, Bool.or_true]

theorem takes?_of_role {r : Role} (h : task.role? = some r) : task.takes? s = none := by
  cases task with
  | called c => cases h
  | leavingReady => cases h
  | _ => rfl

theorem IsSequel.not_called {next : Task} (h : next.IsSequel) (c : Call) : next ≠ .called c := by
  cases h <;> nofun

/-- A call begins once. -/
theorem Steps.not_called (h : Steps me s task p) {next : Task} (hnext : p.next = some next) (c : Call) :
    next ≠ .called c := by
  cases h with
  | taken hentry hready =>
    rename_i call first
    cases hnext
    cases call <;> cases hentry <;> nofun
  | unregistered _ | left | settled _ =>
    cases hnext
    exact (Purpose.sequel_settled _ _).not_called c
  | notFound _ | unnoticed _ =>
    cases hnext
    exact (sequel_cancelled _).not_called c
  | written _ => exact (Sending.sequel_done hnext).not_called c
  | closed => exact (Aftermath.sequel_done hnext).not_called c
  | _ =>
    cases hnext
    try nofun

theorem Leaves.not_called {rest : List Task} (h : task.Leaves rest) {x : Task} (hx : x ∈ rest) (c : Call) :
    x ≠ .called c := by
  cases h.remnant hx <;> nofun

/-- Who does nothing for the end of the session says no last words, and does not come to it. -/
theorem Steps.modest (h : Steps me s task p) (hmodest : task.Modest) (hnot : task.takes? s ≠ some .closing) :
    (∃ said, p.shared.sent = s.sent ++ said ∧ ∀ q ∈ said, ¬ q.IsFarewell)
      ∧ ∀ next, p.next = some next → next.Modest := by
  have hsilent : p.shared.sent = s.sent →
      ∃ said, p.shared.sent = s.sent ++ said ∧ ∀ q ∈ said, ¬ q.IsFarewell :=
    fun hsent => ⟨[], hsent.trans (List.append_nil _).symm, nofun⟩
  have hwords : (∃ said, p.shared.sent = s.sent ++ said ∧ ∀ q ∈ said, ¬ q.IsFarewell)
      ∧ ∀ q ∈ p.owed, ¬ q.IsFarewell := by
    cases h.owes with
    | pays sent owed =>
      rename_i said
      exact ⟨⟨said, sent, fun q hq => hmodest.owed q (owed.subset (List.mem_append_left _ hq))⟩,
        fun q hq => hmodest.owed q (owed.subset (List.mem_append_right _ hq))⟩
    | takes role sent owed =>
      rename_i r
      refine ⟨hsilent sent, fun q hq => ?_⟩
      cases r with
      | closing => exact absurd role hnot
      | opening =>
        have hopening : ∀ q ∈ Role.opening.words, ¬ q.IsFarewell := by decide
        exact hopening q (owed.subset hq)
    | passes place entry ready sent next =>
      exact ⟨hsilent sent, Progress.owed_of_next next ▸ (hmodest.call _ place).entry entry⟩
    | notices ready place sent owed =>
      refine ⟨hsilent sent, fun q hq => ?_⟩
      rcases List.mem_cons.mp (owed ▸ hq) with rfl | hq
      · decide
      · exact hmodest.owed q (place ▸ hq)
  obtain ⟨hsaid, howed⟩ := hwords
  refine ⟨hsaid, fun next hnext => ⟨fun c heq => absurd heq (h.not_called hnext c), ?_, fun hclosing => ?_⟩⟩
  · exact Progress.owed_of_next hnext ▸ howed
  · rcases Option.or_eq_some_iff.mp (h.role_of_next hnext hclosing) with hrole | ⟨-, htakes⟩
    · exact hmodest.role hrole
    · exact hnot htakes

/-- What is left of a call does nothing for the end of the session. -/
theorem Leaves.modest {rest : List Task} (h : task.Leaves rest) (hmodest : task.Modest) {x : Task} (hx : x ∈ rest) :
    x.Modest where
  call := fun c heq => absurd heq (h.not_called hx c)
  owed := fun q hq => hmodest.owed q (h.owed.subset (List.mem_flatMap.mpr ⟨x, hx, hq⟩))
  role := h.role_closing hx

/-- The phase stays or the session terminates, if nobody takes a role and nothing is being opened. -/
theorem Steps.phase_kept (h : Steps me s task p) (htakes : task.takes? s = none)
    (hphase : s.lifecycle.phase ≠ .initializing) :
    p.shared.lifecycle.phase = s.lifecycle.phase ∨ p.shared.lifecycle.phase = .terminated := by
  cases h with
  | handshakeBegun hbefore _ | handshakeUnfit hbefore _ | leftReady hbefore =>
    exact absurd (htakes.symm.trans (if_pos hbefore)) (by simp)
  | becameReady hbefore => exact absurd hbefore hphase
  | terminated => exact .inr rfl
  | _ => exact .inl rfl

/-- Who begins to close the session owes the last words, or one of them. -/
theorem Steps.closes (h : Steps me s task p) (htakes : task.takes? s = some .closing) :
    p.shared.sent = s.sent ∧ p.owed.Sublist Role.closing.words ∧ p.next.bind role? = some .closing
      ∧ (p.shared.lifecycle.phase = .uninitialized ∨ p.shared.lifecycle.phase = .shuttingDown) := by
  cases h with
  | exitBegun hphase => exact ⟨rfl, List.sublist_cons_self _ _, rfl, .inl hphase⟩
  | leftReady hphase => exact ⟨rfl, List.Sublist.refl _, rfl, .inr rfl⟩
  | handshakeBegun hphase _ | handshakeUnfit hphase _ | handshakeRefused hphase | shutdownBegun hphase =>
    unfold takes? at htakes
    simp [hphase] at htakes
  | leftAlready hphase | notYetReady hphase =>
    unfold takes? at htakes
    rcases hphase with hphase | hphase <;> simp [hphase] at htakes
  | taken hentry hphase | notTaken hentry hphase =>
    rename_i c first
    cases c <;> cases hentry <;> cases htakes
  | _ => cases htakes

/-- The session is being shut down because somebody has begun to. -/
theorem Steps.shuttingDown (h : Steps me s task p) (hphase : p.shared.lifecycle.phase = .shuttingDown) :
    s.lifecycle.phase = .shuttingDown ∨ task.takes? s = some .closing := by
  cases h with
  | handshakeBegun _ _ | handshakeUnfit _ _ | becameReady _ | terminated => cases hphase
  | leftReady hready => exact .inr (if_pos hready)
  | _ => exact .inl hphase

end Task

namespace Session

variable {s s' : Session} {t u : TaskId} {task : Task} {a : Action}

/-! ## Considerate runs -/

/-- Callers do not say the last words by themselves, a session is opened or closed only while nobody else has
something to say or to do for it, and who closes a session that was never opened does not leave. -/
def Minds (s : Session) : Action → Prop
  | .call c => c.IsModest
  | .turn t => ((s.task? t).bind (Task.takes? s.shared)).isSome = true →
      ∀ x ∈ s.tasks, x.1 ≠ t → x.2.isUnderWay = false
  | .drop t => s.shared.lifecycle.phase = .uninitialized → ¬ s.IsClosing t
  | _ => True

instance (s : Session) : (a : Action) → Decidable (s.Minds a)
  | .call c => inferInstanceAs (Decidable c.IsModest)
  | .turn t => inferInstanceAs (Decidable (((s.task? t).bind (Task.takes? s.shared)).isSome = true →
      ∀ x ∈ s.tasks, x.1 ≠ t → x.2.isUnderWay = false))
  | .drop t => inferInstanceAs (Decidable (s.shared.lifecycle.phase = .uninitialized → ¬ s.IsClosing t))
  | .await _ | .collect _ | .arrive _ | .endInput _ | .breakOutflow | .pass _ => .isTrue trivial

/-- Everybody is considerate in a run. -/
def Considerate (s : Session) : List Action → Prop
  | [] => True
  | a :: rest => s.Minds a ∧ (s.act a).Considerate rest

instance Considerate.decide (s : Session) : (actions : List Action) → Decidable (s.Considerate actions)
  | [] => .isTrue trivial
  | a :: rest => @instDecidableAnd _ _ inferInstance (Considerate.decide (s.act a) rest)

/-! ## Speaking and leaving -/

/-- What the task of a name has still to say. -/
def owes (s : Session) (t : TaskId) : List Part := (s.task? t).elim [] Task.owed

theorem Named.owes_eq (hs : s.Named) (here : (t, task) ∈ s.tasks) : s.owes t = task.owed := by
  unfold owes
  rw [hs.task?_eq_some_iff.mpr here]
  rfl

theorem Named.owes_sublist (hs : s.Named) {parts : List Part}
    (h : ∀ task, (t, task) ∈ s.tasks → task.owed.Sublist parts) : (s.owes t).Sublist parts := by
  unfold owes
  cases htask : s.task? t with
  | none => exact List.nil_sublist _
  | some task => exact h task (hs.task?_eq_some_iff.mp htask)

/-- Nobody closes the session, and nothing was said of the last words. -/
structure Speaking (s : Session) : Prop where
  phase : s.shared.lifecycle.phase ≠ .shuttingDown
  modest : ∀ t task, (t, task) ∈ s.tasks → task.Modest
  sent : ∀ p ∈ s.shared.sent, ¬ p.IsFarewell

/-- At most one task has something to say, and this belongs to the last words. -/
structure Leaving (s : Session) (t : TaskId) : Prop where
  phase : s.shared.lifecycle.phase ≠ .ready ∧ s.shared.lifecycle.phase ≠ .initializing
  alone : ∀ u task, (u, task) ∈ s.tasks → u ≠ t → task.owed = []
  fresh : s.shared.lifecycle.phase = .uninitialized → ∃ task, (t, task) ∈ s.tasks ∧ task.role? = some .closing
  sent : EndsBy s.shared.sent (s.owes t)

theorem speaking_create (options : SessionOptions) : (create options).Speaking where
  phase := by
    show Phase.uninitialized ≠ .shuttingDown
    decide
  modest t task hmem := by
    cases List.mem_singleton.mp hmem
    exact ⟨nofun, nofun, nofun⟩
  sent := nofun

/-- A call begins to close the session. -/
theorem Speaking.leaves (h : s.Speaking) (hs : s.Named) {p : Progress} (step : task.Steps t s.shared p)
    (moved : Replaced s t task p.next (p.asked.toList.map .answering) (p.shared.after t p.next) s')
    (htakes : task.takes? s.shared = some .closing) (minds : s.Minds (.turn t)) : s'.Leaving t := by
  obtain ⟨hsent, howed, hrole, hphase⟩ := step.closes htakes
  have hagrees : Agrees p.shared s'.shared := moved.shared ▸ agrees_after _ _ _
  obtain ⟨next, hnext, hclosing⟩ := Option.bind_eq_some_iff.mp hrole
  have here : (t, next) ∈ s'.tasks := (hnext ▸ moved).mem_stay
  refine ⟨?_, fun u other hmem hu => ?_, fun _ => ⟨next, here, hclosing⟩, ?_⟩
  · rw [hagrees.lifecycle]
    rcases hphase with heq | heq <;> rw [heq] <;> decide
  · rcases moved.mem hmem with ⟨heq, -⟩ | ⟨hnew, -⟩ | ⟨hold, -⟩
    · exact absurd heq hu
    · obtain ⟨r, -, rfl⟩ := List.mem_map.mp hnew
      rfl
    · refine Task.owed_of_idle (minds ?_ (u, other) hold hu)
      rw [hs.task?_eq_some_iff.mpr moved.here, Option.bind_some, htakes]
      rfl
  · rw [hagrees.sent, hsent, (moved.named hs).owes_eq here, ← Progress.owed_of_next hnext]
    exact ⟨s.shared.sent, [], (List.append_nil _).symm, h.sent, howed⟩

theorem Speaking.happens (h : s.Speaking) (hs : s.Named) (happened : Happens s a s') (minds : s.Minds a) :
    s'.Speaking ∨ ∃ t, s'.Leaving t := by
  by_cases htakes : ∃ t task, a = .turn t ∧ (t, task) ∈ s.tasks ∧ task.takes? s.shared = some .closing
  · obtain ⟨t, task, rfl, here, htakes⟩ := htakes
    cases happened with
    | nothing => exact .inl h
    | turn step moved =>
      obtain rfl := hs.unique moved.here here
      exact .inr ⟨t, h.leaves hs step moved htakes minds⟩
  · have hnot : ∀ {t task}, a = .turn t → (t, task) ∈ s.tasks → task.takes? s.shared ≠ some .closing :=
      fun action here heq => htakes ⟨_, _, action, here, heq⟩
    have hmodest : ∀ {t task p}, a = .turn t → (t, task) ∈ s.tasks → task.Steps t s.shared p → _ :=
      fun action here step => step.modest (h.modest _ _ here) (hnot action here)
    refine .inl ⟨fun hphase => ?_, fun u task hmem => ?_, ?_⟩
    · rcases happened.changes with hsame | ⟨t, task, p, action, here, step, hsame⟩
      · exact h.phase (hsame.lifecycle ▸ hphase)
      · rcases step.shuttingDown (hsame.lifecycle ▸ hphase) with heq | heq
        · exact h.phase heq
        · exact hnot action here heq
    · cases happened.arises hmem with
      | stays here => exact h.modest u task here
      | called action new =>
        subst action
        exact ⟨fun c heq => Task.called.inj heq ▸ minds, nofun, nofun⟩
      | steps action here step next => exact (hmodest action here step).2 task next
      | left action here leaves mem new => exact leaves.modest (h.modest _ _ here) mem
      | asked new | awaited action here => exact ⟨nofun, nofun, nofun⟩
    · rcases happened.changes with hsame | ⟨t, task, p, action, here, step, hsame⟩
      · rw [hsame.sent]
        exact h.sent
      · obtain ⟨said, hsent, hsaid⟩ := (hmodest action here step).1
        rw [hsame.sent, hsent]
        intro q hq
        rcases List.mem_append.mp hq with hq | hq
        · exact h.sent q hq
        · exact hsaid q hq

/-- While the session leaves, nobody opens or closes it any more. -/
theorem Leaving.takes?_eq_none (h : s.Leaving t) (minds : s.Minds (.turn u)) (hs : s.Named)
    (here : (u, task) ∈ s.tasks) : task.takes? s.shared = none := by
  by_cases hphase : s.shared.lifecycle.phase = .uninitialized
  · obtain ⟨other, hmem, hrole⟩ := h.fresh hphase
    by_cases hu : t = u
    · subst hu
      obtain rfl := hs.unique here hmem
      exact Task.takes?_of_role hrole
    · by_contra htakes
      have hidle := minds (by
        rw [hs.task?_eq_some_iff.mpr here, Option.bind_some]
        exact Option.isSome_iff_ne_none.mpr htakes) (t, other) hmem hu
      exact absurd (hidle.symm.trans (Task.underWay_of_role hrole)) (by decide)
  · have hpast : s.shared.IsPast := by
      obtain ⟨hready, hinitializing⟩ := h.phase
      unfold Shared.IsPast
      generalize s.shared.lifecycle.phase = phase at *
      cases phase <;> simp_all
    exact hpast.takes?_eq_none task

/-- Who has nothing to say says nothing, and has nothing to say after a step. -/
theorem owed_of_pays {said rest : List Part} (h : (said ++ rest).Sublist task.owed) (howed : task.owed = []) :
    said = [] ∧ rest = [] := List.append_eq_nil_iff.mp (List.sublist_nil.mp (howed ▸ h))

/-- What the only task that speaks leaves behind, if its caller leaves, is one such task again. -/
theorem Leaving.drop (h : s.Leaving t) (hs : s.Named) {rest : List Task} (leaves : task.Leaves rest)
    (moved : Replaced s t task none rest (s.shared.after t none) s') (minds : s.Minds (.drop t)) :
    s'.Leaving s.nextTask := by
  have hagrees : Agrees s.shared s'.shared := moved.shared ▸ agrees_after _ _ _
  have hnew : ∀ u x, (u, x) ∈ underNames s.nextTask rest →
      x.owed = [] ∨ u = s.nextTask ∧ x.owed.Sublist task.owed := by
    intro u x hmem
    rcases leaves.cases_owed with rfl | ⟨first, more, rfl, hfirst, hmore⟩
    · cases hmem
    · rw [underNames_cons] at hmem
      rcases List.mem_cons.mp hmem with heq | hmem
      · cases heq
        exact .inr ⟨rfl, hfirst⟩
      · exact .inl (hmore x (mem_underNames hmem).1)
  have hall : ∀ u x, (u, x) ∈ s'.tasks → x.owed = [] ∨ u = s.nextTask ∧ x.owed.Sublist task.owed := by
    intro u x hmem
    rcases List.mem_append.mp (moved.tasks.mem_iff.mp hmem) with hnone | hmem
    · cases hnone
    · rcases List.mem_append.mp hmem with hmem | hother
      · exact hnew u x hmem
      · obtain ⟨hold, hu⟩ := mem_others.mp hother
        exact .inl (h.alone u x hold hu)
  refine ⟨hagrees.lifecycle ▸ h.phase, fun u x hmem hu => ?_, fun hphase => ?_, ?_⟩
  · exact (hall u x hmem).resolve_right fun hname => hu hname.1
  · rw [hagrees.lifecycle] at hphase
    exact absurd (hs.isClosing_iff.mpr (h.fresh hphase)) (minds hphase)
  · rw [hagrees.sent]
    refine h.sent.mono ((moved.named hs).owes_sublist fun x hmem => ?_)
    rw [hs.owes_eq moved.here]
    rcases hall _ x hmem with hnone | ⟨-, hless⟩
    · exact hnone ▸ List.nil_sublist _
    · exact hless

/-- While the session leaves, whoever takes a turn pays of what it owes. -/
theorem Leaving.pays (h : s.Leaving t) (minds : s.Minds (.turn u)) (hs : s.Named) {p : Progress}
    (here : (u, task) ∈ s.tasks) (step : task.Steps u s.shared p) :
    ∃ said, p.shared.sent = s.shared.sent ++ said ∧ (said ++ p.owed).Sublist task.owed :=
  step.pays (h.takes?_eq_none minds hs here) h.phase.1

theorem Leaving.phase_kept (h : s.Leaving t) (hs : s.Named) (happened : Happens s a s') (minds : s.Minds a) :
    s'.shared.lifecycle.phase = s.shared.lifecycle.phase ∨ s'.shared.lifecycle.phase = .terminated := by
  rcases happened.changes with hsame | ⟨u, task, p, rfl, here, step, hsame⟩
  · exact .inl (congrArg Lifecycle.phase hsame.lifecycle)
  · rw [hsame.lifecycle]
    exact step.phase_kept (h.takes?_eq_none minds hs here) h.phase.2

/-- Who has something to say afterwards is the one that speaks. -/
theorem Leaving.quiet (h : s.Leaving t) (hs : s.Named) (happened : Happens s a s') (minds : s.Minds a)
    (hdrop : a ≠ .drop t) (hmem : (u, task) ∈ s'.tasks) :
    (u, task) ∈ s.tasks ∨ task.owed = [] ∨ a = .turn t ∧ u = t := by
  cases happened.arises hmem with
  | stays here => exact .inl here
  | called action new | asked new | awaited action here => exact .inr (.inl rfl)
  | steps action here step next =>
    subst action
    by_cases hu : u = t
    · exact .inr (.inr ⟨hu ▸ rfl, hu⟩)
    · obtain ⟨said, -, howed⟩ := h.pays minds hs here step
      rw [← Progress.owed_of_next next]
      exact .inr (.inl (owed_of_pays howed (h.alone u _ here hu)).2)
  | left action here leaves mem new =>
    rename_i v before rest
    have hrest := leaves.owed
    rw [h.alone v before here fun heq => hdrop (heq ▸ action)] at hrest
    exact .inr (.inl (List.flatMap_eq_nil_iff.mp (List.sublist_nil.mp hrest) task mem))

theorem Leaving.sent_happens (h : s.Leaving t) (hs : s.Named) (happened : Happens s a s') (minds : s.Minds a)
    (hdrop : a ≠ .drop t) : EndsBy s'.shared.sent (s'.owes t) := by
  by_cases hturn : a = .turn t
  · subst hturn
    cases happened with
    | nothing => exact h.sent
    | turn step moved =>
      rename_i p
      obtain ⟨said, hsent, howed⟩ := h.pays minds hs moved.here step
      have hagrees : Agrees p.shared s'.shared := moved.shared ▸ agrees_after _ _ _
      unfold owes
      rw [hagrees.sent, hsent, moved.task?_self hs]
      exact EndsBy.pays (hs.owes_eq moved.here ▸ h.sent) howed
  · have hsame : s'.shared.sent = s.shared.sent := by
      rcases happened.changes with hsame | ⟨u, task, p, rfl, here, step, hsame⟩
      · exact hsame.sent
      · obtain ⟨said, hsent, howed⟩ := h.pays minds hs here step
        have hu : u ≠ t := fun heq => hturn (heq ▸ rfl)
        rw [hsame.sent, hsent, (owed_of_pays howed (h.alone u task here hu)).1, List.append_nil]
    rw [hsame]
    refine h.sent.mono ((happened.named hs).owes_sublist fun x hmem => ?_)
    rcases h.quiet hs happened minds hdrop hmem with here | howed | ⟨heq, -⟩
    · exact hs.owes_eq here ▸ List.Sublist.refl _
    · exact howed ▸ List.nil_sublist _
    · exact absurd heq hturn

/-- The session goes on leaving, and the task that may still speak pays of what it owes. -/
theorem Leaving.happens (h : s.Leaving t) (hs : s.Named) (hsealed : s.Sealed) (happened : Happens s a s')
    (minds : s.Minds a) : ∃ u, s'.Leaving u := by
  by_cases hdrop : a = .drop t
  · subst hdrop
    cases happened with
    | nothing => exact ⟨t, h⟩
    | drop leaves moved => exact ⟨s.nextTask, h.drop hs leaves moved minds⟩
  · have hphase := h.phase_kept hs happened minds
    refine ⟨t, ?_, fun u x hmem hu => ?_, fun hfresh => ?_, h.sent_happens hs happened minds hdrop⟩
    · rcases hphase with heq | heq
      · exact heq ▸ h.phase
      · rw [heq]
        decide
    · rcases h.quiet hs happened minds hdrop hmem with here | howed | ⟨-, heq⟩
      · exact h.alone u x here hu
      · exact howed
      · exact absurd heq hu
    · have hbefore : s.shared.lifecycle.phase = .uninitialized := by
        rcases hphase with heq | heq
        · exact heq.symm.trans hfresh
        · exact absurd (heq.symm.trans hfresh) (by decide)
      obtain ⟨task, here, hrole⟩ := h.fresh hbefore
      exact happened.stays_closing hs hsealed here hrole (by rw [hbefore]; decide) hdrop

/-! ## Considerate runs speak, and then leave -/

/-- In a considerate run the session speaks, or it leaves. -/
def Polite (s : Session) : Prop := s.Speaking ∨ ∃ t, s.Leaving t

theorem Polite.run (h : s.Polite) (hs : s.Named) (hsealed : s.Sealed) {actions : List Action}
    (considerate : s.Considerate actions) : (s.run actions).Polite := by
  induction actions generalizing s with
  | nil => exact h
  | cons a rest ih =>
    obtain ⟨minds, considerate⟩ := considerate
    have happened := hs.happens_act a
    refine ih ?_ (hs.act a) (hsealed.happens happened) considerate
    rcases h with hspeaking | ⟨t, hleaving⟩
    · exact hspeaking.happens hs happened minds
    · exact .inr (hleaving.happens hs hsealed happened minds)

end Session

end LanguageClient
