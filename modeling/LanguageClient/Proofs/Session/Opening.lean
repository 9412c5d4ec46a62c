import LanguageClient.Proofs.Session.Beginning
import LanguageClient.Proofs.Session.Notices
import LanguageClient.Proofs.Session.Sealing

/-!
# LanguageClient.Proofs.Session.Opening -- a session is opened wholly or not at all

A handshake that comes too late is refused and does nothing. One that is begun ends in one of two ways: the
session is ready and what the server said of itself is known, or the session has terminated, its table of
calls is closed and empty, and nobody waits (`opening_whole`). The latter is the end at once if the client can
say nothing of itself (`SessionOptions.handshakeParams_eq_error_iff`). Up to the end exactly one task opens the
session, and nobody uses it (`Session.Course`); when the caller of the handshake leaves, what is left of it fails
the connection (`Session.Doomed`).
-/

namespace LanguageClient

/-! ## What the client says of itself -/

/-- There are params for the handshake unless the root path leads on from a working directory that is not known,
or that is not itself a path from the root. -/
theorem SessionOptions.handshakeParams_eq_error_iff {o : SessionOptions} {f : Fault} :
    o.handshakeParams = .error f ↔
      ∃ path, o.rootPath = some path ∧ FileUri.isAbsolute (Text.bytes path) = false
        ∧ ((∃ cause, o.workingDirectory = .error cause ∧ f = .io cause)
          ∨ ∃ directory, o.workingDirectory = .ok directory ∧ FileUri.isAbsolute directory = false
            ∧ f = .decode (.noUri path)) := by
  unfold handshakeParams rootUri
  cases o.rootPath with
  | none => simp [Except.map]
  | some path =>
    simp only [FileUri.ofPath, FileUri.absolute, Option.some.injEq, exists_eq_left']
    cases FileUri.isAbsolute (Text.bytes path) with
    | true => simp [Except.map]
    | false =>
      cases o.workingDirectory with
      | error cause => simp [Except.map, eq_comm (a := f)]
      | ok directory => cases hroot : FileUri.isAbsolute directory <;> simp [Except.map, hroot, eq_comm (a := f)]

/-- What the caller is told when there are no params. -/
theorem SessionOptions.handshakeFault_eq {o : SessionOptions} {f : Fault} (h : o.handshakeParams = .error f) :
    Purpose.handshakeFault f = .initializationFailed f.message := by
  obtain ⟨path, -, -, ⟨cause, -, rfl⟩ | ⟨directory, -, -, rfl⟩⟩ := handshakeParams_eq_error_iff.mp h <;> rfl

namespace Session

/-! ## The course of an opening -/

/-- A call that opens the session is under way. -/
def IsOpening (s : Session) (t : TaskId) : Prop := (s.task? t).bind Task.role? = some .opening

instance (s : Session) (t : TaskId) : Decidable (s.IsOpening t) :=
  inferInstanceAs (Decidable ((s.task? t).bind Task.role? = some .opening))

/-- The session has terminated and its connection was failed, before it was ever ready. -/
structure Failed (s : Session) : Prop where
  phase : s.shared.lifecycle.phase = .terminated
  closed : s.shared.pending.closed = true
  calls : s.shared.pending.calls = []
  waiters : ∀ t task, (t, task) ∈ s.tasks → task.waiter? = none

/-- No call opens the session, which is new, or has terminated and was never ready. -/
structure Idle (s : Session) : Prop where
  phase : s.shared.lifecycle.phase = .uninitialized ∧ s.shared.lifecycle.result = none
    ∨ s.shared.lifecycle.phase = .terminated
  aside : ∀ t task, (t, task) ∈ s.tasks → task.isAside = true

/-- One call opens the session. -/
structure Going (s : Session) (t : TaskId) (task : Task) : Prop where
  here : (t, task) ∈ s.tasks
  role : task.role? = some .opening
  phase : s.shared.lifecycle.phase = .initializing ∨ s.shared.lifecycle.phase = .terminated
  result : s.shared.lifecycle.result = task.recorded?
  beside : ∀ u other, (u, other) ∈ s.tasks → u ≠ t → other.isAside = true

/-- The session was opened. -/
structure Opened (s : Session) (r : InitializeResult) : Prop where
  phase : s.shared.lifecycle.phase ≠ .uninitialized ∧ s.shared.lifecycle.phase ≠ .initializing
  result : s.shared.lifecycle.result = some r
  roles : ∀ t task, (t, task) ∈ s.tasks → task.role? ≠ some .opening

/-- A session is opened at most once, by one call. -/
inductive Course (s : Session) : Prop
  | idle (h : s.Idle)
  | going {t : TaskId} {task : Task} (h : s.Going t task)
  | opened {r : InitializeResult} (h : s.Opened r)

variable {s s' : Session} {t u : TaskId} {task : Task} {p : Progress} {a : Action}

/-- What comes of places beside the opening, if none of them begins it. -/
theorem Arises.aside (h : Arises s a u task) (hready : s.shared.lifecycle.phase ≠ .ready)
    (hbegins : a = .turn u → (u, .called .handshake) ∈ s.tasks → s.shared.lifecycle.phase ≠ .uninitialized)
    (hbefore : ∀ v before, (v, before) ∈ s.tasks → v = u ∨ a = .drop v → before.isAside = true) :
    task.isAside = true := by
  cases h with
  | stays here => exact hbefore _ _ here (.inl rfl)
  | called action new | asked new => rfl
  | steps action here step next =>
    cases step.aside (hbefore _ _ here (.inl rfl)) hready with
    | begins place phase => exact absurd phase (hbegins action (place ▸ here))
    | stays hnext => exact hnext _ next
  | left action here leaves mem new => exact leaves.aside (hbefore _ _ here (.inr action)) _ mem
  | awaited action here => cases hbefore _ _ here (.inl rfl)

/-- What comes of the phase and the result, if nobody takes a step but beside the opening. -/
theorem Happens.lifecycle_aside (h : Happens s a s') (hready : s.shared.lifecycle.phase ≠ .ready)
    (hturn : ∀ t task, a = .turn t → (t, task) ∈ s.tasks → task.isAside = true
      ∧ (task = .called .handshake → s.shared.lifecycle.phase ≠ .uninitialized)) :
    s'.shared.lifecycle.result = s.shared.lifecycle.result
      ∧ (s'.shared.lifecycle.phase = s.shared.lifecycle.phase ∨ s'.shared.lifecycle.phase = .terminated) := by
  rcases h.changes with hsame | ⟨t, task, p, action, here, step, hsame⟩
  · rw [hsame.lifecycle]
    exact ⟨rfl, .inl rfl⟩
  · obtain ⟨haside, hbegins⟩ := hturn t task action here
    rw [hsame.lifecycle]
    cases step.aside haside hready with
    | begins place phase => exact absurd phase (hbegins place)
    | stays _ result phase => exact ⟨result, phase⟩

theorem Idle.not_ready (h : s.Idle) : s.shared.lifecycle.phase ≠ .ready := by
  rcases h.phase with ⟨hphase, -⟩ | hphase <;> rw [hphase] <;> decide

theorem Going.not_ready (h : s.Going t task) :
    s.shared.lifecycle.phase ≠ .ready ∧ s.shared.lifecycle.phase ≠ .uninitialized := by
  rcases h.phase with hphase | hphase <;> rw [hphase] <;> decide

theorem Idle.happens (h : s.Idle) (hs : s.Named) (happened : Happens s a s') : s'.Idle ∨
    ∃ t task, a = .turn t ∧ s.shared.lifecycle.phase = .uninitialized
      ∧ s'.shared.lifecycle.phase = .initializing ∧ s'.Going t task := by
  by_cases hbegins : ∃ t, a = .turn t ∧ (t, .called .handshake) ∈ s.tasks
      ∧ s.shared.lifecycle.phase = .uninitialized
  · obtain ⟨t, rfl, hcalled, hphase⟩ := hbegins
    cases happened with
    | nothing => exact .inl h
    | turn step moved =>
      rename_i task p
      obtain rfl := hs.unique moved.here hcalled
      cases step with
      | taken hentry _ | notTaken hentry _ => cases hentry
      | handshakeRefused hne => exact absurd hphase hne
      | handshakeBegun _ _ | handshakeUnfit _ _ =>
        have hresult : s.shared.lifecycle.result = none := by
          rcases h.phase with ⟨-, hresult⟩ | hover
          · exact hresult
          · exact absurd (hphase.symm.trans hover) (by decide)
        have hlifecycle : s'.shared.lifecycle = s.shared.lifecycle.enter .initializing :=
          congrArg Shared.lifecycle moved.shared
        refine .inr ⟨t, _, rfl, hphase, by rw [hlifecycle]; rfl, moved.mem_stay, rfl, ?_, ?_, ?_⟩
        · rw [hlifecycle]
          exact .inl rfl
        · rw [hlifecycle]
          exact hresult
        · intro u other hmem hu
          rcases moved.mem hmem with ⟨heq, -⟩ | ⟨hnew, -⟩ | ⟨hold, -⟩
          · exact absurd heq hu
          · cases hnew
          · exact h.aside u other hold
  · have hnone : ∀ t, a = .turn t → (t, .called .handshake) ∈ s.tasks →
        s.shared.lifecycle.phase ≠ .uninitialized :=
      fun t action hcalled hphase => hbegins ⟨t, action, hcalled, hphase⟩
    obtain ⟨hresult, hphase⟩ := happened.lifecycle_aside h.not_ready fun t task action here =>
      ⟨h.aside t task here, fun place => hnone t action (place ▸ here)⟩
    refine .inl ⟨?_, fun u task hmem => ?_⟩
    · rw [hresult]
      rcases hphase with heq | heq
      · rw [heq]
        exact h.phase
      · exact .inr heq
    · exact (happened.arises hmem).aside h.not_ready (hnone u) fun v before here _ => h.aside v before here

/-- What goes on beside the opening leaves it as it is. -/
theorem Going.happens (h : s.Going t task) (hs : s.Named) (happened : Happens s a s')
    (hturn : a ≠ .turn t) (hdrop : a ≠ .drop t) : s'.Going t task := by
  have hover : task.isOver = false := by
    cases task with
    | finished answer => exact absurd h.role nofun
    | _ => rfl
  obtain ⟨hresult, hphase⟩ := happened.lifecycle_aside h.not_ready.1 fun u other action here =>
    ⟨h.beside u other here fun heq => hturn (heq ▸ action), fun _ => h.not_ready.2⟩
  refine ⟨happened.stays hs h.here hover hturn hdrop, h.role, ?_, hresult.trans h.result, ?_⟩
  · rcases hphase with heq | heq
    · rw [heq]
      exact h.phase
    · exact .inr heq
  · intro u other hmem hu
    refine (happened.arises hmem).aside h.not_ready.1 (fun _ _ => h.not_ready.2) ?_
    rintro v before here hv
    refine h.beside v before here ?_
    rintro rfl
    rcases hv with heq | heq
    · exact hu heq.symm
    · exact hdrop heq

/-- What a turn of the call that opens the session leads to. -/
theorem Going.turn (h : s.Going t task) (hs : s.Named) (hsealed : s.Sealed) (step : task.Steps t s.shared p)
    (moved : Replaced s t task p.next (p.asked.toList.map .answering) (p.shared.after t p.next) s') :
    (∃ after, p.next = some after ∧ s'.Going t after)
      ∨ (∃ r, p.next = some (.finished (.ok (.server r))) ∧ s'.shared.lifecycle.phase = .ready ∧ s'.Opened r)
      ∨ (p.next = none ∨ ∃ f, p.next = some (.finished (.error f))) ∧ s'.Idle
        ∧ s'.shared.lifecycle.phase = .terminated ∧ (s'.shared.pending.closed = true
          ∨ task.isClosing = false ∧ s.shared.lifecycle.phase = .terminated
            ∧ s'.shared.pending = s.shared.pending) := by
  obtain ⟨holder, hafter⟩ := p.shared.after_eq t p.next
  have hshared : s'.shared = { p.shared with documentsHolder := holder } := moved.shared.trans hafter
  have hbeside : ∀ u other, (u, other) ∈ s'.tasks → u ≠ t → other.isAside = true := by
    intro u other hmem hu
    rcases moved.mem hmem with ⟨heq, -⟩ | ⟨hnew, -⟩ | ⟨hold, -⟩
    · exact absurd heq hu
    · obtain ⟨r, -, rfl⟩ := List.mem_map.mp hnew
      rfl
    · exact h.beside u other hold hu
  have hself : ∀ {next : Task}, (t, next) ∈ s'.tasks → p.next = some next := fun hmem =>
    (moved.task?_self hs).symm.trans ((moved.named hs).task?_eq_some_iff.mpr hmem)
  have hidle : (p.next = none ∨ ∃ f, p.next = some (.finished (.error f))) →
      s'.shared.lifecycle.phase = .terminated → s'.Idle := by
    refine fun hends hphase => ⟨.inr hphase, fun u other hmem => ?_⟩
    by_cases hu : u = t
    · subst hu
      rcases hends with hnone | ⟨f, hnext⟩
      · exact absurd ((hself hmem).symm.trans hnone) (by simp)
      · obtain rfl := Option.some.inj ((hself hmem).symm.trans hnext)
        rfl
    · exact hbeside u other hmem hu
  cases step.opens h.role h.phase h.result fun a heq => hsealed.closing t a (heq ▸ h.here) with
  | goesOn next role phase result =>
    exact .inl ⟨_, next, (next ▸ moved).mem_stay, role, hshared ▸ phase, hshared ▸ result, hbeside⟩
  | opens next before phase result =>
    have hready : s'.shared.lifecycle.phase = .ready := hshared ▸ phase
    refine .inr (.inl ⟨_, next, hready, ?_, hshared ▸ result, fun u other hmem => ?_⟩)
    · rw [hready]
      decide
    · by_cases hu : u = t
      · subst hu
        obtain rfl := Option.some.inj ((hself hmem).symm.trans next)
        nofun
      · exact Task.role?_of_aside (hbeside u other hmem hu)
  | fails next before place same =>
    have hphase : s'.shared.lifecycle.phase = .terminated := by
      rw [hshared, same]
      exact before
    refine .inr (.inr ⟨.inr ⟨_, next⟩, hidle (.inr ⟨_, next⟩) hphase, hphase, .inr ⟨place, before, ?_⟩⟩)
    rw [hshared, same]
  | closes next phase closed =>
    have hphase : s'.shared.lifecycle.phase = .terminated := hshared ▸ phase
    exact .inr (.inr ⟨next, hidle next hphase, hphase, .inl (hshared ▸ closed)⟩)

/-- What is left when the caller of the opening is gone. -/
theorem Going.drop (h : s.Going t task) {rest : List Task} (leaves : task.Leaves rest)
    (moved : Replaced s t task none rest (s.shared.after t none) s') :
    ∃ u last, s'.Going u last ∧ 0 < last.doom ∧ last.doom ≤ 3 := by
  obtain ⟨beside, last, rfl, haside, hdoom, hle⟩ := leaves.opening h.role
  obtain ⟨holder, hafter⟩ := s.shared.after_eq t none
  have hlifecycle : s'.shared.lifecycle = s.shared.lifecycle := by rw [moved.shared, hafter]
  have htasks : s'.tasks.Perm (underNames s.nextTask (beside ++ [last]) ++ s.others t) := moved.tasks
  obtain ⟨hrole, hrecorded⟩ := Task.role?_of_doom hdoom
  refine ⟨s.nextTask + beside.length, last, ⟨?_, hrole, hlifecycle ▸ h.phase, ?_, ?_⟩, hdoom, hle⟩
  · exact htasks.mem_iff.mpr (List.mem_append_left _ (mem_underNames_concat.mpr (.inr ⟨rfl, rfl⟩)))
  · rw [hlifecycle, h.result, hrecorded]
    cases task with
    | entering r => cases leaves
    | _ => rfl
  · intro u other hmem hu
    rcases List.mem_append.mp (htasks.mem_iff.mp hmem) with hnew | hold
    · rcases mem_underNames_concat.mp hnew with hbeside | ⟨heq, -⟩
      · exact haside other (mem_underNames hbeside).1
      · exact absurd heq hu
    · obtain ⟨hold, hne⟩ := mem_others.mp hold
      exact h.beside u other hold hne

theorem Opened.happens {r : InitializeResult} (h : s.Opened r) (happened : Happens s a s') : s'.Opened r := by
  have hstep : ∀ {v : TaskId} {before : Task} {p : Progress}, (v, before) ∈ s.tasks →
      before.Steps v s.shared p → _ := fun here step => step.past h.phase (h.roles _ _ here)
  have hlifecycle : (s'.shared.lifecycle.phase ≠ .uninitialized ∧ s'.shared.lifecycle.phase ≠ .initializing)
      ∧ s'.shared.lifecycle.result = some r := by
    rcases happened.changes with hsame | ⟨t, task, p, -, here, step, hsame⟩
    · rw [hsame.lifecycle]
      exact ⟨h.phase, h.result⟩
    · rw [hsame.lifecycle]
      obtain ⟨hphase, hresult, -⟩ := hstep here step
      exact ⟨hphase, hresult.trans h.result⟩
  refine ⟨hlifecycle.1, hlifecycle.2, fun u task hmem => ?_⟩
  cases happened.arises hmem with
  | stays here => exact h.roles u task here
  | called action new | asked new | awaited action here => nofun
  | steps action here step next => exact (hstep here step).2.2 task next
  | left action here leaves mem new =>
    rename_i v before rest
    intro hrole
    have hroles := (Task.Recasts.left leaves).roles
    have hmem' : Role.opening ∈ rest.filterMap Task.role? := List.mem_filterMap.mpr ⟨task, mem, hrole⟩
    rw [hroles] at hmem'
    obtain ⟨x, hx, hopening⟩ := List.mem_filterMap.mp (List.mem_filter.mp hmem').1
    exact h.roles v before here (List.mem_singleton.mp hx ▸ hopening)

/-! ## All that is kept -/

/-- What every session keeps, whatever happens. -/
structure Proper (s : Session) : Prop where
  named : s.Named
  sealed : s.Sealed
  locked : s.Locked
  ending : s.Ending
  emptied : s.Emptied
  course : s.Course

theorem proper_create (options : SessionOptions) : (create options).Proper where
  named := named_create options
  sealed := sealed_create options
  locked := locked_create options
  ending := nofun
  emptied := nofun
  course := by
    refine .idle ⟨.inl ⟨rfl, rfl⟩, fun t task hmem => ?_⟩
    cases List.mem_singleton.mp hmem
    rfl

theorem Course.happens (h : s.Course) (hs : s.Named) (hsealed : s.Sealed) (happened : Happens s a s') :
    s'.Course := by
  cases h with
  | idle h =>
    rcases h.happens hs happened with hidle | ⟨t, task, -, -, -, hgoing⟩
    · exact .idle hidle
    · exact .going hgoing
  | opened h => exact .opened (h.happens happened)
  | going h =>
    rename_i t task
    by_cases hturn : a = .turn t
    · subst hturn
      cases happened with
      | nothing => exact .going h
      | turn step moved =>
        obtain rfl := hs.unique moved.here h.here
        rcases h.turn hs hsealed step moved with ⟨after, -, hgoing⟩ | ⟨r, -, -, hopened⟩ | ⟨-, hidle, -⟩
        · exact .going hgoing
        · exact .opened hopened
        · exact .idle hidle
    · by_cases hdrop : a = .drop t
      · subst hdrop
        cases happened with
        | nothing => exact .going h
        | drop leaves moved =>
          obtain rfl := hs.unique moved.here h.here
          obtain ⟨u, last, hgoing, -⟩ := h.drop leaves moved
          exact .going hgoing
      · exact .going (h.happens hs happened hturn hdrop)

theorem Proper.act (h : s.Proper) (a : Action) : (s.act a).Proper := by
  have happened := h.named.happens_act a
  have hmoves := h.named.moves_act a
  refine ⟨h.named.act a, h.sealed.happens happened, h.locked.happens h.named happened, ?_, ?_,
    h.course.happens h.named h.sealed happened⟩
  · generalize s.act a = s' at hmoves
    cases hmoves with
    | turn htask takes before after agrees => exact h.ending.turn (.of_step takes) agrees before after
    | still recasts before after agrees idle => exact h.ending.still recasts before after agrees
  · generalize s.act a = s' at hmoves
    cases hmoves with
    | turn htask takes before after agrees => exact h.emptied.turn (.of_step takes) agrees
    | still recasts before after agrees idle => exact h.emptied.still agrees

theorem Proper.run (h : s.Proper) (actions : List Action) : (s.run actions).Proper := by
  induction actions generalizing s with
  | nil => exact h
  | cons a rest ih => exact ih (h.act a)

theorem Proper.isOpening_iff (h : s.Proper) : s.IsOpening t ↔ ∃ task, s.Going t task := by
  constructor
  · intro hopening
    obtain ⟨task, htask, hrole⟩ := Option.bind_eq_some_iff.mp hopening
    have hmem := h.named.task?_eq_some_iff.mp htask
    cases h.course with
    | idle hidle => exact absurd hrole (Task.role?_of_aside (hidle.aside t task hmem))
    | opened hopened => exact absurd hrole (hopened.roles t task hmem)
    | going hgoing =>
      rename_i u other
      by_cases hu : t = u
      · subst hu
        exact ⟨other, hgoing⟩
      · exact absurd hrole (Task.role?_of_aside (hgoing.beside t task hmem hu))
  · rintro ⟨task, hgoing⟩
    exact Option.bind_eq_some_iff.mpr ⟨task, h.named.task?_eq_some_iff.mpr hgoing.here, hgoing.role⟩

/-! ## A handshake whose caller is gone -/

/-- What is left of the handshake fails the connection, or has done so. -/
def Doomed (s : Session) : Prop :=
  (∃ t task, s.Going t task ∧ 0 < task.doom) ∨
    s.Idle ∧ s.shared.lifecycle.phase = .terminated ∧ s.shared.pending.closed = true

theorem Proper.failed (h : s.Proper) (hidle : s.Idle) (hphase : s.shared.lifecycle.phase = .terminated)
    (hclosed : s.shared.pending.closed = true) : s.Failed :=
  ⟨hphase, hclosed, h.emptied hclosed, fun t task hmem => Task.waiter?_of_aside (hidle.aside t task hmem)⟩

/-- When the connection was failed, it stays so, and no call opens the session again. -/
theorem Idle.over_act (h : s.Idle) (hs : s.Proper) (hphase : s.shared.lifecycle.phase = .terminated)
    (hclosed : s.shared.pending.closed = true) (a : Action) :
    (s.act a).Idle ∧ (s.act a).shared.lifecycle.phase = .terminated
      ∧ (s.act a).shared.pending.closed = true := by
  have happened := hs.named.happens_act a
  rcases h.happens hs.named happened with hidle | ⟨t, task, -, hfirst, -⟩
  · exact ⟨hidle, happened.stays_terminated hphase, happened.stays_closed hclosed⟩
  · exact absurd (hfirst.symm.trans hphase) (by decide)

/-- A turn of what is left of the handshake brings it nearer to its end. -/
theorem Going.doom_turn (h : s.Going t task) (hs : s.Proper) (hdoom : 0 < task.doom) :
    (∃ next, (s.act (.turn t)).Going t next ∧ next.doom + 1 = task.doom ∧ 0 < next.doom) ∨
      (s.act (.turn t)).Idle ∧ (s.act (.turn t)).shared.lifecycle.phase = .terminated
        ∧ (s.act (.turn t)).shared.pending.closed = true := by
  obtain ⟨p, hstep, hnext, hlast, hover⟩ := Task.doom_step t s.shared hdoom
  have moved := hs.named.replaced_turn h.here hstep
  rcases h.turn hs.named hs.sealed (.of_step hstep) moved with
    ⟨after, hafter, hgoing⟩ | ⟨r, hready, -⟩ | ⟨hends, hidle, hphase, hclosed⟩
  · exact .inl ⟨after, hgoing, hnext after hafter⟩
  · exact absurd hready (hover _)
  · refine .inr ⟨hidle, hphase, ?_⟩
    rcases hclosed with hclosed | ⟨hplace, -⟩
    · exact hclosed
    · -- the last step of what is left is the one that closes the table
      rcases hends with hnone | ⟨f, hfinished⟩
      · have hone := hlast hnone
        unfold Task.doom at hone
        split at hone <;> cases hone
        cases hplace
      · exact absurd hfinished (hover _)

theorem Doomed.act (h : s.Doomed) (hs : s.Proper) (a : Action) : (s.act a).Doomed := by
  have happened := hs.named.happens_act a
  rcases h with ⟨t, task, hgoing, hdoom⟩ | ⟨hidle, hphase, hclosed⟩
  · by_cases hturn : a = .turn t
    · subst hturn
      rcases hgoing.doom_turn hs hdoom with ⟨next, hnext, -, hpos⟩ | hdone
      · exact .inl ⟨t, next, hnext, hpos⟩
      · exact .inr hdone
    · by_cases hdrop : a = .drop t
      · subst hdrop
        generalize s.act (.drop t) = s' at happened
        cases happened with
        | nothing => exact .inl ⟨t, task, hgoing, hdoom⟩
        | drop leaves moved =>
          obtain rfl := hs.named.unique moved.here hgoing.here
          exact absurd leaves.not_doomed (Nat.ne_of_gt hdoom)
      · exact .inl ⟨t, task, hgoing.happens hs.named happened hturn hdrop, hdoom⟩
  · exact .inr (hidle.over_act hs hphase hclosed a)

theorem Doomed.run (h : s.Doomed) (hs : s.Proper) (actions : List Action) : (s.run actions).Doomed := by
  induction actions generalizing s with
  | nil => exact h
  | cons a rest ih => exact ih (h.act hs a) (hs.act a)

theorem Doomed.failed (h : s.Doomed) (hs : s.Proper) (hover : ∀ t, ¬ s.IsOpening t) : s.Failed := by
  rcases h with ⟨t, task, hgoing, -⟩ | ⟨hidle, hphase, hclosed⟩
  · exact absurd (hs.isOpening_iff.mpr ⟨task, hgoing⟩) (hover t)
  · exact hs.failed hidle hphase hclosed

/-- What is left of the handshake needs no more than three turns. -/
theorem Proper.failed_of_turns (hs : s.Proper) (n : Nat)
    (h : (∃ task, s.Going t task ∧ 0 < task.doom ∧ task.doom ≤ n)
      ∨ s.Idle ∧ s.shared.lifecycle.phase = .terminated ∧ s.shared.pending.closed = true) :
    (s.run (List.replicate n (.turn t))).Failed := by
  induction n generalizing s with
  | zero =>
    rcases h with ⟨task, -, hpos, hle⟩ | ⟨hidle, hphase, hclosed⟩
    · omega
    · exact hs.failed hidle hphase hclosed
  | succ n ih =>
    refine ih (hs.act _) ?_
    rcases h with ⟨task, hgoing, hpos, hle⟩ | ⟨hidle, hphase, hclosed⟩
    · refine (hgoing.doom_turn hs hpos).imp_left ?_
      rintro ⟨next, hnext, hless, hnextpos⟩
      exact ⟨next, hnext, hnextpos, by omega⟩
    · exact .inr (hidle.over_act hs hphase hclosed _)

/-! ## Whole runs -/

/-- What holds of the opening of a session in any state. -/
structure OpensWholly (s : Session) : Prop where
  /-- A handshake that comes too late is refused and does nothing. -/
  refused : ∀ t, s.task? t = some (.called .handshake) → s.shared.lifecycle.phase ≠ .uninitialized →
    (s.act (.turn t)).shared = s.shared
      ∧ (s.act (.turn t)).answer? t = some (.error .alreadyInitialized)
  begun : ∀ t, s.task? t = some (.called .handshake) → s.shared.lifecycle.phase = .uninitialized →
    (s.act (.turn t)).IsOpening t ∧ (s.act (.turn t)).shared.lifecycle.phase = .initializing
  /-- If the options give no params, the call fails with the reason, and the session with it, before anything
  was written. -/
  unfit : ∀ t f, s.task? t = some (.called .handshake) → s.shared.lifecycle.phase = .uninitialized →
    s.shared.options.handshakeParams = .error f →
    (s.run (List.replicate 3 (.turn t))).Failed
      ∧ (s.run (List.replicate 3 (.turn t))).answer? t = some (.error (.initializationFailed f.message))
      ∧ (s.run (List.replicate 3 (.turn t))).shared.wire = s.shared.wire
  /-- A turn of the call leaves it under way, or the session is ready, or it has failed. The last is so if
  no other task has failed the connection half. -/
  ends : ∀ t, s.IsOpening t → (s.act (.turn t)).IsOpening t
    ∨ (∃ r, (s.act (.turn t)).answer? t = some (.ok (.server r))
        ∧ (s.act (.turn t)).shared.lifecycle.phase = .ready
        ∧ (s.act (.turn t)).shared.lifecycle.result = some r)
    ∨ ((s.act (.turn t)).task? t = none ∨ ∃ f, (s.act (.turn t)).answer? t = some (.error f))
      ∧ ((∀ u a, (u, .closing a) ∈ s.tasks → u = t) → (s.act (.turn t)).Failed)
  /-- When the caller is gone, three turns of a task that is left make the session fail; and it has failed,
  whatever else happens, when no call opens it any more. -/
  dropped : ∀ t, s.IsOpening t → ((s.task? t).bind Task.remains).isSome = true →
    (∃ u, (s.run (.drop t :: List.replicate 3 (.turn u))).Failed) ∧
      ∀ later, (∀ u, ¬ (s.run (.drop t :: later)).IsOpening u) → (s.run (.drop t :: later)).Failed
  /-- While the handshake is going on, so is the call. -/
  underWay : s.shared.lifecycle.phase = .initializing → ∃ t, s.IsOpening t

theorem Proper.refused (h : s.Proper) (hcalled : s.task? t = some (.called .handshake))
    (hphase : s.shared.lifecycle.phase ≠ .uninitialized) : (s.act (.turn t)).shared = s.shared
      ∧ (s.act (.turn t)).answer? t = some (.error .alreadyInitialized) := by
  have here := h.named.task?_eq_some_iff.mp hcalled
  have moved := h.named.replaced_turn here (Task.Steps.handshakeRefused hphase).step_eq
  have hfree : s.shared.documentsHolder ≠ some t := by
    intro hholder
    obtain ⟨x, hmem, hholds⟩ := h.locked t hholder
    rw [h.named.unique hmem here] at hholds
    cases hholds
  refine ⟨?_, ?_⟩
  · rw [moved.shared]
    show s.shared.releaseDocuments t = s.shared
    exact if_neg hfree
  · unfold answer?
    rw [moved.task?_self h.named]

theorem Proper.begun (h : s.Proper) (hcalled : s.task? t = some (.called .handshake))
    (hphase : s.shared.lifecycle.phase = .uninitialized) : (s.act (.turn t)).IsOpening t
      ∧ (s.act (.turn t)).shared.lifecycle.phase = .initializing := by
  have opens : ∀ {p : Progress} {next : Task}, Task.Steps t s.shared (.called .handshake) p →
      p.next = some next → next.role? = some .opening → p.shared.lifecycle.phase = .initializing →
      (s.act (.turn t)).IsOpening t ∧ (s.act (.turn t)).shared.lifecycle.phase = .initializing := by
    intro p next step hnext hrole hinitializing
    obtain ⟨hplace, holder, hshared⟩ := h.named.goes_on hcalled step
    refine ⟨?_, hshared ▸ hinitializing⟩
    rw [IsOpening, hplace, hnext]
    exact hrole
  cases hparams : s.shared.options.handshakeParams with
  | ok params => exact opens (.handshakeBegun hphase hparams) rfl rfl rfl
  | error f => exact opens (.handshakeUnfit hphase hparams) rfl rfl rfl

/-- A handshake for which there are no params fails the connection at once, and says nothing to the server. -/
theorem Proper.unfit (h : s.Proper) (hcalled : s.task? t = some (.called .handshake))
    (hphase : s.shared.lifecycle.phase = .uninitialized) {f : Fault}
    (hparams : s.shared.options.handshakeParams = .error f) :
    (s.run (List.replicate 3 (.turn t))).Failed
      ∧ (s.run (List.replicate 3 (.turn t))).answer? t = some (.error (.initializationFailed f.message))
      ∧ (s.run (List.replicate 3 (.turn t))).shared.wire = s.shared.wire := by
  obtain ⟨hterminating, holder, hbegun⟩ := h.named.goes_on hcalled (.handshakeUnfit hphase hparams)
  have hproper := h.act (.turn t)
  obtain ⟨hclosing, holder', hterminated⟩ := hproper.named.goes_on hterminating .terminated
  have hproper' := hproper.act (.turn t)
  obtain ⟨hover, holder'', hclosed⟩ := hproper'.named.goes_on hclosing .closed
  refine ⟨?_, ?_, ?_⟩
  · obtain ⟨task, hgoing⟩ := hproper'.isOpening_iff.mp (Option.bind_eq_some_iff.mpr ⟨_, hclosing, rfl⟩)
    obtain rfl := hproper'.named.unique hgoing.here (hproper'.named.task?_eq_some_iff.mp hclosing)
    rcases hgoing.turn hproper'.named hproper'.sealed .closed
        (hproper'.named.replaced_turn hgoing.here (Task.Steps.closed).step_eq) with
      ⟨after, hafter, hstill⟩ | ⟨r, hready, -⟩ | ⟨-, hidle, hphase', -⟩
    · cases hafter
      cases hstill.role
    · cases hready
    · exact (hproper'.act (.turn t)).failed hidle hphase' (by rw [hclosed]; rfl)
  · show (((s.act (.turn t)).act (.turn t)).act (.turn t)).answer? t = _
    rw [answer?, hover, ← SessionOptions.handshakeFault_eq hparams]
    rfl
  · show (((s.act (.turn t)).act (.turn t)).act (.turn t)).shared.wire = _
    rw [hclosed, hterminated, hbegun]

theorem Proper.ends (h : s.Proper) (hopening : s.IsOpening t) : (s.act (.turn t)).IsOpening t
    ∨ (∃ r, (s.act (.turn t)).answer? t = some (.ok (.server r))
        ∧ (s.act (.turn t)).shared.lifecycle.phase = .ready
        ∧ (s.act (.turn t)).shared.lifecycle.result = some r)
    ∨ ((s.act (.turn t)).task? t = none ∨ ∃ f, (s.act (.turn t)).answer? t = some (.error f))
      ∧ ((∀ u a, (u, .closing a) ∈ s.tasks → u = t) → (s.act (.turn t)).Failed) := by
  obtain ⟨task, hgoing⟩ := h.isOpening_iff.mp hopening
  have hproper := h.act (.turn t)
  have happened := h.named.happens_act (.turn t)
  generalize s.act (.turn t) = s' at *
  cases happened with
  | nothing => exact .inl hopening
  | turn step moved =>
    rename_i here p
    obtain rfl := h.named.unique moved.here hgoing.here
    have hself := moved.task?_self h.named
    have hanswer : ∀ {answer}, p.next = some (.finished answer) → s'.answer? t = some answer := by
      intro answer hnext
      unfold answer?
      rw [hself, hnext]
    rcases hgoing.turn h.named h.sealed step moved with
      ⟨after, -, hafter⟩ | ⟨r, hnext, hready, hopened⟩ | ⟨hends, hidle, hphase, hclosed⟩
    · exact .inl (hproper.isOpening_iff.mpr ⟨after, hafter⟩)
    · exact .inr (.inl ⟨r, hanswer hnext, hready, hopened.result⟩)
    · refine .inr (.inr ⟨?_, fun hone => hproper.failed hidle hphase ?_⟩)
      · rcases hends with hnone | ⟨f, hnext⟩
        · exact .inl (hself.trans hnone)
        · exact .inr ⟨f, hanswer hnext⟩
      · rcases hclosed with hclosed | ⟨hplace, hover, hpending⟩
        · exact hclosed
        · -- the session had terminated before, and nobody else is about to close the table
          rw [hpending]
          rcases h.ending hover with hclosed | ⟨b, hmem⟩
          · exact hclosed
          · obtain ⟨⟨u, closing⟩, hu, heq⟩ := List.mem_map.mp hmem
            obtain rfl : closing = .closing b := heq
            obtain rfl := hone u b hu
            obtain rfl := h.named.unique hu moved.here
            cases hplace

/-- **A session is opened wholly or not at all**, whoever calls, whatever the server does and wherever the
caller of the handshake leaves. -/
theorem opening_whole (options : SessionOptions) (actions : List Action) :
    ((create options).run actions).OpensWholly := by
  have h := (proper_create options).run actions
  generalize (create options).run actions = s at h
  exact {
    refused := fun t => h.refused
    begun := fun t => h.begun
    unfit := fun t f hcalled hphase hparams => h.unfit hcalled hphase hparams
    ends := fun t => h.ends
    dropped := by
      intro t hopening hremains
      obtain ⟨task, hgoing⟩ := h.isOpening_iff.mp hopening
      obtain ⟨rest, hrest⟩ := Option.isSome_iff_exists.mp hremains
      rw [h.named.task?_eq_some_iff.mpr hgoing.here, Option.bind_some] at hrest
      obtain ⟨u, last, hlast, hpos, hle⟩ :=
        hgoing.drop (.of_remains hrest) (h.named.replaced_drop hgoing.here hrest)
      have hproper := h.act (.drop t)
      refine ⟨⟨u, hproper.failed_of_turns 3 (.inl ⟨last, hlast, hpos, hle⟩)⟩, fun later hover => ?_⟩
      have hdoomed : (s.act (.drop t)).Doomed := .inl ⟨u, last, hlast, hpos⟩
      exact (hdoomed.run hproper later).failed (hproper.run later) hover
    underWay := by
      intro hphase
      cases h.course with
      | idle hidle =>
        rcases hidle.phase with ⟨heq, -⟩ | heq <;> exact absurd (hphase.symm.trans heq) (by decide)
      | opened hopened => exact absurd hphase hopened.phase.2
      | going hgoing => exact ⟨_, h.isOpening_iff.mpr ⟨_, hgoing⟩⟩ }

/-- A handshake that waits for its answer. -/
def handshakeSent : List Action := .call .handshake :: List.replicate 4 (.turn 1)

example : ((create {}).run handshakeSent).IsOpening 1
    ∧ ((create {}).run handshakeSent).shared.lifecycle.phase = .initializing
    ∧ ((create {}).run (handshakeSent ++ .drop 1 :: List.replicate 3 (.turn 2))).shared.lifecycle.phase
      = .terminated
    ∧ ((create {}).run (handshakeSent ++ .drop 1 :: List.replicate 3 (.turn 2))).shared.pending.closed
      = true := by
  decide +kernel

/-- A root path leads on from a working directory that was removed. -/
def rootless : SessionOptions where
  rootPath := some "project"
  workingDirectory := .error ⟨.other "NotFound", "No such file or directory (os error 2)"⟩

example : rootless.handshakeParams
      = .error (.io ⟨.other "NotFound", "No such file or directory (os error 2)"⟩)
    ∧ ((create rootless).run (.call .handshake :: List.replicate 3 (.turn 1))).shared.wire = []
    ∧ ((create rootless).run (.call .handshake :: List.replicate 3 (.turn 1))).shared.lifecycle.phase
      = .terminated := by
  decide +kernel

end Session

end LanguageClient
