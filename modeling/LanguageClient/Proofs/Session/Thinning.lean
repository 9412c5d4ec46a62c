import LanguageClient.Proofs.Session.Notices

/-!
# LanguageClient.Proofs.Session.Thinning -- sessions without some of their tasks

When some calls are left out, those that are left get other names: each moves up by as many as are left out
before it (`shifted`). The name of a task has no part in what it does, except that a task holds the documents
under its name (`step_renamed`). So what happens to a task that is left happens to it just the same in the
session without the others (`act_thinned`), if no name that is left out is given to a new task and none of
them holds the documents (`Free`).
-/

namespace LanguageClient

/-! ## Names that move up -/

/-- The name that a task gets when the tasks of some names are left out. -/
def shifted (gone : List TaskId) (t : TaskId) : TaskId := (List.range t).countP (· ∉ gone)

section Names

variable {gone : List TaskId} {t u : TaskId}

theorem shifted_succ (gone : List TaskId) (t : TaskId) :
    shifted gone (t + 1) = shifted gone t + if t ∈ gone then 0 else 1 := by
  unfold shifted
  rw [List.range_succ, List.countP_append, List.countP_singleton]
  by_cases ht : t ∈ gone <;> simp [ht]

theorem shifted_mono (h : t ≤ u) : shifted gone t ≤ shifted gone u := by
  induction h with
  | refl => exact Nat.le_refl _
  | step _ ih =>
    rw [shifted_succ]
    exact Nat.le_add_right_of_le ih

theorem shifted_lt (ht : t ∉ gone) (h : t < u) : shifted gone t < shifted gone u := by
  have hle : shifted gone (t + 1) ≤ shifted gone u := shifted_mono h
  rwa [shifted_succ, if_neg ht] at hle

/-- Tasks that are left have names of their own. -/
theorem shifted_eq_iff (ht : t ∉ gone) (hu : u ∉ gone) : shifted gone t = shifted gone u ↔ t = u := by
  constructor
  · intro heq
    rcases Nat.lt_trichotomy t u with hlt | hsame | hgt
    · exact absurd heq (Nat.ne_of_lt (shifted_lt ht hlt))
    · exact hsame
    · exact absurd heq (Nat.ne_of_gt (shifted_lt hu hgt))
  · rintro rfl
    rfl

end Names

/-! ## What is shared, under other names -/

namespace Shared

/-- The same, but the documents are held under another name. -/
def renamed (f : TaskId → TaskId) (s : Shared) : Shared :=
  { s with documentsHolder := s.documentsHolder.map f }

variable (f : TaskId → TaskId) (s : Shared)

theorem closeOutflow_renamed : (s.renamed f).closeOutflow = s.closeOutflow.renamed f := by
  have hflow : (s.renamed f).outflow = s.outflow := rfl
  unfold closeOutflow
  rw [hflow]
  cases s.outflow <;> rfl

theorem callHandlers_renamed (n : Notification) (place : Nat) (handlers : List NotificationHandler) :
    callHandlers n place handlers (s.renamed f) = (callHandlers n place handlers s).renamed f := by
  rw [callHandlers_eq, callHandlers_eq]
  rfl

theorem answer_renamed (r : Request) :
    (s.renamed f).answer r = ((s.answer r).1, (s.answer r).2.renamed f) := by
  have hhandlers : (s.renamed f).options.handlers = s.options.handlers := rfl
  unfold answer
  rw [hhandlers]
  cases s.options.handlers.requestHandler? r.method with
  | none => rfl
  | some handler =>
    have hturn : (s.renamed f).handled.length = s.handled.length := rfl
    simp only [callHandler, hturn]
    split <;> rfl

end Shared

theorem Sending.done_renamed (d : Sending) (f : TaskId → TaskId) (s : Shared) (r : Except Fault Unit) :
    d.done (s.renamed f) r = d.done s r := by
  cases d with
  | request w p => cases r <;> cases p <;> rfl
  | _ => rfl

theorem Aftermath.done_renamed (a : Aftermath) (f : TaskId → TaskId) (s : Shared) :
    a.done (s.renamed f) = a.done s := by
  cases a with
  | write fault d => exact d.done_renamed f s _
  | _ => rfl

/-- A step that leaves the documents held under another name. -/
def Progress.renamed (f : TaskId → TaskId) (p : Progress) : Progress :=
  { p with shared := p.shared.renamed f }

namespace Task

variable {me : TaskId} {s : Shared} {task : Task} {p : Progress}

/-- A task takes the same step under another name. -/
theorem Steps.renamed (h : Steps me s task p) (f : TaskId → TaskId) :
    Steps (f me) (s.renamed f) task (p.renamed f) := by
  have hfree : s.documentsHolder = none → (s.renamed f).documentsHolder = none := by
    intro hnone
    show s.documentsHolder.map f = none
    rw [hnone, Option.map_none]
  cases h with
  | handshakeBegun hphase hparams => exact .handshakeBegun hphase hparams
  | handshakeUnfit hphase hparams => exact .handshakeUnfit hphase hparams
  | handshakeRefused hphase => exact .handshakeRefused hphase
  | exitBegun hphase => exact .exitBegun hphase
  | shutdownBegun hphase => exact .shutdownBegun hphase
  | taken hentry hphase => exact .taken hentry hphase
  | notTaken hentry hphase => exact .notTaken hentry hphase
  | cancelBegun => exact .cancelBegun
  | lookedUp hnone => exact .lookedUp (hfree hnone)
  | sawEnd hphase => exact .sawEnd hphase
  | numbered => exact .numbered
  | registered hregister => exact .registered hregister
  | unregistered hregister => exact .unregistered hregister
  | @written m d hflow =>
    have hdone := d.done_renamed f { s with wire := s.wire ++ [m] } (.ok ())
    exact hdone ▸ .written hflow
  | unwritten hflow => exact .unwritten hflow
  | rejected => exact .rejected
  | left => exact .left
  | settled hpoll => exact .settled hpoll
  | timedOut hpoll htime => exact .timedOut hpoll htime
  | cancelled hcancel => exact .cancelled hcancel
  | notFound hcancel => exact .notFound hcancel
  | noticed hphase => exact .noticed hphase
  | unnoticed hphase => exact .unnoticed hphase
  | abandonedHandshake => exact .abandonedHandshake
  | abandoned hpurpose => exact .abandoned hpurpose
  | recorded => exact .recorded
  | becameReady hphase => exact .becameReady hphase
  | notInitializing hphase => exact .notInitializing hphase
  | leftReady hphase => exact .leftReady hphase
  | leftAlready hphase => exact .leftAlready hphase
  | notYetReady hphase => exact .notYetReady hphase
  | outflowClosed hclosed hclose =>
    have hsame := s.closeOutflow_renamed f
    rw [hclose] at hsame
    exact .outflowClosed hclosed hsame
  | terminated => exact .terminated
  | @closed a =>
    have hdone := a.done_renamed f { s with pending := s.pending.close }
    exact hdone ▸ .closed
  | locked hnone => exact .locked (hfree hnone)
  | edited happly => exact .edited happly
  | notEdited happly => exact .notEdited happly
  | readRequest hfound => exact .readRequest hfound
  | readResponse hfound => exact .readResponse hfound
  | @readNotification n rest calls hfound hcalls =>
    have hsame := Shared.callHandlers_renamed f { s with input := rest } n 0
      (s.options.handlers.notificationHandlers n.method)
    rw [hcalls] at hsame
    exact .readNotification hfound hsame
  | readBadResponse hfound => exact .readBadResponse hfound
  | readStray hfound => exact .readStray hfound
  | readEnd hfound hfatal => exact .readEnd hfound hfatal
  | @answered r _ _ hanswer =>
    have hsame := s.answer_renamed f r
    rw [hanswer] at hsame
    exact .answered hsame
  | @hung r _ hanswer =>
    have hsame := s.answer_renamed f r
    rw [hanswer] at hsame
    exact .hung hsame

theorem isReady_renamed (f : TaskId → TaskId) (s : Shared) (task : Task) :
    task.isReady (s.renamed f) = task.isReady s := by
  have hfree : (s.renamed f).documentsHolder.isNone = s.documentsHolder.isNone := Option.isNone_map
  cases task with
  | called c => cases c <;> first | rfl | exact hfree
  | locking operation => exact hfree
  | _ => rfl

theorem step_renamed (me : TaskId) (f : TaskId → TaskId) (s : Shared) (task : Task) :
    task.step (f me) (s.renamed f) = (task.step me s).map (·.renamed f) := by
  cases hstep : task.step me s with
  | some p => exact ((Steps.of_step hstep).renamed f).step_eq
  | none =>
    have hnot : ¬ task.isReady s = true := by
      rw [isReady_iff me, hstep]
      exact nofun
    rw [← isReady_renamed f, isReady_iff (f me)] at hnot
    exact Option.not_isSome_iff_eq_none.mp hnot

end Task

namespace Session

/-! ## Sessions without some of their tasks -/

/-- The session without the tasks of some names. -/
def thinned (gone : List TaskId) (s : Session) : Session where
  shared := s.shared.renamed (shifted gone)
  tasks := s.tasks.filterMap fun (t, task) => if t ∈ gone then none else some (shifted gone t, task)
  nextTask := shifted gone s.nextTask

/-- What happens to a task, said of the task under its other name. -/
def Action.renamed (f : TaskId → TaskId) : Action → Action
  | .turn t => .turn (f t)
  | .drop t => .drop (f t)
  | .await t => .await (f t)
  | .collect t => .collect (f t)
  | a => a

/-- None of the names is that of the task that holds the documents. -/
def Free (gone : List TaskId) (s : Session) : Prop := ∀ t ∈ gone, s.shared.documentsHolder ≠ some t

variable {gone : List TaskId} {s : Session} {t : TaskId}

/-! ### Tasks that are left out -/

theorem thinned_replace_of_mem (s : Session) (ht : t ∈ gone) (next : Option Task) :
    (s.replace t next).thinned gone = s.thinned gone := by
  have htasks : (s.replace t next).tasks.filterMap
      (fun x => if x.1 ∈ gone then none else some (shifted gone x.1, x.2))
      = s.tasks.filterMap (fun x => if x.1 ∈ gone then none else some (shifted gone x.1, x.2)) := by
    unfold replace
    rw [List.filterMap_filterMap]
    apply List.filterMap_congr
    rintro ⟨u, task⟩ -
    by_cases hu : u = t
    · subst hu
      cases next <;> simp [ht]
    · simp [hu]
  exact congrArg (fun tasks => (⟨_, tasks, _⟩ : Session)) htasks

theorem thinned_spawn_of_mem (s : Session) (hnew : s.nextTask ∈ gone) (task : Task) :
    (s.spawn task).thinned gone = s.thinned gone := by
  simp [thinned, spawn, shifted_succ, hnew]

theorem Free.release_eq (h : s.Free gone) (ht : t ∈ gone) (next : Option Task) : s.release t next = s := by
  unfold release Shared.releaseDocuments
  rw [if_neg (h t ht)]
  exact ite_self s

/-! ### Tasks that are left -/

theorem task?_thinned (s : Session) (ht : t ∉ gone) : (s.thinned gone).task? (shifted gone t) = s.task? t := by
  unfold task? thinned
  simp only
  induction s.tasks with
  | nil => rfl
  | cons x rest ih =>
    obtain ⟨u, task⟩ := x
    by_cases hu : u ∈ gone
    · have hne : t ≠ u := fun heq => ht (heq ▸ hu)
      simp [hu, ih, List.lookup_cons, beq_false_of_ne hne]
    · by_cases heq : t = u
      · simp [heq, hu]
      · have hne : shifted gone t ≠ shifted gone u := fun hsame => heq ((shifted_eq_iff ht hu).mp hsame)
        simp [hu, ih, List.lookup_cons, beq_false_of_ne heq, beq_false_of_ne hne]

theorem thinned_replace (s : Session) (ht : t ∉ gone) (next : Option Task) :
    (s.replace t next).thinned gone = (s.thinned gone).replace (shifted gone t) next := by
  have htasks : (s.replace t next).tasks.filterMap
      (fun x => if x.1 ∈ gone then none else some (shifted gone x.1, x.2))
      = ((s.thinned gone).replace (shifted gone t) next).tasks := by
    unfold replace thinned
    rw [List.filterMap_filterMap, List.filterMap_filterMap]
    apply List.filterMap_congr
    rintro ⟨u, task⟩ -
    by_cases hu : u = t
    · subst hu
      cases next <;> simp [ht]
    · by_cases hgone : u ∈ gone
      · simp [hu, hgone]
      · have hne : shifted gone u ≠ shifted gone t := fun hsame => hu ((shifted_eq_iff hgone ht).mp hsame)
        simp [hu, hgone, hne]
  exact congrArg (fun tasks => (⟨_, tasks, _⟩ : Session)) htasks

theorem thinned_spawn (s : Session) (hnew : s.nextTask ∉ gone) (task : Task) :
    (s.spawn task).thinned gone = (s.thinned gone).spawn task := by
  simp [thinned, spawn, shifted_succ, hnew]

theorem thinned_foldl_spawn (new : List Task) (s : Session)
    (hnew : ∀ u, s.nextTask ≤ u → u < s.nextTask + new.length → u ∉ gone) :
    (new.foldl spawn s).thinned gone = new.foldl spawn (s.thinned gone) := by
  induction new generalizing s with
  | nil => rfl
  | cons task rest ih =>
    rw [List.length_cons] at hnew
    rw [List.foldl_cons, List.foldl_cons,
      ← thinned_spawn s (hnew _ (Nat.le_refl _) (Nat.lt_add_of_pos_right (Nat.succ_pos _)))]
    apply ih
    intro u hle hlt
    have hlt' : u < s.nextTask + 1 + rest.length := hlt
    rw [Nat.add_right_comm] at hlt'
    exact hnew u (Nat.le_of_succ_le hle) hlt'

theorem thinned_release (h : s.Free gone) (ht : t ∉ gone) (next : Option Task) :
    (s.release t next).thinned gone = (s.thinned gone).release (shifted gone t) next := by
  have hrelease : (s.shared.releaseDocuments t).renamed (shifted gone)
      = (s.shared.renamed (shifted gone)).releaseDocuments (shifted gone t) := by
    unfold Shared.releaseDocuments Shared.renamed
    cases hholder : s.shared.documentsHolder with
    | none => simp [hholder]
    | some u =>
      have hu : u ∉ gone := fun hmem => h u hmem hholder
      by_cases hsame : u = t
      · simp [hsame]
      · have hne : shifted gone u ≠ shifted gone t := fun heq => hsame ((shifted_eq_iff hu ht).mp heq)
        simp [hsame, hne, hholder]
  unfold release
  split
  · exact congrArg (fun shared => (⟨shared, _, _⟩ : Session)) hrelease
  · rfl

/-- Who takes a step leaves the documents free of the others. -/
theorem Free.turn (h : s.Free gone) (ht : t ∉ gone) {task : Task} {p : Progress}
    (hstep : task.step t s.shared = some p) : Free gone { s with shared := p.shared } := by
  intro u hu hholder
  rcases (Task.Steps.of_step hstep).holder with hsame | ⟨htaken, -⟩
  · exact h u hu (hsame ▸ hholder)
  · have heq : t = u := Option.some.inj (htaken.symm.trans hholder)
    exact ht (heq ▸ hu)

theorem step?_thinned (h : s.Free gone) (ht : t ∉ gone)
    (hnew : ∀ u, s.nextTask ≤ u → u < (s.act (.turn t)).nextTask → u ∉ gone) :
    (s.thinned gone).step? (shifted gone t) = (s.step? t).map (·.thinned gone) := by
  have hplace := s.task?_thinned ht
  have hsteps := fun task => Task.step_renamed t (shifted gone) s.shared task
  unfold step?
  rw [hplace]
  cases htask : s.task? t with
  | none => rfl
  | some task =>
    have hshared : (s.thinned gone).shared = s.shared.renamed (shifted gone) := rfl
    simp only [hshared, hsteps]
    cases hstep : task.step t s.shared with
    | none => rfl
    | some p =>
      have hgone : ({ s with shared := p.shared }.replace t p.next).Free gone := h.turn ht hstep
      have hrest : (({ s with shared := p.shared }.replace t p.next).release t p.next).thinned gone
          = ({ s.thinned gone with shared := p.shared.renamed (shifted gone) }.replace
              (shifted gone t) p.next).release (shifted gone t) p.next := by
        rw [thinned_release hgone ht, thinned_replace _ ht]
        rfl
      cases hasked : p.asked with
      | none => simp only [Option.map_some, Progress.renamed, hasked, hrest]
      | some r =>
        have hname : (({ s with shared := p.shared }.replace t p.next).release t p.next).nextTask ∉ gone := by
          rw [release_nextTask]
          apply hnew s.nextTask (Nat.le_refl _)
          simp [act, step?, htask, hstep, hasked, spawn]
        simp only [Option.map_some, Progress.renamed, hasked, thinned_spawn _ hname, hrest]

/-- What happens to a task that is left, or to all, happens in the session without the others. -/
theorem act_thinned {a : Action} (h : s.Free gone)
    (hleft : ∀ t, a = .turn t ∨ a = .drop t ∨ a = .await t ∨ a = .collect t → t ∉ gone)
    (hnew : ∀ u, s.nextTask ≤ u → u < (s.act a).nextTask → u ∉ gone) :
    (s.thinned gone).act (a.renamed (shifted gone)) = (s.act a).thinned gone := by
  cases a with
  | call c =>
    have hname : s.nextTask ∉ gone := hnew s.nextTask (Nat.le_refl _) (Nat.lt_succ_self _)
    exact (thinned_spawn s hname _).symm
  | turn t =>
    have ht := hleft t (.inl rfl)
    have hstep := step?_thinned h ht hnew
    simp only [act, Action.renamed, hstep]
    cases s.step? t <;> rfl
  | drop t =>
    have ht := hleft t (.inr (.inl rfl))
    have hplace := s.task?_thinned ht
    simp only [act, Action.renamed, Session.drop, hplace] at hnew ⊢
    cases hremains : (s.task? t).bind Task.remains with
    | none => rfl
    | some rest =>
      rw [hremains] at hnew
      have hrelease : ((s.replace t none).release t none).thinned gone
          = ((s.thinned gone).replace (shifted gone t) none).release (shifted gone t) none := by
        have hgone : (s.replace t none).Free gone := h
        rw [thinned_release hgone ht, thinned_replace _ ht]
      have hnext : ((s.replace t none).release t none).nextTask = s.nextTask := by
        rw [release_nextTask, replace_nextTask]
      simp only
      rw [thinned_foldl_spawn, hrelease]
      intro u hle hlt
      rw [hnext] at hle hlt
      apply hnew u hle
      show u < (rest.foldl spawn _).nextTask
      rw [foldl_spawn]
      exact hnext ▸ hlt
  | await t =>
    have ht := hleft t (.inr (.inr (.inl rfl)))
    have hplace := s.task?_thinned ht
    simp only [act, Action.renamed, Session.await, hplace]
    split
    · exact (thinned_replace _ ht _).symm
    · rfl
  | collect t =>
    have ht := hleft t (.inr (.inr (.inr rfl)))
    have hplace := s.task?_thinned ht
    simp only [act, Action.renamed, Session.collect, hplace]
    split
    · rfl
    · exact (thinned_replace _ ht _).symm
    · rfl
  | arrive bytes =>
    have hflow : (s.thinned gone).shared.inflow = s.shared.inflow := rfl
    simp only [act, Action.renamed, hflow]
    split <;> rfl
  | endInput failure =>
    have hflow : (s.thinned gone).shared.inflow = s.shared.inflow := rfl
    simp only [act, Action.renamed, hflow]
    split <;> rfl
  | breakOutflow =>
    have hflow : (s.thinned gone).shared.outflow = s.shared.outflow := rfl
    simp only [act, Action.renamed, hflow]
    split <;> rfl
  | pass ms => rfl

end Session

end LanguageClient
