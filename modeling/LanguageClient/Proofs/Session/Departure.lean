import LanguageClient.Proofs.Session.Causes
import LanguageClient.Proofs.Session.Conversation
import LanguageClient.Proofs.Session.Opening

/-!
# LanguageClient.Proofs.Session.Departure -- a session is shut down wholly, if nobody leaves meanwhile

The phase is `shuttingDown` only while a call shuts the session down (`Session.Accompanied`), provided no such
call is dropped in this phase (`Session.Patient`). So when a call that shuts down succeeds and no other is
under way, the session has terminated, for a cause (`shut_down_wholly`). A caller that leaves in this phase
leaves the session in it (`left_half_done`).
-/

namespace LanguageClient

/-- A call shuts the session down, or is about to see whether it has to. -/
def Task.isShutdown : Task → Bool
  | called .shutdown | leavingReady => true
  | task => task.role? = some .closing

namespace Session

variable {lost : Prop} {s s' : Session} {t u : TaskId} {task : Task} {p : Progress} {a : Action}

/-! ## The phase in which a session is shut down -/

/-- A call that shuts the session down is under way. -/
def IsClosing (s : Session) (t : TaskId) : Prop := (s.task? t).bind Task.role? = some .closing

instance (s : Session) (t : TaskId) : Decidable (s.IsClosing t) :=
  inferInstanceAs (Decidable ((s.task? t).bind Task.role? = some .closing))

theorem Named.isClosing_iff (hs : s.Named) :
    s.IsClosing t ↔ ∃ task, (t, task) ∈ s.tasks ∧ task.role? = some .closing := by
  unfold IsClosing
  rw [Option.bind_eq_some_iff]
  exact exists_congr fun task => and_congr_left' hs.task?_eq_some_iff

/-- No caller leaves while the session is being shut down. -/
def Bears (s : Session) : Action → Prop
  | .drop t => s.shared.lifecycle.phase = .shuttingDown → ¬ s.IsClosing t
  | _ => True

instance (s : Session) : (a : Action) → Decidable (s.Bears a)
  | .drop t => inferInstanceAs (Decidable (s.shared.lifecycle.phase = .shuttingDown → ¬ s.IsClosing t))
  | .call _ | .turn _ | .await _ | .collect _ | .arrive _ | .endInput _ | .breakOutflow | .pass _ => .isTrue trivial

/-- No caller leaves in a run while the session is being shut down. -/
def Patient (s : Session) : List Action → Prop
  | [] => True
  | a :: rest => s.Bears a ∧ (s.act a).Patient rest

instance Patient.decide (s : Session) : (actions : List Action) → Decidable (s.Patient actions)
  | [] => .isTrue trivial
  | a :: rest => @instDecidableAnd _ _ inferInstance (Patient.decide (s.act a) rest)

/-- While the session is being shut down, a call does it. -/
def Accompanied (s : Session) : Prop :=
  s.shared.lifecycle.phase = .shuttingDown → ∃ t task, (t, task) ∈ s.tasks ∧ task.role? = some .closing

theorem accompanied_create (options : SessionOptions) : (create options).Accompanied := by
  intro hphase
  cases hphase

/-- A call that closes the session goes on closing it until the session has terminated, unless it is dropped. -/
theorem Happens.stays_closing (happened : Happens s a s') (hs : s.Named) (hsealed : s.Sealed)
    (here : (t, task) ∈ s.tasks) (hrole : task.role? = some .closing)
    (hphase : s.shared.lifecycle.phase ≠ .terminated) (hdrop : a ≠ .drop t) :
    ∃ next, (t, next) ∈ s'.tasks ∧ next.role? = some .closing := by
  by_cases hturn : a = .turn t
  · subst hturn
    cases happened with
    | nothing => exact ⟨task, here, hrole⟩
    | turn step moved =>
      rename_i task' p
      obtain rfl := hs.unique moved.here here
      by_cases hfinal : task'.isFinal = true
      · -- the last place of the call is reached when the session has terminated
        cases task' with
        | closing b => exact absurd (hsealed.closing t b here) hphase
        | entering r => cases hrole
        | _ => cases hfinal
      · have hnext := step.role_of_not_final (Bool.of_not_eq_true hfinal)
        rw [hrole, Option.some_or] at hnext
        obtain ⟨next, hsome, hclosing⟩ := Option.bind_eq_some_iff.mp hnext
        exact ⟨next, (hsome ▸ moved).mem_stay, hclosing⟩
  · have hover : task.isOver = false := by
      cases task with
      | finished answer => cases hrole
      | _ => rfl
    exact ⟨task, happened.stays hs here hover hturn hdrop, hrole⟩

theorem Accompanied.happens (h : s.Accompanied) (hs : s.Named) (hsealed : s.Sealed)
    (happened : Happens s a s') (bears : s.Bears a) : s'.Accompanied := by
  intro hphase
  by_cases hbefore : s.shared.lifecycle.phase = .shuttingDown
  · obtain ⟨t, task, here, hrole⟩ := h hbefore
    refine ⟨t, happened.stays_closing hs hsealed here hrole (by rw [hbefore]; decide) ?_⟩
    rintro rfl
    exact bears hbefore (hs.isClosing_iff.mpr ⟨task, here, hrole⟩)
  · cases happened with
    | nothing | call _ | arrive _ | endInput _ | breakOutflow _ | pass _ => exact absurd hphase hbefore
    | drop leaves moved =>
      rename_i t task rest
      obtain ⟨holder, hafter⟩ := s.shared.after_eq t none
      rw [moved.shared, hafter] at hphase
      exact absurd hphase hbefore
    | await moved | collect _ moved =>
      rw [moved.shared] at hphase
      exact absurd hphase hbefore
    | turn step moved =>
      rename_i t task p
      obtain ⟨holder, hafter⟩ := p.shared.after_eq t p.next
      have hreached : p.shared.lifecycle.phase = .shuttingDown := by
        rw [moved.shared, hafter] at hphase
        exact hphase
      cases step with
      | leftReady _ => exact ⟨t, _, moved.mem_stay, rfl⟩
      | handshakeBegun _ _ | handshakeUnfit _ _ | becameReady _ | terminated => cases hreached
      | _ => exact absurd hreached hbefore

theorem Accompanied.run (h : s.Accompanied) (hs : s.Named) (hsealed : s.Sealed) {actions : List Action}
    (patient : s.Patient actions) : (s.run actions).Accompanied := by
  induction actions generalizing s with
  | nil => exact h
  | cons a rest ih =>
    have happened := hs.happens_act a
    exact ih (h.happens hs hsealed happened patient.1) (hs.act a) (hsealed.happens happened) patient.2

/-! ## Calls that succeed -/

theorem finished_of_shutdown (step : task.Steps t s.shared p) (hshutdown : task.isShutdown = true)
    {answer : Answer} (hnext : p.next = some (.finished (.ok answer))) : (∃ b, task = .closing b) ∨
      task = .leavingReady
        ∧ (s.shared.lifecycle.phase = .shuttingDown ∨ s.shared.lifecycle.phase = .terminated) := by
  have hrole : task.role? = some .closing → ∃ b, task = .closing b := by
    intro hrole
    by_cases hfinal : task.isFinal = true
    · cases task with
      | closing b => exact ⟨b, rfl⟩
      | entering r => cases hrole
      | _ => cases hfinal
    · have hgoes := step.role_of_not_final (Bool.of_not_eq_true hfinal)
      rw [hrole, hnext] at hgoes
      cases hgoes
  unfold Task.isShutdown at hshutdown
  split at hshutdown
  · cases step with
    | exitBegun _ | shutdownBegun _ => cases hnext
    | taken hentry _ | notTaken hentry _ => cases hentry
  · cases step with
    | leftAlready hphase => exact .inr ⟨rfl, hphase⟩
    | leftReady _ | notYetReady _ => cases hnext
  · exact .inl (hrole (of_decide_eq_true hshutdown))

/-! ## Whole runs -/

/-- What holds of the end of a session in a run. -/
structure ShutsWholly (options : SessionOptions) (actions : List Action) : Prop where
  /-- While the session is being shut down, a call does it. -/
  underWay : ((create options).run actions).shared.lifecycle.phase = .shuttingDown →
    ∃ t, ((create options).run actions).IsClosing t
  /-- When a call that shuts the session down succeeds with its next turn, and no other is under way, the
  session has terminated, and there is a cause. -/
  succeeds : ∀ t task answer, ((create options).run actions).task? t = some task → task.isShutdown = true →
    (((create options).run actions).act (.turn t)).answer? t = some (.ok answer) →
    (∀ u, ¬ (((create options).run actions).act (.turn t)).IsClosing u) →
    (((create options).run actions).act (.turn t)).shared.lifecycle.phase = .terminated
      ∧ (((create options).run actions).act (.turn t)).Caused ((create options).HandshakeLost actions)

/-- **A session is shut down wholly**, if no caller leaves while it is being shut down. -/
theorem shut_down_wholly (options : SessionOptions) (actions : List Action)
    (hpatient : (create options).Patient actions) : ShutsWholly options actions := by
  have hcausal : ((create options).run actions).Causal ((create options).HandshakeLost actions) :=
    (causal_create options).run actions id
  have haccompanied : ((create options).run actions).Accompanied :=
    (accompanied_create options).run (named_create options) (sealed_create options) hpatient
  have hnamed := hcausal.attended.named
  refine ⟨fun hphase => ?_, fun t task answer htask hshutdown hanswer halone => ?_⟩
  · obtain ⟨t, task, hmem, hrole⟩ := haccompanied hphase
    exact ⟨t, hnamed.isClosing_iff.mpr ⟨task, hmem, hrole⟩⟩
  · have here := hnamed.task?_eq_some_iff.mp htask
    have happened := hnamed.happens_act (.turn t)
    have hpatiently : (((create options).run actions).act (.turn t)).Accompanied :=
      haccompanied.happens hnamed hcausal.sealed happened trivial
    generalize (create options).run actions = s at *
    generalize s.act (.turn t) = s' at *
    have hover : s.shared.lifecycle.phase = .terminated := by
      cases happened with
      | nothing =>
        -- a call that is over does not take turns
        unfold answer? at hanswer
        rw [htask] at hanswer
        cases task with
        | finished _ => cases hshutdown
        | _ => cases hanswer
      | turn step moved =>
        obtain rfl := hnamed.unique moved.here here
        have hnext := moved.task?_self hnamed
        unfold answer? at hanswer
        split at hanswer
        · next answer' hfinished =>
          obtain rfl := Option.some.inj hanswer
          rcases finished_of_shutdown step hshutdown (hnext.symm.trans hfinished) with
            ⟨b, rfl⟩ | ⟨rfl, hphase | hphase⟩
          · exact hcausal.sealed.closing t b here
          · exfalso
            cases step with
            | leftAlready _ =>
              obtain ⟨holder, hafter⟩ := s.shared.after_eq t (some (.finished (.ok .nothing)))
              have hstill : s'.shared.lifecycle.phase = .shuttingDown := by
                rw [moved.shared, hafter]
                exact hphase
              obtain ⟨u, other, hmem, hrole⟩ := hpatiently hstill
              exact halone u ((moved.named hnamed).isClosing_iff.mpr ⟨other, hmem, hrole⟩)
            | leftReady hready => exact absurd (hready.symm.trans hphase) (by decide)
            | notYetReady _ => cases hnext.symm.trans hfinished
          · exact hphase
        · cases hanswer
    exact ⟨happened.stays_terminated hover, hcausal.caused_happens happened (hcausal.cause hover)⟩

theorem shut_down_wholly_whole :
    (create {}).Patient wholeSession.dropLast
      ∧ (((create {}).run wholeSession.dropLast).task? 3).any Task.isShutdown = true
      ∧ (((create {}).run wholeSession).answer? 3).isSome = true
      ∧ ((create {}).run wholeSession).shared.lifecycle.phase = .terminated
      ∧ ShutsWholly {} wholeSession.dropLast := by
  have hrun : (create {}).Patient wholeSession.dropLast
      ∧ (((create {}).run wholeSession.dropLast).task? 3).any Task.isShutdown = true
      ∧ (((create {}).run wholeSession).answer? 3).isSome = true
      ∧ ((create {}).run wholeSession).shared.lifecycle.phase = .terminated := by decide +kernel
  obtain ⟨hpatient, hshutdown, hanswer, hphase⟩ := hrun
  exact ⟨hpatient, hshutdown, hanswer, hphase, shut_down_wholly {} wholeSession.dropLast hpatient⟩

/-- The caller that shuts the session down leaves before the server has answered. -/
def leftInShutdown : List Action := wholeSession.take 22 ++ [.drop 3, .turn 4]

/-- The caller of the handshake leaves, and then another shuts the session down. -/
def shutAfterLeaving : List Action :=
  handshakeSent ++ .drop 1 :: List.replicate 3 (.turn 2) ++ [.call .shutdown, .turn 3]

theorem not_isClosing (h : s.tasks.all (fun x => x.2.role? ≠ some .closing) = true) (t : TaskId) :
    ¬ s.IsClosing t := by
  intro hclosing
  obtain ⟨task, htask, hrole⟩ := Option.bind_eq_some_iff.mp hclosing
  obtain ⟨before, after, htasks, -⟩ := List.lookup_eq_some_iff.mp htask
  have hmem : (t, task) ∈ s.tasks := htasks ▸ List.mem_append_right _ List.mem_cons_self
  exact of_decide_eq_true (List.all_eq_true.mp h _ hmem) hrole

/-- A caller that leaves while the session is being shut down leaves it so. And when the handshake has failed,
a call that shuts the session down succeeds without a message to the server, although both directions work. -/
theorem left_half_done :
    ¬ (∀ actions, (∀ t, ¬ ((create {}).run actions).IsClosing t) →
        ((create {}).run actions).shared.lifecycle.phase ≠ .shuttingDown)
      ∧ ¬ (∀ actions t task answer, (create {}).Patient actions →
        ((create {}).run actions).task? t = some task → task.isShutdown = true →
        (((create {}).run actions).act (.turn t)).answer? t = some (.ok answer) →
        (∀ u, ¬ (((create {}).run actions).act (.turn t)).IsClosing u) →
        (((create {}).run actions).act (.turn t)).Caused False) := by
  refine ⟨fun h => ?_, fun h => ?_⟩
  · have hnobody : ∀ t, ¬ ((create {}).run leftInShutdown).IsClosing t := not_isClosing (by decide +kernel)
    exact h leftInShutdown hnobody (by decide +kernel)
  · have hnobody : ∀ t, ¬ (((create {}).run shutAfterLeaving).act (.turn 3)).IsClosing t :=
      not_isClosing (by decide +kernel)
    have hcaused := h shutAfterLeaving 3 .leavingReady .nothing (by decide +kernel) rfl rfl rfl hnobody
    have hflow : (((create {}).run shutAfterLeaving).act (.turn 3)).shared.outflow = .flowing := rfl
    have hreading : (((create {}).run shutAfterLeaving).act (.turn 3)).task? readLoop = some .reading := rfl
    have hnamed := ((named_create {}).run shutAfterLeaving).act (.turn 3)
    rcases hcaused with ⟨-, hclosed⟩ | hbroken | hover | hfalse
    · exact nomatch hflow.symm.trans hclosed
    · exact nomatch hflow.symm.trans hbroken
    · exact hover (hnamed.task?_eq_some_iff.mp hreading)
    · exact hfalse

end Session

end LanguageClient
