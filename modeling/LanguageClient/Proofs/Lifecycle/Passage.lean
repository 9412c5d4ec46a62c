import LanguageClient.Lifecycle

/-!
# LanguageClient.Proofs.Lifecycle.Passage -- a session passes its phases forwards, each once

Whatever is done with the phase of a session, and in whatever order: it goes forwards only, each phase
before the last is entered at most once and in order, and what the server said of itself is known as
long as the session can be used (`passage`). `Lifecycle.trail` are all states that can be seen in a run.
It has a state more than there are actions where the end of the handshake is seen half done.
-/

namespace LanguageClient

/-! ## Runs -/

/-- Something that is done with the phase of a session. -/
inductive LifecycleAction where
  | beginInitialize
  | finishInitialize (result : InitializeResult)
  | beginShutdown
  | terminate
  | ensureReady

/-- What an action answers. -/
inductive LifecycleAnswer where
  | done (r : Except Fault Unit)
  /-- Whether there was anything to shut down. -/
  | shutdown (r : Except Fault Bool)
  /-- The phase that was left. -/
  | left (phase : Phase)

/-- The phase that an action is to lead to, if it is a step of a session towards its end. -/
def LifecycleAction.goal? : LifecycleAction → Option Phase
  | beginInitialize => some .initializing
  | finishInitialize _ => some .ready
  | beginShutdown => some .shuttingDown
  | terminate | ensureReady => none

/-- The action was refused. -/
def LifecycleAnswer.isRefusal : LifecycleAnswer → Bool
  | done (.error _) | shutdown (.error _) | shutdown (.ok false) => true
  | done (.ok _) | shutdown (.ok true) | left _ => false

namespace Lifecycle

/-- Does an action. -/
def act (l : Lifecycle) : LifecycleAction → LifecycleAnswer × Lifecycle
  | .beginInitialize =>
    match l.beginInitialize with
    | .ok next => (.done (.ok ()), next)
    | .error f => (.done (.error f), l)
  | .finishInitialize result =>
    let (r, next) := l.finishInitialize result
    (.done r, next)
  | .beginShutdown =>
    let (r, next) := l.beginShutdown
    (.shutdown r, next)
  | .terminate => (.left l.phase, l.terminate)
  | .ensureReady => (.done l.ensureReady, l)

/-- The state after a list of actions. -/
def run (l : Lifecycle) (actions : List LifecycleAction) : Lifecycle :=
  actions.foldl (fun l a => (l.act a).2) l

/-- The state that can be seen while an action is going on, if there is one: the end of the handshake
puts the result down before it changes the phase. -/
def midway? (l : Lifecycle) : LifecycleAction → Option Lifecycle
  | .finishInitialize result => some (l.record result)
  | _ => none

/-- All states that can be seen in a run, in order. -/
def trail (l : Lifecycle) : List LifecycleAction → List Lifecycle
  | [] => [l]
  | a :: rest => l :: ((l.midway? a).toList ++ (l.act a).2.trail rest)

/-- The phase that an action reaches by a step of the session. -/
def milestone? (l : Lifecycle) (a : LifecycleAction) : Option Phase :=
  if (l.act a).1.isRefusal then none else a.goal?

/-- The phases that are reached by steps of the session, in order. -/
def milestones (l : Lifecycle) : List LifecycleAction → List Phase
  | [] => []
  | a :: rest => (l.milestone? a).toList ++ (l.act a).2.milestones rest

/-- Whether watchers have reason to look again at an action. -/
def Disturbs (l : Lifecycle) (a : LifecycleAction) : Prop :=
  (l.act a).2.phase ≠ l.phase ∨ a = .terminate

/-- What holds of every run of a session that has just begun. -/
structure Passage (actions : List LifecycleAction) : Prop where
  /-- The phase never goes backwards, and the last one is never left. -/
  forwards : (trail {} actions).Pairwise fun l l' =>
    l.phase ≤ l'.phase ∧ (l.phase = .terminated → l'.phase = .terminated)
  /-- The phases are reached in order, each at most once. -/
  once : milestones {} actions <+: [.initializing, .ready, .shuttingDown]
  /-- A step is done exactly when it is its turn, and then it reaches its phase. -/
  steps : ∀ a goal, a.goal? = some goal →
    (((run {} actions).act a).1.isRefusal = false ↔ (run {} actions).phase.rank + 1 = goal.rank) ∧
      (((run {} actions).act a).1.isRefusal = false → ((run {} actions).act a).2.phase = goal)
  /-- What is refused leaves the phase as it is. -/
  refused : ∀ a, ((run {} actions).act a).1.isRefusal = true →
    ((run {} actions).act a).2.phase = (run {} actions).phase
  /-- The last phase is reached from every other, by what is never refused. -/
  ended : ((run {} actions).act .terminate).2.phase = .terminated
    ∧ ((run {} actions).act .terminate).1.isRefusal = false
  /-- Messages may be sent exactly while the session is ready. -/
  gate : ((run {} actions).act .ensureReady).1.isRefusal = false ↔ (run {} actions).phase = .ready
  /-- Who sees a phase in which the session is in use also finds what the server said of itself. -/
  known : ∀ l ∈ trail {} actions, l.phase = .ready ∨ l.phase = .shuttingDown → l.result.isSome = true
  /-- What the server said of itself stays. -/
  kept : (trail {} actions).Pairwise fun l l' => ∀ r, l.result = some r → l'.result = some r
  /-- Who has looked at the phase is told to look again exactly by what changes it, or ends the session. -/
  told : ∀ earlier later, actions = earlier ++ later → ∀ w : Watcher,
    ((w.look (run {} earlier)).2.isTold (run {} actions) = true ↔
      ∃ before a after, later = before ++ a :: after ∧ (run {} (earlier ++ before)).Disturbs a)
  /-- Who looks at the phase sees the one that is. -/
  looked : ∀ l ∈ trail {} actions, ∀ w : Watcher, (w.look l).1 = l.phase

variable {l l' l'' : Lifecycle} {a : LifecycleAction}

theorem run_append (l : Lifecycle) (actions more : List LifecycleAction) :
    l.run (actions ++ more) = (l.run actions).run more := List.foldl_append

/-! ## What an action does -/

/-- An action is refused and changes at most the result, or is a step to the next phase, or is none. -/
theorem act_cases (l : Lifecycle) (a : LifecycleAction) :
    ((l.act a).1.isRefusal = true ∧ (l.act a).2.phase = l.phase
        ∧ (l.act a).2.revision = l.revision ∧ a ≠ .terminate
        ∧ ∀ goal, a.goal? = some goal → l.phase.rank + 1 ≠ goal.rank)
      ∨ (∃ goal, (l.act a).1.isRefusal = false ∧ a.goal? = some goal ∧ l.phase.rank + 1 = goal.rank
        ∧ (l.act a).2.phase = goal ∧ (l.act a).2.revision = l.revision + 1 ∧ a ≠ .terminate)
      ∨ (a = .terminate ∧ (l.act a).1.isRefusal = false ∧ (l.act a).2.phase = .terminated
        ∧ (l.act a).2.revision = l.revision + 1)
      ∨ (a = .ensureReady ∧ (l.act a).1.isRefusal = false ∧ (l.act a).2 = l) := by
  cases a with
  | beginInitialize =>
    cases hphase : l.phase <;>
      simp [act, beginInitialize, hphase, enter, LifecycleAnswer.isRefusal, LifecycleAction.goal?,
        Phase.rank]
  | finishInitialize result =>
    cases hphase : l.phase <;>
      simp [act, finishInitialize, becomeReady, record, hphase, enter, LifecycleAnswer.isRefusal,
        LifecycleAction.goal?, Phase.rank]
  | beginShutdown =>
    cases hphase : l.phase <;>
      simp [act, beginShutdown, hphase, enter, LifecycleAnswer.isRefusal, LifecycleAction.goal?,
        Phase.rank]
  | terminate => exact .inr (.inr (.inl ⟨rfl, rfl, rfl, rfl⟩))
  | ensureReady =>
    by_cases hphase : l.phase = .ready <;>
      simp [act, ensureReady, hphase, LifecycleAnswer.isRefusal, LifecycleAction.goal?]

theorem rank_act (l : Lifecycle) (a : LifecycleAction) : l.phase.rank ≤ (l.act a).2.phase.rank := by
  rcases l.act_cases a with ⟨-, hphase, -⟩ | ⟨goal, -, -, hrank, hphase, -⟩ | ⟨-, -, hphase, -⟩
    | ⟨-, -, hact⟩
  · exact Nat.le_of_eq (congrArg Phase.rank hphase.symm)
  · rw [hphase]
    omega
  · rw [hphase]
    cases l.phase <;> decide
  · exact Nat.le_of_eq (congrArg (·.phase.rank) hact.symm)

/-- Watchers are told to look again by what disturbs them, and by nothing else. -/
theorem revision_act (l : Lifecycle) (a : LifecycleAction) :
    (l.Disturbs a ∧ (l.act a).2.revision = l.revision + 1)
      ∨ (¬ l.Disturbs a ∧ (l.act a).2.revision = l.revision) := by
  unfold Disturbs
  rcases l.act_cases a with ⟨-, hphase, hrevision, hne, -⟩ | ⟨goal, -, -, hrank, hphase, hrevision, -⟩
    | ⟨ha, -, -, hrevision⟩ | ⟨ha, -, hact⟩
  · exact .inr ⟨by simp [hphase, hne], hrevision⟩
  · refine .inl ⟨.inl fun heq => ?_, hrevision⟩
    rw [← hphase, heq] at hrank
    omega
  · exact .inl ⟨.inr ha, hrevision⟩
  · refine .inr ⟨?_, congrArg revision hact⟩
    rintro (hphase | hend)
    · exact hphase (congrArg phase hact)
    · exact absurd (ha.symm.trans hend) (by simp)

/-! ## What was seen earlier holds later -/

/-- What can be seen of a session later than a state of it. -/
structure Later (l l' : Lifecycle) : Prop where
  phase : l.phase.rank ≤ l'.phase.rank
  result : ∀ r, l.result = some r → l'.result = some r

theorem Later.refl (l : Lifecycle) : l.Later l := ⟨Nat.le_refl _, fun _ h => h⟩

theorem Later.trans (h : l.Later l') (h' : l'.Later l'') : l.Later l'' :=
  ⟨Nat.le_trans h.phase h'.phase, fun r hr => h'.result r (h.result r hr)⟩

theorem later_record (l : Lifecycle) (r : InitializeResult) : l.Later (l.record r) where
  phase := Nat.le_refl _
  result r' h := by simp [record, h]

theorem result_finishInitialize (l : Lifecycle) (r : InitializeResult) :
    (l.finishInitialize r).2.result = (l.record r).result := by
  unfold finishInitialize becomeReady
  split <;> rfl

theorem later_act (l : Lifecycle) (a : LifecycleAction) : l.Later (l.act a).2 where
  phase := l.rank_act a
  result r h := by
    cases a with
    | beginInitialize =>
      simp only [act, beginInitialize]
      split
      · next next hnext =>
        split at hnext
        · obtain rfl := Except.ok.inj hnext
          exact h
        · cases hnext
      · exact h
    | finishInitialize result =>
      show (l.finishInitialize result).2.result = some r
      rw [result_finishInitialize]
      exact (later_record l result).result r h
    | beginShutdown =>
      simp only [act, beginShutdown]
      split <;> exact h
    | terminate => exact h
    | ensureReady => exact h

theorem later_midway (h : l.midway? a = some l') : l.Later l' ∧ l'.Later (l.act a).2 := by
  cases a with
  | finishInitialize result =>
    obtain rfl := Option.some.inj h
    refine ⟨later_record l result, l.rank_act (.finishInitialize result), fun r hr => ?_⟩
    show (l.finishInitialize result).2.result = some r
    rw [result_finishInitialize]
    exact hr
  | _ => cases h

theorem later_of_mem_trail (actions : List LifecycleAction) (h : l' ∈ l.trail actions) :
    l.Later l' := by
  induction actions generalizing l with
  | nil =>
    rw [List.mem_singleton.mp h]
    exact Later.refl l
  | cons a rest ih =>
    rcases List.mem_cons.mp h with rfl | h
    · exact Later.refl _
    · rcases List.mem_append.mp h with h | h
      · exact (later_midway (Option.mem_toList.mp h)).1
      · exact (l.later_act a).trans (ih h)

theorem pairwise_trail (l : Lifecycle) (actions : List LifecycleAction) :
    (l.trail actions).Pairwise Later := by
  induction actions generalizing l with
  | nil => exact List.pairwise_singleton _ _
  | cons a rest ih =>
    refine List.pairwise_cons.mpr ⟨fun l' h => ?_, List.pairwise_append.mpr ⟨?_, ih _, ?_⟩⟩
    · exact later_of_mem_trail (a :: rest) (List.mem_cons_of_mem l h)
    · cases l.midway? a with
      | none => exact List.Pairwise.nil
      | some _ => exact List.pairwise_singleton _ _
    · intro l' h l'' h'
      exact (later_midway (Option.mem_toList.mp h)).2.trans (later_of_mem_trail rest h')

/-! ## The result is there while the session is in use -/

/-- While the session is in use, what the server said of itself is there. -/
def Known (l : Lifecycle) : Prop :=
  l.phase = .ready ∨ l.phase = .shuttingDown → l.result.isSome = true

theorem known_record (l : Lifecycle) (r : InitializeResult) : (l.record r).Known := by
  intro _
  cases h : l.result <;> simp [record, h]

theorem Known.act (h : l.Known) (a : LifecycleAction) : (l.act a).2.Known := by
  intro hphase
  have hresult : ∀ r, l.result = some r → (l.act a).2.result.isSome = true := fun r hr => by
    rw [(l.later_act a).result r hr]
    rfl
  rcases l.act_cases a with ⟨-, hsame, -⟩ | ⟨goal, -, hgoal, hrank, hreached, -⟩ | ⟨-, -, hended, -⟩
    | ⟨-, -, hact⟩
  · rw [hsame] at hphase
    obtain ⟨r, hr⟩ := Option.isSome_iff_exists.mp (h hphase)
    exact hresult r hr
  · cases a with
    | beginInitialize =>
      obtain rfl := Option.some.inj hgoal
      rw [hreached] at hphase
      simp at hphase
    | finishInitialize result =>
      show (l.finishInitialize result).2.result.isSome = true
      rw [result_finishInitialize]
      cases hr : l.result <;> simp [record, hr]
    | beginShutdown =>
      obtain rfl := Option.some.inj hgoal
      -- the phase before the step was the one in which the session is ready
      have hready : l.phase = .ready := by
        cases hl : l.phase <;> simp [hl, Phase.rank] at hrank ⊢
      obtain ⟨r, hr⟩ := Option.isSome_iff_exists.mp (h (.inl hready))
      exact hresult r hr
    | terminate => cases hgoal
    | ensureReady => cases hgoal
  · rw [hended] at hphase
    simp at hphase
  · rw [hact] at hphase ⊢
    exact h hphase

theorem Known.of_mem_trail (h : l.Known) (actions : List LifecycleAction)
    (hl' : l' ∈ l.trail actions) : l'.Known := by
  induction actions generalizing l with
  | nil =>
    rw [List.mem_singleton.mp hl']
    exact h
  | cons a rest ih =>
    rcases List.mem_cons.mp hl' with rfl | hl'
    · exact h
    · rcases List.mem_append.mp hl' with hl' | hl'
      · cases a with
        | finishInitialize result =>
          rw [← Option.some.inj (Option.mem_toList.mp hl')]
          exact known_record l result
        | _ => cases Option.mem_toList.mp hl'
      · exact ih (h.act a) hl'

/-! ## Milestones -/

/-- The phases that are reached by steps, in order. -/
def stages : List Phase := [.initializing, .ready, .shuttingDown]

/-- The milestones that were reached are those up to the phase, unless the session has ended early. -/
structure Reached (l : Lifecycle) (passed : List Phase) : Prop where
  isPrefix : passed <+: stages
  exact : l.phase ≠ .terminated → passed = stages.take l.phase.rank

/-- The phase after another is the next of the stages. -/
theorem take_rank_append {phase goal : Phase} (h : phase.rank + 1 = goal.rank)
    (hne : goal ≠ .terminated) : stages.take phase.rank ++ [goal] = stages.take goal.rank := by
  cases phase <;> cases goal <;> simp_all [Phase.rank, stages]

theorem Reached.act {passed : List Phase} (h : l.Reached passed) (a : LifecycleAction) :
    (l.act a).2.Reached (passed ++ (l.milestone? a).toList) := by
  unfold milestone?
  rcases l.act_cases a with ⟨href, hphase, -⟩ | ⟨goal, href, hgoal, hrank, hphase, -⟩
    | ⟨rfl, href, hphase, -⟩ | ⟨rfl, href, hact⟩
  · rw [href, if_pos rfl, Option.toList_none, List.append_nil]
    exact ⟨h.isPrefix, fun hne => hphase ▸ h.exact (hphase ▸ hne)⟩
  · rw [href, hgoal]
    simp only [Bool.false_eq_true, if_false, Option.toList_some]
    have hne : goal ≠ .terminated := by
      rintro rfl
      cases a <;> simp [LifecycleAction.goal?] at hgoal
    have hbefore : l.phase ≠ .terminated := by
      intro heq
      rw [heq] at hrank
      cases goal <;> simp [Phase.rank] at hrank
    have hpassed : passed ++ [goal] = stages.take goal.rank := by
      rw [h.exact hbefore]
      exact take_rank_append hrank hne
    exact ⟨hpassed ▸ List.take_prefix _ _, fun _ => hphase ▸ hpassed⟩
  · rw [href]
    simp only [Bool.false_eq_true, if_false, LifecycleAction.goal?, Option.toList_none, List.append_nil]
    exact ⟨h.isPrefix, fun hne => absurd hphase hne⟩
  · rw [href, hact]
    simp only [Bool.false_eq_true, if_false, LifecycleAction.goal?, Option.toList_none, List.append_nil]
    exact h

theorem Reached.run {passed : List Phase} (h : l.Reached passed) (actions : List LifecycleAction) :
    (l.run actions).Reached (passed ++ l.milestones actions) := by
  induction actions generalizing l passed with
  | nil => simpa [Lifecycle.run, milestones] using h
  | cons a rest ih =>
    have hrest := ih (h.act a)
    rw [milestones, ← List.append_assoc]
    exact hrest

/-! ## Watchers -/

/-- A run raises the revision exactly if something in it disturbs the watchers. -/
theorem revision_run (l : Lifecycle) (actions : List LifecycleAction) :
    l.revision ≤ (l.run actions).revision ∧
      (l.revision ≠ (l.run actions).revision ↔
        ∃ before a after, actions = before ++ a :: after ∧ (l.run before).Disturbs a) := by
  induction actions generalizing l with
  | nil => simp [run]
  | cons a rest ih =>
    obtain ⟨hle, hiff⟩ := ih (l.act a).2
    have hrun : l.run (a :: rest) = (l.act a).2.run rest := rfl
    rw [hrun]
    rcases l.revision_act a with ⟨hdisturbs, hrevision⟩ | ⟨hquiet, hrevision⟩
    · refine ⟨by omega, fun _ => ⟨[], a, rest, rfl, hdisturbs⟩, fun _ => by omega⟩
    · rw [hrevision] at hle hiff
      refine ⟨hle, hiff.trans ⟨?_, ?_⟩⟩
      · rintro ⟨before, b, after, rfl, hb⟩
        exact ⟨a :: before, b, after, rfl, hb⟩
      · rintro ⟨before, b, after, hsplit, hb⟩
        cases before with
        | nil =>
          obtain ⟨rfl, -⟩ := List.cons.inj hsplit
          exact absurd hb hquiet
        | cons c before =>
          obtain ⟨rfl, hrest⟩ := List.cons.inj hsplit
          exact ⟨before, b, after, hrest, hb⟩

/-! ## Whole runs -/

/-- **A session passes its phases forwards, each once, and what was said in the handshake stays known.** -/
theorem passage (actions : List LifecycleAction) : Passage actions where
  forwards := by
    refine (pairwise_trail {} actions).imp fun {l l'} h => ⟨h.phase, fun hl => ?_⟩
    have hrank := h.phase
    rw [hl] at hrank
    cases hl' : l'.phase <;> simp [hl', Phase.rank] at hrank ⊢
  once := by
    have hbegin : Lifecycle.Reached {} [] := ⟨List.nil_prefix, fun _ => rfl⟩
    exact (hbegin.run actions).isPrefix
  steps a goal hgoal := by
    rcases (run {} actions).act_cases a with ⟨href, -, -, -, hturn⟩ | ⟨goal', href, hgoal', hrank, hphase, -⟩
      | ⟨rfl, -⟩ | ⟨rfl, -⟩
    · simp [href, hturn goal hgoal]
    · obtain rfl := Option.some.inj (hgoal'.symm.trans hgoal)
      exact ⟨⟨fun _ => hrank, fun _ => href⟩, fun _ => hphase⟩
    · cases hgoal
    · cases hgoal
  refused a href := by
    rcases (run {} actions).act_cases a with ⟨-, hphase, -⟩ | ⟨goal, href', -⟩ | ⟨-, href', -⟩
      | ⟨-, href', -⟩
    · exact hphase
    · exact absurd (href.symm.trans href') (by simp)
    · exact absurd (href.symm.trans href') (by simp)
    · exact absurd (href.symm.trans href') (by simp)
  ended := ⟨rfl, rfl⟩
  gate := by
    by_cases hready : (run {} actions).phase = .ready <;>
      simp [act, ensureReady, hready, LifecycleAnswer.isRefusal]
  known l hl := by
    have hbegin : Lifecycle.Known {} := by
      intro hphase
      simp at hphase
    exact hbegin.of_mem_trail actions hl
  kept := (pairwise_trail {} actions).imp fun h => h.result
  told earlier later hsplit w := by
    obtain ⟨-, hiff⟩ := (run {} earlier).revision_run later
    simp only [hsplit, run_append]
    exact decide_eq_true_iff.trans hiff
  looked _ _ _ := rfl

end Lifecycle

end LanguageClient
