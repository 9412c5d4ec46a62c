import LanguageClient.Proofs.Lifecycle.Passage

/-!
# LanguageClient.Proofs.Lifecycle.Recording -- which result of a handshake is kept

The result of a handshake is put down before it is known whether the handshake is still going on. So what is
kept is the first result with which it was to be ended, whether that attempt was accepted or refused
(`first_result_kept`). It is the one that was accepted if the first attempt came in time; in
`kept_though_refused` it did not, and another result was accepted than is kept.
-/

namespace LanguageClient

/-- The result that an action puts down, if none is there. -/
def LifecycleAction.offer? : LifecycleAction → Option InitializeResult
  | finishInitialize result => some result
  | beginInitialize | beginShutdown | terminate | ensureReady => none

theorem LifecycleAction.offer?_eq_some_iff {a : LifecycleAction} {r : InitializeResult} :
    a.offer? = some r ↔ a = .finishInitialize r := by
  cases a <;> simp [offer?]

namespace Lifecycle

/-- The results with which the handshake was to be ended, in order. -/
def offers (actions : List LifecycleAction) : List InitializeResult := actions.filterMap (·.offer?)

/-- The handshake was ended with a result. -/
def Accepted (actions : List LifecycleAction) (r : InitializeResult) : Prop :=
  ∃ before after, actions = before ++ .finishInitialize r :: after ∧
    ((run {} before).act (.finishInitialize r)).1 = .done (.ok ())

/-- The first attempt to end the handshake, if there is one, comes while it is going on. -/
def FirstInTime (actions : List LifecycleAction) : Prop :=
  ∀ before r after, actions = before ++ .finishInitialize r :: after → offers before = [] →
    (run {} before).phase = .initializing

/-- What is kept of the results with which the handshake was to be ended. -/
structure Recording (actions : List LifecycleAction) : Prop where
  /-- The first of them is kept. -/
  first : (run {} actions).result = (offers actions).head?
  /-- At most one is accepted. -/
  single : ∀ r r', Accepted actions r → Accepted actions r' → r = r'
  /-- If the first came in time, the one that is kept is the one that was accepted. -/
  accepted : FirstInTime actions → ∀ r, (run {} actions).result = some r ↔ Accepted actions r
  /-- If it did not, it was refused, and is kept all the same. -/
  refused : ∀ before r after, actions = before ++ .finishInitialize r :: after → offers before = [] →
    (run {} before).phase ≠ .initializing →
    ((run {} before).act (.finishInitialize r)).1 = .done (.error (.notReady (run {} before).phase))
      ∧ (run {} actions).result = some r

variable {l : Lifecycle} {actions : List LifecycleAction} {r r' : InitializeResult}

/-! ## What is put down -/

theorem result_act (l : Lifecycle) (a : LifecycleAction) :
    (l.act a).2.result = l.result.or a.offer? := by
  cases a with
  | finishInitialize r => exact result_finishInitialize l r
  | beginInitialize =>
    by_cases hphase : l.phase = .uninitialized <;>
      simp [act, beginInitialize, hphase, enter, LifecycleAction.offer?]
  | beginShutdown =>
    cases hphase : l.phase <;> simp [act, beginShutdown, hphase, enter, LifecycleAction.offer?]
  | terminate | ensureReady => exact (Option.or_none).symm

/-- What is there stays, and otherwise the first result that is offered is put down. -/
theorem result_run (l : Lifecycle) (actions : List LifecycleAction) :
    (l.run actions).result = l.result.or (offers actions).head? := by
  induction actions generalizing l with
  | nil => exact (Option.or_none).symm
  | cons a rest ih =>
    have hrest : (l.run (a :: rest)).result = (l.result.or a.offer?).or (offers rest).head? := by
      rw [← result_act]
      exact ih (l.act a).2
    rw [hrest, Option.or_assoc]
    cases ha : a.offer? <;> simp [offers, ha]

/-- The first offer comes with an action before which nothing was offered. -/
theorem split_of_head? (h : (offers actions).head? = some r) :
    ∃ before after, actions = before ++ .finishInitialize r :: after ∧ offers before = [] := by
  obtain ⟨rest, hoffers⟩ := List.head?_eq_some_iff.mp h
  obtain ⟨before, a, after, rfl, hbefore, ha, -⟩ := List.filterMap_eq_cons_iff.mp hoffers
  obtain rfl := LifecycleAction.offer?_eq_some_iff.mp ha
  exact ⟨before, after, rfl, List.filterMap_eq_nil_iff.mpr hbefore⟩

/-! ## What is accepted -/

theorem act_finishInitialize (l : Lifecycle) (r : InitializeResult) :
    (l.phase = .initializing ∧ (l.act (.finishInitialize r)).1 = .done (.ok ())
        ∧ (l.act (.finishInitialize r)).2.phase = .ready)
      ∨ (l.phase ≠ .initializing
        ∧ (l.act (.finishInitialize r)).1 = .done (.error (.notReady l.phase))) := by
  by_cases hphase : l.phase = .initializing <;>
    simp [act, finishInitialize, becomeReady, record, hphase, enter]

theorem accepted_iff :
    (l.act (.finishInitialize r)).1 = .done (.ok ()) ↔ l.phase = .initializing := by
  rcases l.act_finishInitialize r with ⟨hphase, hanswer, -⟩ | ⟨hphase, hanswer⟩
  · exact iff_of_true hanswer hphase
  · exact iff_of_false (by rw [hanswer]; simp) hphase

theorem rank_run (l : Lifecycle) (actions : List LifecycleAction) :
    l.phase.rank ≤ (l.run actions).phase.rank := by
  induction actions generalizing l with
  | nil => exact Nat.le_refl _
  | cons a rest ih => exact Nat.le_trans (l.rank_act a) (ih (l.act a).2)

/-- Once the handshake was ended, no other end of it is accepted. -/
theorem not_initializing_after (hphase : l.phase = .initializing) (later : List LifecycleAction) :
    (l.run (.finishInitialize r :: later)).phase ≠ .initializing := by
  intro hagain
  have hready : (l.act (.finishInitialize r)).2.phase = .ready := by
    rcases l.act_finishInitialize r with ⟨-, -, hready⟩ | ⟨hne, -⟩
    · exact hready
    · exact absurd hphase hne
  have hrank : Phase.rank .ready ≤ Phase.rank .initializing := by
    have hrun := rank_run (l.act (.finishInitialize r)).2 later
    rw [hready] at hrun
    exact hagain ▸ hrun
  exact absurd hrank (by decide)

theorem Accepted.unique (h : Accepted actions r) (h' : Accepted actions r') : r = r' := by
  obtain ⟨before, after, hsplit, haccepted⟩ := h
  obtain ⟨before', after', hsplit', haccepted'⟩ := h'
  have hphase := accepted_iff.mp haccepted
  have hphase' := accepted_iff.mp haccepted'
  -- the one that comes later in the run would come after the end of the handshake
  have later : ∀ {first second : List LifecycleAction} {q : InitializeResult} (rest : List LifecycleAction),
      (run {} first).phase = .initializing → (run {} second).phase = .initializing →
      second = first ++ .finishInitialize q :: rest → False := by
    intro first second q rest hfirst hsecond heq
    rw [heq, run_append] at hsecond
    exact not_initializing_after hfirst rest hsecond
  rcases List.append_eq_append_iff.mp (hsplit.symm.trans hsplit') with ⟨mid, hmid, htail⟩ | ⟨mid, hmid, htail⟩
  · cases mid with
    | nil => exact LifecycleAction.finishInitialize.inj (List.cons.inj htail).1
    | cons a rest =>
      obtain ⟨rfl, -⟩ := List.cons.inj htail
      exact (later rest hphase hphase' hmid).elim
  · cases mid with
    | nil => exact (LifecycleAction.finishInitialize.inj (List.cons.inj htail).1).symm
    | cons a rest =>
      obtain ⟨rfl, -⟩ := List.cons.inj htail
      exact (later rest hphase' hphase hmid).elim

/-- If the first attempt comes in time, what is offered first is accepted. -/
theorem FirstInTime.accepted (h : FirstInTime actions) (hfirst : (offers actions).head? = some r) :
    Accepted actions r := by
  obtain ⟨before, after, rfl, hbefore⟩ := split_of_head? hfirst
  exact ⟨before, after, rfl, accepted_iff.mpr (h before r after rfl hbefore)⟩

/-! ## Whole runs -/

/-- **The first result is kept**, and it is the accepted one if it came in time. -/
theorem first_result_kept (actions : List LifecycleAction) : Recording actions where
  first := result_run {} actions
  single _ _ h h' := h.unique h'
  accepted hintime r := by
    rw [show (run {} actions).result = (offers actions).head? from result_run {} actions]
    refine ⟨hintime.accepted, fun haccepted => ?_⟩
    have hoffered : r ∈ offers actions := by
      obtain ⟨before, after, rfl, -⟩ := haccepted
      exact List.mem_filterMap.mpr ⟨.finishInitialize r, by simp, rfl⟩
    obtain ⟨first, rest, hoffers⟩ := List.exists_cons_of_ne_nil (List.ne_nil_of_mem hoffered)
    have hfirst : (offers actions).head? = some first := by rw [hoffers, List.head?_cons]
    rw [hfirst, (hintime.accepted hfirst).unique haccepted]
  refused before r after hsplit hbefore hphase := by
    refine ⟨?_, ?_⟩
    · rcases (run {} before).act_finishInitialize r with ⟨heq, -⟩ | ⟨-, hanswer⟩
      · exact absurd heq hphase
      · exact hanswer
    · have hrun : (run {} actions).result = (offers actions).head? := result_run {} actions
      rw [hrun, hsplit, offers, List.filterMap_append, ← offers, hbefore]
      rfl

/-- A result that comes before the handshake was begun is refused and kept, and hides the one that is
accepted; one that comes after the end of the session is refused and kept as well. -/
theorem kept_though_refused :
    ¬ (∀ actions r, (run {} actions).result = some r ↔ Accepted actions r)
      ∧ ∃ early accepted late : InitializeResult, early ≠ accepted
        ∧ Accepted [.finishInitialize early, .beginInitialize, .finishInitialize accepted] accepted
        ∧ (run {} [.finishInitialize early, .beginInitialize, .finishInitialize accepted]).result = some early
        ∧ ((run {} [.beginInitialize, .terminate]).act (.finishInitialize late)).1
          = .done (.error (.notReady .terminated))
        ∧ (run {} [.beginInitialize, .terminate, .finishInitialize late]).result = some late := by
  have haccepted : Accepted [.finishInitialize ⟨{}, some ⟨"early", none⟩⟩, .beginInitialize,
      .finishInitialize ⟨{}, none⟩] ⟨{}, none⟩ := ⟨[_, _], [], rfl, rfl⟩
  refine ⟨fun h => ?_, ⟨{}, some ⟨"early", none⟩⟩, ⟨{}, none⟩, ⟨{}, none⟩, ?_, haccepted,
    rfl, rfl, rfl⟩
  · exact absurd ((h _ _).mpr haccepted) (by simp [run, act, finishInitialize, becomeReady, record,
      beginInitialize, enter])
  · simp

end Lifecycle

end LanguageClient
