import LanguageClient.Proofs.Session.Continuing
import LanguageClient.Proofs.Session.Places

/-!
# LanguageClient.Proofs.Session.Orderly -- sessions in which one call goes on at a time

A session is used in turn (`Session.InTurn`) when calls do not overlap. Then there is always one call at most
that speaks, beside it everything is quiet, and what was said fits (`Session.Orderly`). Every action that the
callers may take keeps this, whatever the server does.
-/

namespace LanguageClient

/-! ## Calls that do not overlap -/

instance (c : Call) : Decidable c.IsOrdinary := by
  cases c <;> unfold Call.IsOrdinary <;> infer_instance

namespace Task

/-- The places at which a call waits: before its first step, for the documents and for an outcome. -/
def isPaused : Task → Bool
  | .called _ | .locking _ | .waiting _ _ _ => true
  | _ => false

end Task

namespace Session

/-- What callers may do in turn. No call begins while another goes on, nor with a reserved message. A call
can be dropped where it waits; a message that is being written would go on by itself, beside later calls. -/
def Admits (s : Session) : Action → Prop
  | .call c => c.IsOrdinary ∧ ∀ x ∈ s.tasks, x.2.needsSession = false
  | .drop t => ∀ x ∈ s.tasks, x.1 = t → x.2.needsSession = true → x.2.isPaused = true
  | _ => True

instance (s : Session) : (a : Action) → Decidable (s.Admits a)
  | .call c => inferInstanceAs (Decidable (c.IsOrdinary ∧ ∀ x ∈ s.tasks, x.2.needsSession = false))
  | .drop t => inferInstanceAs (Decidable (∀ x ∈ s.tasks, x.1 = t → x.2.needsSession = true →
      x.2.isPaused = true))
  | .turn _ | .await _ | .collect _ | .arrive _ | .endInput _ | .breakOutflow | .pass _ => .isTrue trivial

/-- The callers take turns. -/
def InTurn (s : Session) : List Action → Prop
  | [] => True
  | a :: rest => s.Admits a ∧ (s.act a).InTurn rest

instance InTurn.decide (s : Session) : (actions : List Action) → Decidable (s.InTurn actions)
  | [] => .isTrue trivial
  | a :: rest => @instDecidableAnd _ _ inferInstance (InTurn.decide (s.act a) rest)

end Session

variable {cut : Prop} {s : Shared}

namespace Task

variable {task : Task}

/-- A call that is dropped where it waits leaves the session at rest. -/
theorem Speaks.leaves (h : task.Speaks cut s) (hpaused : task.isPaused = true) {rest : List Task}
    (leaves : task.Leaves rest) : s.AtRest cut ∧ ∀ left ∈ rest, left.IsQuiet := by
  cases leaves with
  | called =>
    cases h with
    | called ordinary hrest => exact ⟨hrest, List.forall_mem_nil _⟩
  | locking =>
    cases h with
    | locking phase opened => exact ⟨.of_opened opened phase, List.forall_mem_nil _⟩
  | waiting =>
    rename_i w p deadline
    refine ⟨?_, fun left hmem => List.mem_singleton.mp hmem ▸ .abandoning w p⟩
    cases h with
    | waiting hp unlimited phase after =>
      cases p with
      | handshake | shutdown =>
        refine .of_phase after.allowed ?_
        rcases phase with hphase | hphase <;> rw [hphase] <;> decide
      | result _ | waiter => exact .of_opened after phase
  | closingOutflow | writing _ | terminating _ | closing _ | started | finished _ => cases hpaused

theorem IsQuiet.leaves (h : task.IsQuiet) {rest : List Task} (leaves : task.Leaves rest) :
    ∀ left ∈ rest, left.IsQuiet := by
  cases leaves with
  | called | locking | closingOutflow => cases h
  | finished _ => exact List.forall_mem_nil _
  | waiting | started => exact fun left hmem => List.mem_singleton.mp hmem ▸ .abandoning _ _
  | writing hloose =>
    cases h
    exact absurd rfl hloose
  | terminating hloose | closing hloose =>
    cases h
    rename_i ends
    rcases ends with ⟨f, heq⟩ | heq | heq
    · cases heq
      exact absurd rfl hloose
    · cases heq
    · cases heq

end Task

namespace Session

/-! ## One call at a time -/

/-- One call at most goes on, and all else is quiet. -/
inductive Orderly (cut : Prop) (s : Session) : Prop
  | free (rest : s.shared.AtRest cut) (quiet : ∀ t task, (t, task) ∈ s.tasks → task.IsQuiet)
  | taken {t : TaskId} {task : Task} (here : (t, task) ∈ s.tasks) (speaks : task.Speaks cut s.shared)
      (quiet : ∀ u other, (u, other) ∈ s.tasks → u ≠ t → other.IsQuiet)

variable {s s' : Session}

theorem orderly_create (options : SessionOptions) : (create options).Orderly cut := by
  refine .free ⟨allowed_nil, fun _ => rfl, nofun⟩ fun t task hmem => ?_
  cases List.mem_singleton.mp hmem
  exact .reading

namespace Orderly

theorem allowed (h : s.Orderly cut) : IsAllowed cut s.shared.sent := by
  cases h with
  | free rest quiet => exact rest.allowed
  | taken here speaks quiet => exact speaks.allowed

/-- Something that no call notices. -/
theorem calm (h : s.Orderly cut) {shared : Shared} (hcalm : Calm s.shared shared) :
    { s with shared }.Orderly cut := by
  cases h with
  | free rest quiet => exact .free (hcalm.atRest rest) quiet
  | taken here speaks quiet => exact .taken here (speaks.calm hcalm) quiet

variable {t : TaskId} {task : Task} {stay : Option Task} {new : List Task} {shared : Shared}

/-- Beside a call that goes on all is quiet. -/
theorem beside (h : s.Orderly cut) (here : (t, task) ∈ s.tasks) (hneeds : task.needsSession = true)
    {u : TaskId} {other : Task} (there : (u, other) ∈ s.tasks) (hu : u ≠ t) : other.IsQuiet := by
  cases h with
  | free rest quiet => exact quiet u other there
  | taken htaken speaks quiet =>
    rename_i v voice
    have hv : t = v := by
      by_contra hne
      have hquiet := (quiet t task here hne).needsSession
      rw [hneeds] at hquiet
      cases hquiet
    exact quiet u other there (hv ▸ hu)

/-- One call at most goes on. -/
theorem alone (h : s.Orderly cut) (here : (t, task) ∈ s.tasks) (hneeds : task.needsSession = true)
    {u : TaskId} {other : Task} (there : (u, other) ∈ s.tasks) (hother : other.needsSession = true) :
    u = t := by
  by_contra hne
  have hquiet := (h.beside here hneeds there hne).needsSession
  rw [hother] at hquiet
  cases hquiet

/-- Something quiet goes on. -/
theorem of_quiet (h : s.Orderly cut) (hs : s.Named) (moved : Replaced s t task stay new shared s')
    (hquiet : task.IsQuiet) (hstay : ∀ next, stay = some next → next.IsQuiet)
    (hnew : ∀ next ∈ new, next.IsQuiet) (hcalm : Calm s.shared shared) : s'.Orderly cut := by
  cases h with
  | free rest quiet =>
    refine .free (moved.shared ▸ hcalm.atRest rest) (moved.forall_tasks hstay ?_ ?_)
    · exact fun _ next hmem _ => hnew next hmem
    · exact fun u other hmem _ => quiet u other hmem
  | taken here speaks quiet =>
    rename_i v voice
    have hne : v ≠ t := by
      rintro rfl
      obtain rfl := hs.unique here moved.here
      have hneeds := speaks.needsSession
      rw [hquiet.needsSession] at hneeds
      cases hneeds
    refine .taken (moved.mem_other here hne) (moved.shared ▸ speaks.calm hcalm)
      (moved.forall_tasks ?_ ?_ ?_)
    · exact fun next hnext _ => hstay next hnext
    · exact fun _ next hmem _ _ => hnew next hmem
    · exact fun u other hmem _ hu => quiet u other hmem hu

/-- The call that speaks goes on. -/
theorem of_speaks (moved : Replaced s t task stay new shared s')
    (quiet : ∀ u other, (u, other) ∈ s.tasks → u ≠ t → other.IsQuiet)
    (hstay : Task.Continues cut shared stay) (hnew : ∀ next ∈ new, next.IsQuiet) : s'.Orderly cut := by
  rw [← moved.shared] at hstay
  cases hstay with
  | speaks hspeaks =>
    refine .taken moved.mem_stay hspeaks (moved.forall_tasks ?_ ?_ ?_)
    · exact fun _ _ hu => absurd rfl hu
    · exact fun _ next hmem _ _ => hnew next hmem
    · exact fun u other hmem _ hu => quiet u other hmem hu
  | rests hquiet hrest =>
    refine .free hrest (moved.forall_tasks ?_ ?_ quiet)
    · exact fun _ hnext => Option.some.inj hnext ▸ hquiet
    · exact fun _ next hmem _ => hnew next hmem

/-- The call that speaks is dropped where it waits. -/
theorem of_dropped (moved : Replaced s t task none new shared s')
    (quiet : ∀ u other, (u, other) ∈ s.tasks → u ≠ t → other.IsQuiet)
    (hrest : shared.AtRest cut) (hnew : ∀ next ∈ new, next.IsQuiet) : s'.Orderly cut := by
  refine .free (moved.shared ▸ hrest) (moved.forall_tasks ?_ ?_ quiet)
  · exact fun _ hnext => (Option.some_ne_none _ hnext.symm).elim
  · exact fun _ next hmem _ => hnew next hmem

end Orderly

variable {t : TaskId} {task : Task}

/-- What is left of a call that was dropped is no call. -/
theorem needsSession_leaves {rest : List Task} (h : task.Leaves rest) {left : Task} (hmem : left ∈ rest) :
    left.needsSession = false := by
  cases h.remnant hmem <;> rfl

/-- A call goes on where it was, or it takes a step, or it begins. -/
theorem Arises.call {a : Action} (h : Arises s a t task) (hneeds : task.needsSession = true) :
    (t, task) ∈ s.tasks ∨ a = .turn t ∨ ∃ c, task = .called c := by
  cases h with
  | stays here => exact .inl here
  | steps action here step next => exact .inr (.inl action)
  | called action new => exact .inr (.inr ⟨_, rfl⟩)
  | left action here leaves mem new =>
    rw [needsSession_leaves leaves mem] at hneeds
    cases hneeds
  | asked new | awaited action here => cases hneeds

/-- The documents do not matter to what is said. -/
theorem calm_after (shared : Shared) (t : TaskId) (next : Option Task) :
    Calm shared (shared.after t next) := by
  obtain ⟨holder, hafter⟩ := shared.after_eq t next
  rw [hafter]
  exact .of_eq rfl rfl rfl

/-- The request that ends the session is refused by the table of calls. -/
def Refuses (s : Session) (a : Action) : Prop :=
  ∃ t task, a = .turn t ∧ (t, task) ∈ s.tasks ∧ task.IsRefused s.shared

/-- **What callers do in turn keeps a session orderly, whatever the server does.** -/
theorem Orderly.happens (h : s.Orderly cut) (hs : s.Named) {a : Action} (happened : Happens s a s')
    (admits : s.Admits a) (hcut : s.Refuses a → cut) : s'.Orderly cut := by
  have gone : ∀ next : Task, none = some next → next.IsQuiet :=
    fun _ heq => (Option.some_ne_none _ heq.symm).elim
  cases happened with
  | nothing => exact h
  | call c =>
    obtain ⟨hordinary, hnone⟩ := admits
    cases h with
    | free rest quiet =>
      refine .taken (List.mem_append_right _ List.mem_cons_self) (.called hordinary rest)
        fun u other hmem hu => ?_
      rcases List.mem_append.mp hmem with hmem | hmem
      · exact quiet u other hmem
      · cases List.mem_singleton.mp hmem
        exact absurd rfl hu
    | taken here speaks quiet =>
      have hfree := hnone _ here
      rw [speaks.needsSession] at hfree
      cases hfree
  | turn step moved =>
    rename_i t task p
    have hcalm := calm_after p.shared t p.next
    have hasked : ∀ next ∈ p.asked.toList.map Task.answering, next.IsQuiet := by
      intro next hmem
      obtain ⟨r, -, rfl⟩ := List.mem_map.mp hmem
      exact .answering r
    by_cases hquiet : task.IsQuiet
    · obtain ⟨hstep, hnext⟩ := hquiet.step step
      exact h.of_quiet hs moved hquiet hnext hasked (hstep.trans hcalm)
    · cases h with
      | free rest quiet => exact absurd (quiet t task moved.here) hquiet
      | taken here speaks quiet =>
        -- what is not quiet is the call that goes on
        obtain rfl := Classical.not_not.mp fun hne => hquiet (quiet t task moved.here hne)
        obtain rfl := hs.unique here moved.here
        have hgoes := speaks.step step fun hrefused => hcut ⟨_, _, rfl, here, hrefused⟩
        exact .of_speaks moved quiet (hgoes.calm hcalm) hasked
  | drop leaves moved =>
    rename_i t task rest
    have hcalm := calm_after s.shared t none
    by_cases hquiet : task.IsQuiet
    · exact h.of_quiet hs moved hquiet gone (hquiet.leaves leaves) hcalm
    · cases h with
      | free hrest quiet => exact absurd (quiet t task moved.here) hquiet
      | taken here speaks quiet =>
        obtain rfl := Classical.not_not.mp fun hne => hquiet (quiet t task moved.here hne)
        obtain rfl := hs.unique here moved.here
        have hpaused := admits _ here rfl speaks.needsSession
        obtain ⟨hrest, hleft⟩ := speaks.leaves hpaused leaves
        exact .of_dropped moved quiet (hcalm.atRest hrest) hleft
  | await moved =>
    refine h.of_quiet hs moved (.finished _) (fun next hnext => ?_) (List.forall_mem_nil _)
      (.of_eq rfl rfl rfl)
    exact Option.some.inj hnext ▸ .waiting _
  | collect _ moved =>
    exact h.of_quiet hs moved (.finished _) gone (List.forall_mem_nil _) (.of_eq rfl rfl rfl)
  | arrive _ | endInput _ | pass _ => exact h.calm (.of_eq rfl rfl rfl)
  | breakOutflow _ => exact h.calm ⟨rfl, .inl rfl, id, fun _ => nofun⟩

end Session

end LanguageClient
