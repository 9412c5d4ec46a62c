import LanguageClient.Session.Run

/-!
# LanguageClient.Proofs.Session.Turns -- the tasks of a session after a turn

`turned_act` says once what a turn of a task does: what is shared is what the step of the task made of
it, but for the lock on the documents; the task goes on where its step says; and a request of the server
gets a task of its own.
-/

namespace LanguageClient

/-- The parts of what is shared that reading works on are those of another. -/
structure SameInflow (s s' : Shared) : Prop where
  pending : s'.pending = s.pending
  input : s'.input = s.input
  inflow : s'.inflow = s.inflow

theorem SameInflow.trans {s s' s'' : Shared} (h : SameInflow s s') (h' : SameInflow s' s'') :
    SameInflow s s'' :=
  ⟨h'.pending.trans h.pending, h'.input.trans h.input, h'.inflow.trans h.inflow⟩

namespace Session

variable {s : Session}

/-! ## The task of a name -/

theorem task?_replace (s : Session) (t : TaskId) (next : Option Task) (u : TaskId) :
    (s.replace t next).task? u = if u = t then (s.task? t).bind (fun _ => next) else s.task? u := by
  unfold task? replace
  simp only
  induction s.tasks with
  | nil => simp
  | cons p tasks ih =>
    obtain ⟨v, task⟩ := p
    by_cases hv : v = t
    · subst hv
      by_cases hu : u = v
      · subst hu
        rw [if_pos rfl] at ih ⊢
        cases next with
        | none => simpa using ih
        | some task' => simp
      · rw [if_neg hu] at ih ⊢
        cases next <;> simpa [List.lookup_cons, beq_false_of_ne hu] using ih
    · by_cases hu : u = v
      · subst hu
        simp [hv]
      · simp only [List.filterMap_cons, if_neg hv, List.lookup_cons, beq_false_of_ne hu, ih,
          beq_false_of_ne (Ne.symm hv)]

theorem task?_spawn (s : Session) (task : Task) (u : TaskId) :
    (s.spawn task).task? u = (s.task? u).or (if u = s.nextTask then some task else none) := by
  unfold task? spawn
  rw [List.lookup_append]
  by_cases hu : u = s.nextTask
  · simp [hu]
  · simp [List.lookup_cons, beq_false_of_ne hu, hu]

@[simp] theorem task?_release (s : Session) (t : TaskId) (next : Option Task) (u : TaskId) :
    (s.release t next).task? u = s.task? u := by
  unfold release
  split <;> rfl

@[simp] theorem replace_nextTask (s : Session) (t : TaskId) (next : Option Task) :
    (s.replace t next).nextTask = s.nextTask := rfl

@[simp] theorem release_nextTask (s : Session) (t : TaskId) (next : Option Task) :
    (s.release t next).nextTask = s.nextTask := by
  unfold release
  split <;> rfl

theorem sameInflow_release (s : Session) (t : TaskId) (next : Option Task) :
    SameInflow s.shared (s.release t next).shared := by
  unfold release Shared.releaseDocuments
  split
  · simp only
    split <;> exact ⟨rfl, rfl, rfl⟩
  · exact ⟨rfl, rfl, rfl⟩

/-! ## A turn -/

/-- What a turn of a task makes of a session, when the step of the task is given. -/
structure Turned (s : Session) (t : TaskId) (p : Progress) (s' : Session) : Prop where
  shared : SameInflow p.shared s'.shared
  tasks : ∀ u, s'.task? u
    = (if u = t then p.next else s.task? u).or (if u = s.nextTask then p.asked.map .answering else none)
  nextTask : s.nextTask ≤ s'.nextTask

/-- A task that is there and can take a step takes it. -/
theorem turned_act {t : TaskId} {task : Task} {p : Progress} (htask : s.task? t = some task)
    (hstep : task.step t s.shared = some p) : Turned s t p (s.act (.turn t)) := by
  have hgone : ∀ u, ({ s with shared := p.shared }.replace t p.next).task? u
      = if u = t then p.next else s.task? u := by
    intro u
    have hsame : ∀ v, Session.task? { s with shared := p.shared } v = s.task? v := fun _ => rfl
    rw [task?_replace, hsame, hsame, htask, Option.bind_some]
  have hshared := sameInflow_release ({ s with shared := p.shared }.replace t p.next) t p.next
  cases hasked : p.asked with
  | none =>
    have hact : s.act (.turn t)
        = ({ s with shared := p.shared }.replace t p.next).release t p.next := by
      simp only [act, step?, htask, hstep, hasked, Option.getD_some]
    rw [hact]
    exact ⟨hshared, fun u => by simp [hgone, hasked], by simp⟩
  | some r =>
    have hact : s.act (.turn t)
        = (({ s with shared := p.shared }.replace t p.next).release t p.next).spawn
            (.answering r) := by
      simp only [act, step?, htask, hstep, hasked, Option.getD_some]
    rw [hact]
    exact ⟨hshared, fun u => by simp [task?_spawn, hgone, hasked], by simp [spawn]⟩

/-- A turn does nothing, when the task is not there or has to wait, or what the step of the task says. -/
theorem act_turn (s : Session) (t : TaskId) :
    s.act (.turn t) = s ∨ ∃ task p, s.task? t = some task ∧ task.step t s.shared = some p
      ∧ Turned s t p (s.act (.turn t)) := by
  cases htask : s.task? t with
  | none => exact .inl (by simp [act, step?, htask])
  | some task =>
    cases hstep : task.step t s.shared with
    | none => exact .inl (by simp [act, step?, htask, hstep])
    | some p => exact .inr ⟨task, p, rfl, hstep, turned_act htask hstep⟩

theorem nextTask_turn (s : Session) (t : TaskId) : s.nextTask ≤ (s.act (.turn t)).nextTask := by
  rcases s.act_turn t with hact | ⟨task, p, htask, hstep, hturned⟩
  · exact Nat.le_of_eq (congrArg nextTask hact.symm)
  · exact hturned.nextTask

end Session

end LanguageClient
