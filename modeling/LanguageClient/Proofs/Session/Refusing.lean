import LanguageClient.Proofs.Session.Farewell
import LanguageClient.Proofs.Session.Thinning

/-!
# LanguageClient.Proofs.Session.Refusing -- calls outside `ready` have no effect

Requests, notifications and operations on documents are let in while the session is ready. Elsewhere such a
call fails in its first step with the phase that it finds, and nothing that is shared is touched
(`Sifted.turn_refused`). So calls that fail like this can be left out of a run, whatever else goes on in it
meanwhile: the others go the same way, under the names that they get then (`refusals_left_out`).
-/

namespace LanguageClient

namespace Session

/-! ## Calls that are refused -/

/-- The call that is refused in an action: one that is let in only while the session is ready takes its first
step elsewhere. -/
def refused? (s : Session) : Action → Option TaskId
  | .turn t =>
    match s.task? t with
    | some (.called c) =>
      if c.entry?.isSome ∧ s.shared.lifecycle.phase ≠ .ready then some t else none
    | _ => none
  | _ => none

/-- The calls that are refused in a run. -/
def refusals (s : Session) : List Action → List TaskId
  | [] => []
  | a :: rest => (s.refused? a).toList ++ (s.act a).refusals rest

/-- What a refused call comes to. -/
def refusal (s : Session) : Task := .finished (.error (.notReady s.shared.lifecycle.phase))

/-- An action of one of some calls: the call is begun, takes its turn, is dropped, waited for or taken away. -/
def concerns (s : Session) (calls : List TaskId) : Action → Bool
  | .call _ => s.nextTask ∈ calls
  | .turn t | .drop t | .await t | .collect t => t ∈ calls
  | _ => false

/-- A run without the actions of some calls, where the other tasks have the names that they get then. -/
def without (s : Session) (calls : List TaskId) : List Action → List Action
  | [] => []
  | a :: rest =>
    if s.concerns calls a then (s.act a).without calls rest
    else a.renamed (shifted calls) :: (s.act a).without calls rest

variable {s : Session} {a : Action} {rest : List Action} {calls : List TaskId} {t : TaskId}

/-- Who is refused has been called, and nothing more. -/
theorem of_refused? (h : s.refused? a = some t) : ∃ c task, a = .turn t ∧ s.task? t = some (.called c) ∧
    c.entry? = some task ∧ s.shared.lifecycle.phase ≠ .ready := by
  unfold refused? at h
  split at h
  · next u =>
    split at h
    · next c hplace =>
      split at h
      · next hrefused =>
        obtain rfl := Option.some.inj h
        obtain ⟨task, hentry⟩ := Option.isSome_iff_exists.mp hrefused.1
        exact ⟨c, task, rfl, hplace, hentry, hrefused.2⟩
      · cases h
    · cases h
  · cases h

/-- A call that will be refused is still to be begun, or has not taken its first step. -/
theorem Named.refusals_wait (hs : s.Named) {actions : List Action} (h : t ∈ s.refusals actions) :
    s.nextTask ≤ t ∨ ∃ c, (t, .called c) ∈ s.tasks := by
  induction actions generalizing s with
  | nil => cases h
  | cons a rest ih =>
    rcases List.mem_append.mp h with hnow | hlater
    · obtain ⟨c, -, -, hplace, -⟩ := of_refused? (Option.mem_toList.mp hnow)
      exact .inr ⟨c, hs.task?_eq_some_iff.mp hplace⟩
    · have happened := hs.happens_act a
      rcases ih (hs.act a) hlater with hle | ⟨c, hmem⟩
      · exact .inl (Nat.le_trans happened.nextTask_le hle)
      · cases happened.arises hmem with
        | stays here => exact .inr ⟨c, here⟩
        | called _ new => exact .inl new
        | steps _ _ step next => exact absurd rfl (step.not_called next c)
        | left _ _ leaves mem _ => exact absurd rfl (leaves.not_called mem c)

/-! ## Calls that can be left out -/

/-- Some calls of a run, each of which is refused in it: every one is still to be refused, or is over and
has failed so. -/
structure Sifted (s : Session) (calls : List TaskId) (rest : List Action) : Prop where
  named : s.Named
  locked : s.Locked
  settled : ∀ t ∈ calls, t ∈ s.refusals rest ∨ t < s.nextTask ∧
    ∀ task, (t, task) ∈ s.tasks → ∃ phase, task = .finished (.error (.notReady phase))

/-- Such a call has not taken its first step, or it has failed. -/
theorem Sifted.place (h : s.Sifted calls rest) (ht : t ∈ calls) {task : Task} (here : (t, task) ∈ s.tasks) :
    (∃ c, task = .called c ∧ t ∈ s.refusals rest) ∨ ∃ phase, task = .finished (.error (.notReady phase)) := by
  rcases h.settled t ht with hlater | ⟨-, hfailed⟩
  · rcases h.named.refusals_wait hlater with hle | ⟨c, hcalled⟩
    · exact absurd (h.named.given t task here) (Nat.not_lt_of_le hle)
    · exact .inl ⟨c, h.named.unique here hcalled, hlater⟩
  · exact .inr (hfailed task here)

/-- Such a call does not hold the documents. -/
theorem Sifted.free (h : s.Sifted calls rest) : s.Free calls := by
  intro t ht hholder
  obtain ⟨task, here, hholds⟩ := h.locked t hholder
  rcases h.place ht here with ⟨c, rfl, -⟩ | ⟨phase, rfl⟩ <;> cases hholds

/-- A step that such a call takes is the one that fails it: nothing that is shared is touched. -/
theorem Sifted.turn_refused (h : s.Sifted calls (.turn t :: rest)) (ht : t ∈ calls) {task : Task}
    (here : (t, task) ∈ s.tasks) {p : Progress} (hstep : task.step t s.shared = some p) :
    p = ⟨s.shared, some s.refusal, none⟩ ∧ s.refused? (.turn t) = some t := by
  rcases h.place ht here with ⟨c, rfl, hrefused⟩ | ⟨phase, rfl⟩
  · have hplace := h.named.task?_eq_some_iff.mpr here
    rcases List.mem_append.mp hrefused with hnow | hlater
    · have hnow' : s.refused? (.turn t) = some t := Option.mem_toList.mp hnow
      obtain ⟨c', task', -, hplace', hentry, hphase⟩ := of_refused? hnow'
      obtain ⟨rfl⟩ : Task.called c = .called c' := Option.some.inj (hplace.symm.trans hplace')
      have hrefuses : Task.Steps t s.shared (.called c) ⟨s.shared, some s.refusal, none⟩ :=
        .notTaken hentry hphase
      exact ⟨Option.some.inj (hstep.symm.trans hrefuses.step_eq), hnow'⟩
    · -- who has taken a step is not refused later
      have moved := h.named.replaced_turn here hstep
      rcases (h.named.act _).refusals_wait hlater with hle | ⟨c', hcalled⟩
      · have hlt := h.named.given t _ here
        have hmono := (h.named.happens_act (.turn t)).nextTask_le
        exact absurd (Nat.le_trans hmono hle) (Nat.not_le_of_lt hlt)
      · have hself := moved.task?_self h.named
        rw [(h.named.act _).task?_eq_some_iff.mpr hcalled] at hself
        exact absurd rfl ((Task.Steps.of_step hstep).not_called hself.symm c')
  · cases hstep

/-- What happens to such a call does not show in the session without it. -/
theorem Sifted.unseen (h : s.Sifted calls (a :: rest)) (hmine : s.concerns calls a = true) :
    (s.act a).thinned calls = s.thinned calls := by
  cases a with
  | call c => exact thinned_spawn_of_mem s (of_decide_eq_true hmine) _
  | turn t =>
    have ht : t ∈ calls := of_decide_eq_true hmine
    cases htask : s.task? t with
    | none => simp [act, step?, htask]
    | some task =>
      have here := h.named.task?_eq_some_iff.mp htask
      cases hstep : task.step t s.shared with
      | none => simp [act, step?, htask, hstep]
      | some p =>
        obtain ⟨rfl, -⟩ := h.turn_refused ht here hstep
        have hfree : (s.replace t (some s.refusal)).Free calls := h.free
        simp only [act, step?, htask, hstep, Option.getD_some]
        exact (congrArg (thinned calls) (hfree.release_eq ht _)).trans (thinned_replace_of_mem s ht _)
  | drop t =>
    have ht : t ∈ calls := of_decide_eq_true hmine
    simp only [act, Session.drop]
    cases hremains : (s.task? t).bind Task.remains with
    | none => rfl
    | some left =>
      obtain ⟨task, htask, hleft⟩ := Option.bind_eq_some_iff.mp hremains
      have hnone : left = [] := by
        rcases h.place ht (h.named.task?_eq_some_iff.mp htask) with ⟨c, rfl, -⟩ | ⟨phase, rfl⟩ <;>
          exact (Option.some.inj hleft).symm
      have hfree : (s.replace t none).Free calls := h.free
      subst hnone
      exact (congrArg (thinned calls) (hfree.release_eq ht _)).trans (thinned_replace_of_mem s ht _)
  | await t =>
    have ht : t ∈ calls := of_decide_eq_true hmine
    simp only [act, Session.await]
    split
    · exact thinned_replace_of_mem s ht _
    · rfl
  | collect t =>
    have ht : t ∈ calls := of_decide_eq_true hmine
    simp only [act, Session.collect]
    split
    · rfl
    · exact thinned_replace_of_mem s ht _
    · rfl
  | arrive _ | endInput _ | breakOutflow | pass _ => cases hmine

/-- The names that are given to new tasks are not those of such calls, unless it is one that begins. -/
theorem Sifted.new_left (h : s.Sifted calls (a :: rest)) (hother : s.concerns calls a = false) :
    ∀ u, s.nextTask ≤ u → u < (s.act a).nextTask → u ∉ calls := by
  intro u hle hlt hmem
  rcases h.settled u hmem with hlater | ⟨hgiven, -⟩
  · rcases List.mem_append.mp hlater with hnow | hlater
    · obtain ⟨c, -, -, hplace, -⟩ := of_refused? (Option.mem_toList.mp hnow)
      have hgiven := h.named.given u _ (h.named.task?_eq_some_iff.mp hplace)
      exact absurd hle (Nat.not_le_of_lt hgiven)
    · rcases (h.named.act a).refusals_wait hlater with hle' | ⟨c, hcalled⟩
      · exact absurd hlt (Nat.not_lt_of_le hle')
      · cases (h.named.happens_act a).arises hcalled with
        | stays here => exact absurd (h.named.given u _ here) (Nat.not_lt_of_le hle)
        | called action _ =>
          -- the call that begins has the next name, which is not one of theirs
          subst action
          have hname : u = s.nextTask := Nat.le_antisymm (Nat.le_of_lt_succ hlt) hle
          exact of_decide_eq_false hother (hname ▸ hmem)
        | steps _ here => exact absurd (h.named.given u _ here) (Nat.not_lt_of_le hle)
        | left _ _ leaves mem _ => exact absurd rfl (leaves.not_called mem c)
  · exact absurd hle (Nat.not_le_of_lt hgiven)

theorem Sifted.act (h : s.Sifted calls (a :: rest)) : (s.act a).Sifted calls rest where
  named := h.named.act a
  locked := h.locked.happens h.named (h.named.happens_act a)
  settled := by
    intro t ht
    have happened := h.named.happens_act a
    rcases h.settled t ht with hlater | ⟨hgiven, hfailed⟩
    · rcases List.mem_append.mp hlater with hnow | hlater
      · -- it is refused in this action
        obtain ⟨c, task, rfl, hplace, hentry, hphase⟩ := of_refused? (Option.mem_toList.mp hnow)
        have here := h.named.task?_eq_some_iff.mp hplace
        have hrefuses : Task.Steps t s.shared (.called c) ⟨s.shared, some s.refusal, none⟩ :=
          .notTaken hentry hphase
        have moved := h.named.replaced_turn here hrefuses.step_eq
        refine .inr ⟨Nat.lt_of_lt_of_le (h.named.given t _ here) happened.nextTask_le, ?_⟩
        intro other hother
        have hself := moved.task?_self h.named
        rw [(h.named.act _).task?_eq_some_iff.mpr hother] at hself
        exact ⟨_, Option.some.inj hself⟩
      · exact .inl hlater
    · refine .inr ⟨Nat.lt_of_lt_of_le hgiven happened.nextTask_le, ?_⟩
      intro task hmem
      cases happened.arises hmem with
      | stays here => exact hfailed task here
      | called _ new | asked new | left _ _ _ _ new => exact absurd hgiven (Nat.not_lt_of_le new)
      | steps _ here step _ =>
        obtain ⟨phase, rfl⟩ := hfailed _ here
        cases step
      | awaited _ here =>
        obtain ⟨phase, heq⟩ := hfailed _ here
        cases heq

/-- The others go the same way without these calls. -/
theorem Sifted.run {actions : List Action} (h : s.Sifted calls (actions ++ rest)) :
    (s.thinned calls).run (s.without calls actions) = (s.run actions).thinned calls ∧
      (s.run actions).Sifted calls rest := by
  induction actions generalizing s with
  | nil => exact ⟨rfl, h⟩
  | cons a later ih =>
    obtain ⟨hlater, hsifted⟩ := ih h.act
    refine ⟨?_, hsifted⟩
    have hrun : s.run (a :: later) = (s.act a).run later := rfl
    rw [without, hrun, ← hlater]
    cases hmine : s.concerns calls a with
    | true =>
      rw [if_pos rfl, h.unseen hmine]
    | false =>
      rw [if_neg Bool.false_ne_true]
      have hleft : ∀ t, a = .turn t ∨ a = .drop t ∨ a = .await t ∨ a = .collect t → t ∉ calls := by
        rintro t (rfl | rfl | rfl | rfl) <;> exact of_decide_eq_false hmine
      have hact := act_thinned h.free hleft (h.new_left hmine)
      exact congrArg (fun u => Session.run u _) hact

/-- Calls of a run that are refused in it. -/
theorem sifted_create (options : SessionOptions) {actions : List Action}
    (h : ∀ t ∈ calls, t ∈ (create options).refusals actions) : (create options).Sifted calls actions where
  named := named_create options
  locked := locked_create options
  settled t ht := .inl (h t ht)

/-- The session that was just begun is the same without these calls. -/
theorem thinned_create (options : SessionOptions) {actions : List Action}
    (h : ∀ t ∈ calls, t ∈ (create options).refusals actions) :
    (create options).thinned calls = create options := by
  have hloop : readLoop ∉ calls := by
    intro hmem
    rcases (named_create options).refusals_wait (h readLoop hmem) with hle | ⟨c, hcalled⟩
    · exact absurd hle (Nat.not_le_of_lt Nat.zero_lt_one)
    · cases List.mem_singleton.mp hcalled
  have hzero : shifted calls readLoop = readLoop := rfl
  have hone : shifted calls 1 = 1 := by
    have hsucc := shifted_succ calls readLoop
    rw [hzero, if_neg hloop] at hsucc
    exact hsucc
  simp [create, thinned, hloop, hzero, hone, Shared.renamed]

/-! ## What a refusal comes to -/

/-- What refused calls come to in a run, and what the run comes to without them. -/
structure RefusalsLeftOut (options : SessionOptions) (actions : List Action) : Prop where
  /-- A call that is let in only while the session is ready fails elsewhere with the phase, in its first step;
  but for its answer the session stays as it is. -/
  fails : ∀ c task, c.entry? = some task →
    ((create options).run actions).shared.lifecycle.phase ≠ .ready →
    ((create options).run actions).run [.call c, .turn ((create options).run actions).nextTask]
      = ((create options).run actions).spawn ((create options).run actions).refusal
  /-- The same when something else happens between the call and its first step. -/
  failsLater : ∀ before t later, actions = before ++ .turn t :: later →
    ((create options).run before).refused? (.turn t) = some t →
    (create options).run (before ++ [.turn t])
      = ((create options).run before).replace t (some ((create options).run before).refusal)
  /-- Without some or all of the refused calls all that is shared comes to the same at every moment: the
  messages on the wire, the ids, the table, the documents, the phase. Only the name under which the documents
  are held may be another. -/
  shared : ∀ calls, (∀ t ∈ calls, t ∈ (create options).refusals actions) →
    ∀ before later, actions = before ++ later →
    ((create options).run ((create options).without calls before)).shared
      = ((create options).run before).shared.renamed (shifted calls)
  /-- And so do the other calls, to their answers at last. -/
  others : ∀ calls, (∀ t ∈ calls, t ∈ (create options).refusals actions) →
    ∀ before later, actions = before ++ later → ∀ t, t ∉ calls →
    ((create options).run ((create options).without calls before)).task? (shifted calls t)
        = ((create options).run before).task? t ∧
      ((create options).run ((create options).without calls before)).answer? (shifted calls t)
        = ((create options).run before).answer? t

/-- The turn in which a call is refused changes nothing but the call. -/
theorem Locked.act_refused (h : s.Locked) (hs : s.Named) (hrefused : s.refused? (.turn t) = some t) :
    s.act (.turn t) = s.replace t (some s.refusal) := by
  obtain ⟨c, task, -, hplace, hentry, hphase⟩ := of_refused? hrefused
  exact h.act_turn hs hplace rfl (.notTaken hentry hphase) rfl

/-- **Calls outside `ready` have no effect**: they fail with the phase, and may as well be left out. -/
theorem refusals_left_out (options : SessionOptions) (actions : List Action) :
    RefusalsLeftOut options actions := by
  have hthinned : ∀ calls, (∀ t ∈ calls, t ∈ (create options).refusals actions) →
      ∀ before later, actions = before ++ later →
      (create options).run ((create options).without calls before)
        = ((create options).run before).thinned calls := by
    rintro calls hcalls before later rfl
    have hrun := (sifted_create options hcalls).run.1
    rwa [thinned_create options hcalls] at hrun
  constructor
  · intro c task hentry hphase
    exact (locked_run options actions).act_spawned ((named_create options).run actions) rfl
      (.notTaken hentry hphase)
  · rintro before t later - hrefused
    rw [run_append]
    exact (locked_run options before).act_refused ((named_create options).run before) hrefused
  · intro calls hcalls before later heq
    rw [hthinned calls hcalls before later heq]
    rfl
  · intro calls hcalls before later heq t ht
    have hplace := task?_thinned ((create options).run before) ht
    rw [hthinned calls hcalls before later heq]
    refine ⟨hplace, ?_⟩
    unfold answer?
    rw [hplace]

/-- A request before the handshake fails, and the handshake goes the same way without it. -/
example :
    let actions : List Action := [.call (.start "x" none), .turn 1, .call .handshake, .turn 2, .turn 2,
      .turn 2, .turn 2]
    let wire := ((create {}).run ((create {}).without [1] actions)).shared.wire
    (create {}).refusals actions = [1] ∧ wire.length = 1 ∧ wire = ((create {}).run actions).shared.wire := by
  decide +kernel

end Session

end LanguageClient
