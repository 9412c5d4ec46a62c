import LanguageClient.Proofs.Session.Orderly

/-!
# LanguageClient.Proofs.Session.Alone -- sessions whose calls do not overlap

Callers may wait for one call to be over before they begin the next (`Session.OneByOne`), whatever they ask
and send; requests that were started may be outstanding meanwhile. Every task is then either at a place in a
call or says nothing of the client's own (`Task.IsPlaced`), and one at most is at a place in a call
(`Session.Alone`). What was said before does not matter here, unlike in `Session.Orderly`.
-/

namespace LanguageClient

namespace Task

/-- A task is at a place in a call, or nothing of the client's own is said there. -/
def IsPlaced (task : Task) : Prop := task.needsSession = true ∨ task.IsQuiet

end Task

variable {me : TaskId} {s : Shared}

/-! ## Where calls go on -/

theorem Purpose.placed_settled (p : Purpose) (outcome : Outcome) : (p.settled outcome).IsPlaced := by
  have hsettles := p.settles outcome
  generalize p.settled outcome = next at hsettles
  cases hsettles with
  | refused | unreadable | accepted | shutdown => exact .inl rfl
  | result | waiter => exact .inr (.finished _)

theorem Purpose.placed_sent (p : Purpose) (s : Shared) (w : Waiter) : (p.sent s w).IsPlaced := by
  cases p with
  | handshake | shutdown | result limit => exact .inl rfl
  | waiter => exact .inr (.finished _)

theorem Task.placed_cancelled (after : AfterCancel) : (Task.cancelled after).IsPlaced := by
  cases after with
  | none => exact .inr (.finished _)
  | some pair => exact .inl rfl

theorem Sending.placed_done {d : Sending} {r : Except Fault Unit} {next : Task}
    (hnext : d.done s r = some next) : next.IsPlaced := by
  cases d with
  | request w p =>
    rcases r with f | _ <;> cases hnext
    · exact .inl rfl
    · exact p.placed_sent s w
  | initialized result => rcases r with f | _ <;> cases hnext <;> exact .inl rfl
  | exit answer =>
    cases hnext
    exact .inl rfl
  | notification | document answer =>
    cases hnext
    exact .inr (.finished _)
  | cancellation after =>
    cases hnext
    exact Task.placed_cancelled after
  | loose => cases hnext

theorem Aftermath.placed_done {a : Aftermath} {next : Task} (hnext : a.done s = some next) :
    next.IsPlaced := by
  cases a with
  | write f d => exact Sending.placed_done hnext
  | handshake f | exit answer =>
    cases hnext
    exact .inr (.finished _)
  | abandoned | ended => cases hnext

namespace Task

variable {task : Task} {p : Progress}

/-- A call goes on at a place in a call, or it is over. -/
theorem Steps.placed (h : Steps me s task p) (hplaced : task.IsPlaced) {next : Task}
    (hnext : p.next = some next) : next.IsPlaced := by
  rcases hplaced with hneeds | hquiet
  · cases h with
    | taken hentry hready =>
      rename_i c first
      cases hnext
      cases c <;> cases hentry <;> exact .inl rfl
    | unregistered _ | left | settled _ =>
      cases hnext
      exact Purpose.placed_settled _ _
    | notFound _ | unnoticed _ =>
      cases hnext
      exact placed_cancelled _
    | written _ => exact Sending.placed_done hnext
    | closed => exact Aftermath.placed_done hnext
    | unwritten _ =>
      rename_i m d _
      cases hnext
      cases d <;> first | exact .inl rfl | cases hneeds
    | terminated =>
      rename_i a
      cases hnext
      cases a with
      | write f d => cases d <;> first | exact .inl rfl | cases hneeds
      | handshake f | exit answer => exact .inl rfl
      | abandoned | ended => cases hneeds
    | handshakeRefused _ | notTaken _ _ | lookedUp _ | sawEnd _ | becameReady _ | notInitializing _
    | leftAlready _ | notYetReady _ | notEdited _ =>
      cases hnext
      exact .inr (.finished _)
    | abandonedHandshake | abandoned _ | readRequest _ | readResponse _ | readNotification _ _
    | readBadResponse _ | readStray _ | readEnd _ _ | answered _ | hung _ => cases hneeds
    | _ =>
      cases hnext
      exact .inl rfl
  · exact .inr ((hquiet.step h).2 next hnext)

/-- What is left of a call that is dropped where it waits is quiet. -/
theorem Leaves.quiet_of_paused {rest : List Task} (h : task.Leaves rest) (hpaused : task.isPaused = true) :
    ∀ left ∈ rest, left.IsQuiet := by
  cases h with
  | called | locking => exact List.forall_mem_nil _
  | waiting => exact fun left hmem => List.mem_singleton.mp hmem ▸ .abandoning _ _
  | closingOutflow | writing _ | terminating _ | closing _ | started | finished _ => cases hpaused

end Task

/-! ## Calls one by one -/

/-- The method that a caller names. -/
def Call.method? : Call → Option String
  | .request method _ _ | .start method _ | .notify method _ => some method
  | .handshake | .shutdown | .cancel _ | .edit _ | .lookUp _ | .closed => none

namespace Session

/-- What callers may do one by one. No call begins while another goes on, and none sends a cancellation by
hand. A call can be dropped where it waits; a message that is being written would go on by itself, beside
later calls. -/
def Permits (s : Session) : Action → Prop
  | .call c => c.method? ≠ some Method.cancel.name ∧ ∀ x ∈ s.tasks, x.2.needsSession = false
  | .drop t => ∀ x ∈ s.tasks, x.1 = t → x.2.needsSession = true → x.2.isPaused = true
  | _ => True

instance (s : Session) : (a : Action) → Decidable (s.Permits a)
  | .call c => inferInstanceAs (Decidable
      (c.method? ≠ some Method.cancel.name ∧ ∀ x ∈ s.tasks, x.2.needsSession = false))
  | .drop t => inferInstanceAs (Decidable (∀ x ∈ s.tasks, x.1 = t → x.2.needsSession = true →
      x.2.isPaused = true))
  | .turn _ | .await _ | .collect _ | .arrive _ | .endInput _ | .breakOutflow | .pass _ => .isTrue trivial

/-- Calls do not overlap. -/
def OneByOne (s : Session) : List Action → Prop
  | [] => True
  | a :: rest => s.Permits a ∧ (s.act a).OneByOne rest

instance OneByOne.decide (s : Session) : (actions : List Action) → Decidable (s.OneByOne actions)
  | [] => .isTrue trivial
  | a :: rest => @instDecidableAnd _ _ inferInstance (OneByOne.decide (s.act a) rest)

theorem oneByOne_append {s : Session} {before later : List Action} :
    s.OneByOne (before ++ later) ↔ s.OneByOne before ∧ (s.run before).OneByOne later := by
  induction before generalizing s with
  | nil => exact ⟨fun h => ⟨trivial, h⟩, And.right⟩
  | cons a before ih =>
    show s.Permits a ∧ (s.act a).OneByOne (before ++ later) ↔ _
    rw [ih, ← and_assoc]
    rfl

/-! ## One call at a time -/

/-- One call at most goes on, and all else is quiet. -/
structure Alone (s : Session) : Prop where
  placed : ∀ t task, (t, task) ∈ s.tasks → task.IsPlaced
  single : ∀ t u task other, (t, task) ∈ s.tasks → (u, other) ∈ s.tasks → task.needsSession = true →
    other.needsSession = true → t = u

variable {s s' : Session} {t : TaskId} {task : Task} {a : Action}

theorem alone_create (options : SessionOptions) : (create options).Alone where
  placed t task hmem := by
    cases List.mem_singleton.mp hmem
    exact .inr .reading
  single t u task other hmem _ hneeds _ := by
    cases List.mem_singleton.mp hmem
    cases hneeds

namespace Alone

/-- Beside a call that goes on all is quiet. -/
theorem beside (h : s.Alone) (here : (t, task) ∈ s.tasks) (hneeds : task.needsSession = true) {u : TaskId}
    {other : Task} (there : (u, other) ∈ s.tasks) (hne : u ≠ t) : other.IsQuiet :=
  (h.placed u other there).resolve_left fun hother =>
    hne (h.single u t other task there here hother hneeds)

/-- What is left of a call that may be dropped is quiet. -/
theorem left_quiet (h : s.Alone) (here : (t, task) ∈ s.tasks) (permits : s.Permits (.drop t))
    {rest : List Task} (leaves : task.Leaves rest) : ∀ left ∈ rest, left.IsQuiet := by
  rcases h.placed t task here with hneeds | hquiet
  · exact leaves.quiet_of_paused (permits _ here rfl hneeds)
  · exact hquiet.leaves leaves

/-- A task that is at a place in a call was so before, or it has just begun. -/
theorem needed (h : s.Alone) (arises : Arises s a t task) (hneeds : task.needsSession = true) :
    (∃ before, (t, before) ∈ s.tasks ∧ before.needsSession = true) ∨ ∃ c, a = .call c := by
  cases arises with
  | stays here => exact .inl ⟨task, here, hneeds⟩
  | called action _ => exact .inr ⟨_, action⟩
  | steps action here step next =>
    rename_i before p
    refine .inl ⟨before, here, (h.placed t before here).resolve_right fun hquiet => ?_⟩
    have hnext := ((hquiet.step step).2 task next).needsSession
    rw [hneeds] at hnext
    cases hnext
  | left _ _ leaves mem _ =>
    rw [needsSession_leaves leaves mem] at hneeds
    cases hneeds
  | asked _ | awaited _ _ => cases hneeds

/-- **Calls that do not overlap go on one at a time, whatever the server does.** -/
theorem happens (h : s.Alone) (happened : Happens s a s') (permits : s.Permits a) : s'.Alone := by
  constructor
  · intro t task hmem
    cases happened.arises hmem with
    | stays here => exact h.placed t task here
    | called _ _ => exact .inl rfl
    | steps _ here step next => exact step.placed (h.placed t _ here) next
    | asked _ => exact .inr (.answering _)
    | left action here leaves mem _ =>
      subst action
      exact .inr (h.left_quiet here permits leaves task mem)
    | awaited _ _ => exact .inr (.waiting _)
  · intro t u task other hmem hother hneeds hneeds'
    have hold := h.needed (happened.arises hmem) hneeds
    have hold' := h.needed (happened.arises hother) hneeds'
    cases happened with
    | call c =>
      -- only the call that begins is at such a place
      have hlast : ∀ {v : TaskId} {x : Task}, (v, x) ∈ (s.spawn (.called c)).tasks → x.needsSession = true →
          v = s.nextTask := by
        intro v x hx hxneeds
        rcases List.mem_append.mp hx with hbefore | hnew
        · rw [permits.2 _ hbefore] at hxneeds
          cases hxneeds
        · exact congrArg Prod.fst (List.mem_singleton.mp hnew)
      rw [hlast hmem hneeds, hlast hother hneeds']
    | nothing =>
      exact h.single t u task other hmem hother hneeds hneeds'
    | _ =>
      obtain ⟨x, hx, hxneeds⟩ := hold.resolve_right (by rintro ⟨c, heq⟩; cases heq)
      obtain ⟨y, hy, hyneeds⟩ := hold'.resolve_right (by rintro ⟨c, heq⟩; cases heq)
      exact h.single t u x y hx hy hxneeds hyneeds

end Alone

theorem Alone.run (h : s.Alone) (hs : s.Named) {actions : List Action} (apart : s.OneByOne actions) :
    (s.run actions).Alone := by
  induction actions generalizing s with
  | nil => exact h
  | cons a rest ih => exact ih (h.happens (hs.happens_act a) apart.1) (hs.act a) apart.2

end Session

end LanguageClient
