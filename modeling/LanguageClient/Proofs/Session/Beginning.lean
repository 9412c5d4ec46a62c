import LanguageClient.Proofs.Session.Roles

/-!
# LanguageClient.Proofs.Session.Beginning -- steps in a session that was never ready

Until a session is ready for the first time, at most one task opens it. The others are at places where the
session is not used (`Task.isAside`), and stay at such places (`Task.StepsAside`). A step of the one that opens
it goes on in the opening, makes the session ready or finds it ended (`Task.Opens`); when its caller is gone, a
task is left that fails the connection in a few steps (`Task.doom`).
-/

namespace LanguageClient

/-! ## Places before the session was ready -/

def Sending.isAside : Sending → Bool
  | exit answer => (Task.finished answer).waiter?.isNone
  | loose => true
  | _ => false

def Aftermath.isAside : Aftermath → Bool
  | write _ d => d.isAside
  | exit answer => (Task.finished answer).waiter?.isNone
  | ended => true
  | handshake _ | abandoned => false

namespace Task

/-- The places at which a task can be while the session was never ready, if it does not open it. -/
def isAside : Task → Bool
  | called _ | leavingReady | cancelling _ none | noticing _ none => true
  | reading | answering _ | hanging => true
  | writing _ d => d.isAside
  | terminating a | closing a => a.isAside
  | closingOutflow answer | finished answer => (Task.finished answer).waiter?.isNone
  | _ => false

/-- The result of the handshake that is put down already, where the session is still to become ready. -/
def recorded? : Task → Option InitializeResult
  | entering result => some result
  | _ => none

/-- How many steps a handshake whose caller is gone has still to take. -/
def doom : Task → Nat
  | abandoning _ .handshake => 3
  | terminating .abandoned => 2
  | closing .abandoned => 1
  | _ => 0

/-- The connection is failed half: the phase tells it, and the calls do not know yet. -/
def isClosing : Task → Bool
  | closing _ => true
  | _ => false

variable {me : TaskId} {s : Shared} {task : Task} {p : Progress}

theorem waiter?_of_aside (h : task.isAside = true) : task.waiter? = none := by
  have hsending : ∀ {d : Sending}, d.isAside = true → d.waiter? = none := by
    intro d hd
    cases d with
    | exit _ | loose => rfl
    | _ => cases hd
  cases task with
  | writing m d => exact hsending h
  | terminating a | closing a =>
    cases a with
    | write f d => exact hsending h
    | _ => rfl
  | finished answer => exact Option.isNone_iff_eq_none.mp h
  | cancelling id after | noticing id after =>
    cases after with
    | none => rfl
    | some _ => cases h
  | rejecting _ _ _ | leaving _ _ _ | waiting _ _ _ | abandoning _ _ => cases h
  | _ => rfl

theorem role?_of_aside (h : task.isAside = true) : task.role? ≠ some .opening := by
  have hsending : ∀ {d : Sending}, d.isAside = true → d.role? ≠ some .opening := by
    intro d hd
    cases d with
    | exit _ | loose => nofun
    | _ => cases hd
  cases task with
  | writing m d => exact hsending h
  | terminating a | closing a =>
    cases a with
    | write f d => exact hsending h
    | exit _ | ended => nofun
    | handshake _ | abandoned => cases h
  | cancelling id after | noticing id after =>
    cases after with
    | none => nofun
    | some _ => cases h
  | numbering _ _ _ | registering _ _ _ _ | rejecting _ _ _ | leaving _ _ _ | waiting _ _ _ | recording _
  | entering _ | abandoning _ _ => cases h
  | _ => nofun

theorem Sending.aside_done {d : Sending} (h : d.isAside = true) {r : Except Fault Unit} {next : Task}
    (hnext : d.done s r = some next) : next.isAside = true := by
  cases d with
  | exit answer =>
    cases hnext
    exact h
  | loose => cases hnext
  | _ => cases h

theorem Aftermath.aside_done {a : Aftermath} (h : a.isAside = true) {next : Task}
    (hnext : a.done s = some next) : next.isAside = true := by
  cases a with
  | write f d => exact Sending.aside_done h hnext
  | exit answer =>
    cases hnext
    exact h
  | ended => cases hnext
  | handshake _ | abandoned => cases h

/-- What a step beside the opening does: it begins the opening, or leaves it to others. -/
inductive StepsAside (s : Shared) (task : Task) (p : Progress) : Prop
  | begins {after : Task} (place : task = .called .handshake) (phase : s.lifecycle.phase = .uninitialized)
      (lifecycle : p.shared.lifecycle = s.lifecycle.enter .initializing) (next : p.next = some after)
      (role : after.role? = some .opening) (recorded : after.recorded? = none)
  | stays (next : ∀ next, p.next = some next → next.isAside = true)
      (result : p.shared.lifecycle.result = s.lifecycle.result)
      (phase : p.shared.lifecycle.phase = s.lifecycle.phase ∨ p.shared.lifecycle.phase = .terminated)

theorem Steps.aside (h : Steps me s task p) (haside : task.isAside = true)
    (hready : s.lifecycle.phase ≠ .ready) : StepsAside s task p := by
  have goes : ∀ {next : Task}, next.isAside = true → ∀ task', some next = some task' → task'.isAside = true :=
    fun hnext _ heq => Option.some.inj heq ▸ hnext
  cases h with
  | handshakeBegun hphase _ | handshakeUnfit hphase _ => exact .begins rfl hphase rfl rfl rfl rfl
  | taken hentry hphase | noticed hphase | leftReady hphase => exact absurd hphase hready
  | terminated => exact .stays (goes haside) rfl (.inr rfl)
  | written hflow => exact .stays (fun _ => Sending.aside_done haside) rfl (.inl rfl)
  | closed => exact .stays (fun _ => Aftermath.aside_done haside) rfl (.inl rfl)
  | unwritten _ | outflowClosed _ _ => exact .stays (goes haside) rfl (.inl rfl)
  | cancelled _ | notFound _ | unnoticed _ =>
    rename_i after _
    cases after with
    | none => exact .stays (goes rfl) rfl (.inl rfl)
    | some _ => cases haside
  | handshakeRefused _ | exitBegun _ | shutdownBegun _ | notTaken _ _ | cancelBegun | lookedUp _ | sawEnd _
  | leftAlready _ | notYetReady _ | readRequest _ | readResponse _ | readNotification _ _
  | readBadResponse _ | readStray _ | readEnd _ _ | answered _ | hung _ =>
    exact .stays (goes rfl) rfl (.inl rfl)
  | _ => cases haside

theorem Leaves.aside {rest : List Task} (h : task.Leaves rest) (haside : task.isAside = true) :
    ∀ x ∈ rest, x.isAside = true := by
  have hsending : ∀ {d : Sending}, d.isAside = true → afterWrite d = [] := by
    intro d hd
    cases d with
    | exit _ | loose => rfl
    | _ => cases hd
  intro x hmem
  cases h with
  | called | closingOutflow | finished _ => cases hmem
  | writing _ | terminating _ | closing _ =>
    rw [hsending haside] at hmem
    obtain rfl := List.mem_singleton.mp hmem
    rfl
  | locking | waiting | started => cases haside

/-! ## The opening -/

theorem IsSequel.not_recorded {next : Task} (h : next.IsSequel) : next.recorded? = none := by
  cases h <;> rfl

/-- The result of the handshake is put down at one place. -/
theorem Steps.not_recorded (h : Steps me s task p) (hrecording : ∀ r, task ≠ .recording r) {next : Task}
    (hnext : p.next = some next) :
    next.recorded? = none ∧ p.shared.lifecycle.result = s.lifecycle.result := by
  cases h with
  | recorded => exact absurd rfl (hrecording _)
  | taken hentry hready =>
    rename_i c first
    cases hnext
    exact ⟨by cases c <;> cases hentry <;> rfl, rfl⟩
  | unregistered _ | left | settled _ =>
    cases hnext
    exact ⟨(Purpose.sequel_settled _ _).not_recorded, rfl⟩
  | notFound _ | unnoticed _ =>
    cases hnext
    exact ⟨(sequel_cancelled _).not_recorded, rfl⟩
  | written _ => exact ⟨(Sending.sequel_done hnext).not_recorded, rfl⟩
  | closed => exact ⟨(Aftermath.sequel_done hnext).not_recorded, rfl⟩
  | abandoned _ => cases hnext
  | _ =>
    cases hnext
    exact ⟨rfl, rfl⟩

/-- What a step of the opening does: it goes on, or comes to its end. -/
inductive Opens (s : Shared) (task : Task) (p : Progress) : Prop
  | goesOn {after : Task} (next : p.next = some after) (role : after.role? = some .opening)
      (phase : p.shared.lifecycle.phase = .initializing ∨ p.shared.lifecycle.phase = .terminated)
      (result : p.shared.lifecycle.result = after.recorded?)
  | opens {r : InitializeResult} (next : p.next = some (.finished (.ok (.server r))))
      (before : s.lifecycle.phase = .initializing) (phase : p.shared.lifecycle.phase = .ready)
      (result : p.shared.lifecycle.result = some r)
  /-- The end of the session came first. -/
  | fails {f : Fault} (next : p.next = some (.finished (.error f)))
      (before : s.lifecycle.phase = .terminated) (place : task.isClosing = false) (same : p.shared = s)
  /-- The connection is failed to the end; nobody is told if the caller is gone. -/
  | closes (next : p.next = none ∨ ∃ f, p.next = some (.finished (.error f)))
      (phase : p.shared.lifecycle.phase = .terminated) (closed : p.shared.pending.closed = true)

theorem Steps.opens (h : Steps me s task p) (hrole : task.role? = some .opening)
    (hphase : s.lifecycle.phase = .initializing ∨ s.lifecycle.phase = .terminated)
    (hresult : s.lifecycle.result = task.recorded?)
    (hclosing : ∀ a, task = .closing a → s.lifecycle.phase = .terminated) : Opens s task p := by
  by_cases hfinal : task.isFinal = true
  · cases task with
    | entering r =>
      cases h with
      | becameReady hinit => exact .opens rfl hinit rfl hresult
      | notInitializing hne => exact .fails rfl (hphase.resolve_left hne) rfl rfl
    | closing a =>
      have hover := hclosing a rfl
      cases h
      cases a with
      | write f d => cases hfinal
      | handshake f => exact .closes (.inr ⟨_, rfl⟩) hover rfl
      | abandoned => exact .closes (.inl rfl) hover rfl
      | exit _ | ended => cases hrole
    | _ => cases hfinal
  · have hnext := h.role_of_not_final (Bool.of_not_eq_true hfinal)
    rw [hrole, Option.some_or] at hnext
    obtain ⟨next, hsome, hopening⟩ := Option.bind_eq_some_iff.mp hnext
    have hstays : p.shared.lifecycle.phase = .initializing ∨ p.shared.lifecycle.phase = .terminated := by
      cases h with
      | handshakeBegun _ _ | handshakeUnfit _ _ | leftReady _ => cases hrole
      | becameReady _ => exact absurd rfl hfinal
      | terminated => exact .inr rfl
      | _ => exact hphase
    refine .goesOn hsome hopening hstays ?_
    by_cases hrecording : ∃ r, task = .recording r
    · obtain ⟨r, rfl⟩ := hrecording
      cases h
      cases hsome
      show s.lifecycle.result.or (some r) = some r
      rw [hresult]
      rfl
    · obtain ⟨hnone, hsame⟩ := h.not_recorded (fun r heq => hrecording ⟨r, heq⟩) hsome
      rw [hnone, hsame, hresult]
      cases task with
      | entering r => exact absurd rfl hfinal
      | _ => rfl

/-- Of an opening that is dropped, what is left fails the connection. -/
theorem Leaves.opening {rest : List Task} (h : task.Leaves rest) (hrole : task.role? = some .opening) :
    ∃ beside last, rest = beside ++ [last] ∧ (∀ x ∈ beside, x.isAside = true)
      ∧ 0 < last.doom ∧ last.doom ≤ 3 := by
  have hwrite : ∀ {first : Task} {d : Sending}, first.isAside = true → d.role? = some .opening →
      ∃ beside last, first :: afterWrite d = beside ++ [last] ∧ (∀ x ∈ beside, x.isAside = true)
        ∧ 0 < last.doom ∧ last.doom ≤ 3 := by
    intro first d hfirst hd
    have hone : ∀ x ∈ [first], x.isAside = true := fun x hx => List.mem_singleton.mp hx ▸ hfirst
    cases d with
    | request w p =>
      cases p with
      | handshake => exact ⟨[first], .abandoning w .handshake, rfl, hone, Nat.succ_pos _, Nat.le_refl _⟩
      | _ => cases hd
    | initialized r => exact ⟨[first], .terminating .abandoned, rfl, hone, Nat.succ_pos _, Nat.le_succ _⟩
    | cancellation after =>
      cases after with
      | none => cases hd
      | some pair =>
        obtain ⟨w, p⟩ := pair
        cases p with
        | handshake => exact ⟨[first], .abandoning w .handshake, rfl, hone, Nat.succ_pos _, Nat.le_refl _⟩
        | _ => cases hd
    | _ => cases hd
  cases h with
  | writing _ | terminating _ | closing _ =>
    refine hwrite ?_ hrole
    rfl
  | waiting =>
    rename_i w p deadline
    cases p with
    | handshake => exact ⟨[], .abandoning w .handshake, rfl, List.forall_mem_nil _, Nat.succ_pos _, Nat.le_refl _⟩
    | _ => cases hrole
  | called | locking | closingOutflow | started | finished _ => cases hrole

theorem role?_of_doom (h : 0 < task.doom) : task.role? = some .opening ∧ task.recorded? = none := by
  unfold doom at h
  split at h
  · exact ⟨rfl, rfl⟩
  · exact ⟨rfl, rfl⟩
  · exact ⟨rfl, rfl⟩
  · exact absurd h (Nat.lt_irrefl 0)

/-- A caller that is gone is not waited for. -/
theorem doom_step (me : TaskId) (s : Shared) (h : 0 < task.doom) : ∃ p, task.step me s = some p
    ∧ (∀ next, p.next = some next → next.doom + 1 = task.doom ∧ 0 < next.doom)
    ∧ (p.next = none → task.doom = 1) ∧ ∀ answer, p.next ≠ some (.finished answer) := by
  have goes : ∀ {next : Task} {k : Nat}, next.doom = k → 0 < k →
      ∀ task', some next = some task' → task'.doom + 1 = k + 1 ∧ 0 < task'.doom := by
    rintro next k rfl hpos task' heq
    obtain rfl := Option.some.inj heq
    exact ⟨rfl, hpos⟩
  unfold doom at h
  split at h
  · exact ⟨_, Steps.step_eq .abandonedHandshake, goes rfl (by decide), by simp, by simp⟩
  · exact ⟨_, Steps.step_eq .terminated, goes rfl (by decide), by simp, by simp⟩
  · exact ⟨_, Steps.step_eq .closed, by simp [Aftermath.done], fun _ => rfl, by simp [Aftermath.done]⟩
  · exact absurd h (Nat.lt_irrefl 0)

theorem Leaves.not_doomed {rest : List Task} (h : task.Leaves rest) : task.doom = 0 := by
  cases h <;> rfl

/-! ## The session stays open -/

/-- A session that is past its opening is not opened again. -/
theorem Steps.past (h : Steps me s task p)
    (hphase : s.lifecycle.phase ≠ .uninitialized ∧ s.lifecycle.phase ≠ .initializing)
    (hrole : task.role? ≠ some .opening) :
    (p.shared.lifecycle.phase ≠ .uninitialized ∧ p.shared.lifecycle.phase ≠ .initializing)
      ∧ p.shared.lifecycle.result = s.lifecycle.result
      ∧ ∀ next, p.next = some next → next.role? ≠ some .opening := by
  refine ⟨?_, ?_, fun next hnext hopening => ?_⟩
  · cases h with
    | handshakeBegun hfirst _ | handshakeUnfit hfirst _ => exact absurd hfirst hphase.1
    | becameReady _ | leftReady _ | terminated => exact ⟨nofun, nofun⟩
    | _ => exact hphase
  · cases h with
    | recorded => exact absurd rfl hrole
    | _ => rfl
  · have htakes : task.takes? s ≠ some .opening := by
      intro htakes
      unfold takes? at htakes
      split at htakes
      · split at htakes
        · next hfirst => exact hphase.1 hfirst
        · cases htakes
      · split at htakes <;> cases htakes
      · split at htakes <;> cases htakes
      · cases htakes
    have hbefore := h.role_of_next hnext hopening
    cases hnone : task.role? with
    | none =>
      rw [hnone, Option.none_or] at hbefore
      exact htakes hbefore
    | some r =>
      rw [hnone, Option.some_or] at hbefore
      exact hrole (hnone.trans hbefore)

end Task

end LanguageClient
