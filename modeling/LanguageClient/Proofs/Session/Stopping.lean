import LanguageClient.Proofs.Session.Answered
import LanguageClient.Proofs.Session.Reading
import LanguageClient.Proofs.Session.Sealing
import LanguageClient.Proofs.Session.Unread

/-!
# LanguageClient.Proofs.Session.Stopping -- how the read loop ends

Once the stream has ended, every turn brings the read loop nearer to its end (`distance_act`), and in its last
turn it fails every call that waits (`Closes`). What it has not read has no effect: a session to which no more
of the stream comes than the loop takes goes the same way (`run_within`). `ReadsOut` gathers what a run of the
loop comes to, in whatever state it begins and whatever callers do meanwhile.
-/

namespace LanguageClient

namespace Session

variable {s s' : Session} {a : Action} {item : Except Fault Message} {left : List UInt8}

/-! ## The loop comes to its end -/

/-- Once the stream has ended, every turn of the loop brings it nearer to its end, and nothing takes it away
from there. -/
theorem Attended.distance_act (hs : s.Attended) {cause : Option IoFault}
    (hended : s.shared.inflow = .ended cause) (a : Action) :
    (s.act a).distance + a.isLoopTurn.toNat ≤ s.distance ∨ (s.act a).distance = 0 := by
  have hinflow := inflow_act hs a hended
  have hmoves := hs.loopMoves a
  unfold distance
  cases hmoves with
  | @read _ item left takes =>
    left
    rw [takes.next, takes.place]
    cases hfatal : Inbound.isFatal item with
    | false =>
      -- an item behind which the stream goes on has bytes of its own
      have hless := length_next? takes.found hfatal
      show (s.act _).shared.input.length + 3 + 1 ≤ s.shared.input.length + 3
      rw [takes.input]
      omega
    | true =>
      show 2 + 1 ≤ s.shared.input.length + 3
      omega
  | terminate place next =>
    left
    rw [next, place]
    exact Nat.le_refl _
  | close place next =>
    right
    rw [next]
  | aside untaken idle place leaves =>
    have hinput : (s.act a).shared.input = s.shared.input := by
      have hstream := leaves.stream []
      unfold stream coming at hstream
      rwa [hinflow, hended, List.append_nil, List.append_nil] at hstream
    rw [place, hinput]
    by_cases hturn : a = .turn readLoop
    · -- there is always something to take from a stream that has ended, so only a loop that is over is idle
      right
      rcases idle hturn with hover | ⟨-, hflowing⟩
      · rw [hover]
      · rw [hended] at hflowing
        cases hflowing
    · left
      have hnot : a.isLoopTurn = false := by
        cases a with
        | turn t => exact decide_eq_false fun heq => hturn (heq ▸ rfl)
        | _ => rfl
      rw [hnot]
      exact Nat.le_refl _

/-- So enough turns of the loop bring it to its end, whatever else happens meanwhile. -/
theorem Attended.over_of_turns (hs : s.Attended) {cause : Option IoFault}
    (hended : s.shared.inflow = .ended cause) {later : List Action}
    (hturns : s.distance ≤ later.countP Action.isLoopTurn) : (s.run later).task? readLoop = none := by
  have hzero : ∀ {u : Session}, u.distance = 0 → u.task? readLoop = none := by
    intro u hu
    unfold distance at hu
    split at hu
    · cases hu
    · cases hu
    · cases hu
    · next hnone => exact hnone
  induction later generalizing s with
  | nil => exact hzero (Nat.le_zero.mp hturns)
  | cons a rest ih =>
    apply ih (hs.act a) (inflow_act hs a hended)
    rw [List.countP_cons] at hturns
    have hact := hs.distance_act hended a
    cases hloop : a.isLoopTurn with
    | true =>
      simp only [hloop, if_true, Bool.toNat_true] at hturns hact
      omega
    | false =>
      simp only [hloop, Bool.false_eq_true, if_false, Bool.toNat_false] at hturns hact
      omega

/-- The session has terminated, and its table is closed and empty. -/
structure Over (s : Session) : Prop where
  phase : s.shared.lifecycle.phase = .terminated
  closed : s.shared.pending.closed = true
  empty : s.shared.pending.calls = []

theorem Over.act (h : s.Over) (hs : s.Named) (a : Action) : (s.act a).Over := by
  have happened := hs.happens_act a
  have hclosed := happened.stays_closed h.closed
  have hemptied : (s.act a).Emptied := by
    have hbefore : s.Emptied := fun _ => h.empty
    rcases happened.changes with hsame | ⟨t, task, p, -, -, step, hsame⟩
    · exact hbefore.still hsame
    · exact Emptied.turn step hsame hbefore
  exact ⟨happened.stays_terminated h.phase, hclosed, hemptied hclosed⟩

theorem Over.run (h : s.Over) (hs : s.Named) (actions : List Action) : (s.run actions).Over := by
  induction actions generalizing s with
  | nil => exact h
  | cons a rest ih => exact ih (h.act hs a) (hs.act a)

/-- What the last turn of the loop does: every call that waits fails, and no outcome is changed. -/
structure Closes (s s' : Session) : Prop where
  gone : s'.task? readLoop = none
  terminated : s'.Over
  kept : ∀ w o, s.shared.pending.outcome? w = some o → s'.shared.pending.outcome? w = some o
  failed : ∀ c ∈ s.shared.pending.calls, s.shared.pending.outcome? c.waiter = none →
    s'.shared.pending.outcome? c.waiter = some (.error .connectionClosed)

theorem Attended.closes (hs : s.Attended) (hplace : s.task? readLoop = some (.closing .ended))
    (hphase : s.shared.lifecycle.phase = .terminated) : s.Closes (s.act (.turn readLoop)) := by
  have hmoves := hs.loopMoves (.turn readLoop)
  generalize s.act (.turn readLoop) = s' at hmoves
  have hno : ∀ {task : Task}, s.task? readLoop = some task → task ≠ .closing .ended → s.Closes s' := by
    intro task place hne
    exact absurd (Option.some.inj (place.symm.trans hplace)) hne
  cases hmoves with
  | read takes => exact hno takes.place nofun
  | terminate place => exact hno place nofun
  | aside _ idle =>
    rcases idle rfl with hover | ⟨hreading, -⟩
    · rw [hover] at hplace
      cases hplace
    · exact hno hreading nofun
  | close place next lifecycle pending =>
    refine ⟨next, ⟨?_, ?_, ?_⟩, ?_, ?_⟩
    · rw [lifecycle]
      exact hphase
    · rw [pending]
      rfl
    · rw [pending]
      rfl
    · intro w o ho
      rw [pending, PendingCalls.outcome?_close, ho, Option.some_or]
    · intro c hc hnone
      rw [pending, PendingCalls.outcome?_close, hnone, if_pos ⟨c, hc, rfl⟩, Option.none_or]

/-- A loop that is over has closed the table in its last turn. -/
theorem Attended.closed (hs : s.Attended) (hplace : s.task? readLoop ≠ none)
    (hphase : s.task? readLoop = some (.closing .ended) → s.shared.lifecycle.phase = .terminated)
    {actions : List Action} (hover : (s.run actions).task? readLoop = none) :
    ∃ before later, actions = before ++ .turn readLoop :: later ∧
      (s.run before).Closes ((s.run before).act (.turn readLoop)) := by
  induction actions generalizing s with
  | nil => exact absurd hover hplace
  | cons a rest ih =>
    have hlater : (s.act a).task? readLoop ≠ none →
        ((s.act a).task? readLoop = some (.closing .ended) →
          (s.act a).shared.lifecycle.phase = .terminated) →
        ∃ before later, a :: rest = before ++ .turn readLoop :: later ∧
          (s.run before).Closes ((s.run before).act (.turn readLoop)) := by
      intro hnext hphase'
      obtain ⟨before, later, rfl, hcloses⟩ := ih (hs.act a) hnext hphase' hover
      exact ⟨a :: before, later, rfl, hcloses⟩
    have hmoves := hs.loopMoves a
    cases hmoves with
    | read takes =>
      apply hlater
      · rw [takes.next]
        exact nofun
      · intro hclosing
        rw [takes.next] at hclosing
        have heq := Option.some.inj hclosing
        split at heq <;> cases heq
    | terminate place next phase =>
      apply hlater
      · rw [next]
        exact nofun
      · intro _
        exact phase
    | close place => exact ⟨[], rest, rfl, hs.closes place (hphase place)⟩
    | aside _ _ place =>
      apply hlater
      · rw [place]
        exact hplace
      · intro hclosing
        rw [place] at hclosing
        exact (hs.named.happens_act a).stays_terminated (hphase hclosing)

/-! ## What is not read has no effect -/

/-- Where nothing is taken and nothing arrives, the bytes at hand stay. -/
theorem Attended.input_of_untaken (hs : s.Attended) (huntaken : s.took? a = none)
    (harrives : ∀ bytes, a ≠ .arrive bytes) : (s.act a).shared.input = s.shared.input := by
  have hstream := (hs.untaken huntaken).1.stream []
  have hnone : ∀ (u : Session), u.coming [] = [] := by
    intro u
    unfold coming
    split <;> rfl
  have hone : s.coming [a] = [] := by
    unfold coming
    split
    · cases a with
      | arrive bytes => exact absurd rfl (harrives bytes)
      | _ => rfl
    · rfl
  unfold stream at hstream
  rwa [hnone, hone, List.append_nil, List.append_nil] at hstream

/-- The same, but only the first bytes of those at hand are there. -/
def within (n : Nat) (s : Session) : Session := s.withInput (s.shared.input.take n)

/-- The same actions, but only the first bytes arrive. -/
def firstBytes : Nat → List Action → List Action
  | _, [] => []
  | n, .arrive bytes :: rest => .arrive (bytes.take n) :: firstBytes (n - bytes.length) rest
  | n, a :: rest => a :: firstBytes n rest

theorem firstBytes_cons (h : ∀ bytes, a ≠ .arrive bytes) (n : Nat) (rest : List Action) :
    firstBytes n (a :: rest) = a :: firstBytes n rest := by
  cases a with
  | arrive bytes => exact absurd rfl (h bytes)
  | _ => rfl

theorem step?_isSome_of_reading (hplace : s.task? readLoop = some .reading)
    (hfound : s.shared.next? = some (item, left)) : ∃ after, s.step? readLoop = some after := by
  have hready : s.shared.hasInput = true := by
    unfold Shared.next? at hfound
    split at hfound
    · assumption
    · cases hfound
  obtain ⟨p, hstep⟩ := Option.isSome_iff_exists.mp
    ((Task.isReady_iff readLoop s.shared .reading).mp hready)
  simp only [step?, hplace, hstep]
  cases p.asked <;> exact ⟨_, rfl⟩

/-- A turn of a loop that reads goes the same way with the first bytes, if they are enough. -/
theorem Attended.within_turn (hs : s.Attended) (hplace : s.task? readLoop = some .reading) {n : Nat}
    (hn : s.spent (.turn readLoop) ≤ n) :
    (s.within n).act (.turn readLoop)
      = (s.act (.turn readLoop)).within (n - s.spent (.turn readLoop)) := by
  have hstep : ∀ {bytes : List UInt8}, Task.read (s.shared.withInput (s.shared.input.take n))
      = (Task.read s.shared).map (·.withInput bytes) →
      (s.within n).step? readLoop = (s.step? readLoop).map (·.withInput bytes) := by
    intro bytes hread
    apply step?_withInput
    intro task htask
    obtain rfl := Option.some.inj (htask.symm.trans hplace)
    exact hread
  show ((s.within n).step? readLoop).getD (s.within n) = ((s.step? readLoop).getD s).within _
  cases hfound : s.shared.next? with
  | none =>
    have hread : Task.read s.shared = none := by
      unfold Task.read
      rw [hfound]
    have hread' : Task.read (s.shared.withInput (s.shared.input.take n)) = none := by
      unfold Task.read
      rw [Shared.next?_take_of_none hfound]
    have hnone : s.step? readLoop = none := by
      have hplain : Task.step readLoop s.shared .reading = none := hread
      simp only [step?, hplace, hplain]
    have hsame : Task.read (s.shared.withInput (s.shared.input.take n))
        = (Task.read s.shared).map (·.withInput []) := by
      rw [hread, hread']
      rfl
    have hnone' := hstep hsame
    rw [hnone', hnone, spent_of_untaken ((took?_of_reading hplace).trans hfound), Nat.sub_zero]
    rfl
  | some found =>
    obtain ⟨item, left⟩ := found
    have htook : s.took? (.turn readLoop) = some (item, left) := (took?_of_reading hplace).trans hfound
    have hinput := (hs.takes htook).2.input
    obtain ⟨after, hafter⟩ := step?_isSome_of_reading hplace hfound
    have hact : s.act (.turn readLoop) = after := by
      show (s.step? readLoop).getD s = after
      rw [hafter]
      rfl
    rw [hact] at hinput
    rw [spent_of_took htook] at hn ⊢
    rw [hstep (Task.read_withInput hfound (Shared.next?_take hfound hn)), hafter]
    show after.withInput _ = after.within _
    unfold within
    rw [hinput]

/-- An action in which no bytes arrive goes the same way with the first bytes, if they are enough. -/
theorem Attended.within_act (hs : s.Attended) (harrives : ∀ bytes, a ≠ .arrive bytes) {n : Nat}
    (hn : s.spent a ≤ n) : (s.within n).act a = (s.act a).within (n - s.spent a) := by
  by_cases hreads : ∃ t, a = .turn t ∧ s.task? t = some .reading
  · obtain ⟨t, rfl, hplace⟩ := hreads
    obtain rfl := hs.reader t (hs.named.task?_eq_some_iff.mp hplace)
    exact hs.within_turn hplace hn
  · have hquiet : ∀ t, a = .turn t → s.task? t ≠ some .reading :=
      fun t ha hplace => hreads ⟨t, ha, hplace⟩
    have huntaken : s.took? a = none := by
      cases a with
      | turn t => exact took?_of_not_reading (hquiet t rfl)
      | _ => rfl
    have hinput : (s.act a).shared.input = s.shared.input := hs.input_of_untaken huntaken harrives
    have hsame := act_withInput hquiet harrives (s.shared.input.take n)
    rw [spent_of_untaken huntaken, Nat.sub_zero]
    unfold within
    rw [hinput]
    exact hsame

theorem within_arrive {n m : Nat} (hm : s.shared.inflow = .flowing → m = n - s.shared.input.length)
    (bytes : List UInt8) :
    (s.within n).act (.arrive (bytes.take m)) = (s.act (.arrive bytes)).within n := by
  have hflow : (s.within n).shared.inflow = s.shared.inflow := rfl
  simp only [Session.act, hflow]
  by_cases hflowing : s.shared.inflow = .flowing
  · rw [if_pos hflowing, if_pos hflowing, hm hflowing]
    unfold within withInput Shared.withInput
    simp only [List.take_append]
  · rw [if_neg hflowing, if_neg hflowing]

/-- A run goes the same way when only the first bytes of the stream come, if they are enough for what is
taken. -/
theorem Attended.run_within (hs : s.Attended) {actions : List Action} {n m : Nat}
    (hm : s.shared.inflow = .flowing → m = n - s.shared.input.length) (hn : s.consumed actions ≤ n) :
    (s.within n).run (firstBytes m actions) = (s.run actions).within (n - s.consumed actions) := by
  induction actions generalizing s n m with
  | nil => rfl
  | cons a rest ih =>
    rw [consumed] at hn ⊢
    -- `m` counts the bytes that may still arrive, and those at hand count towards `n`
    have hflows : (s.act a).shared.inflow = .flowing → s.shared.inflow = .flowing := by
      intro hflowing
      cases hinflow : s.shared.inflow with
      | flowing => rfl
      | ended cause =>
        rw [inflow_act hs a hinflow] at hflowing
        cases hflowing
    by_cases harrives : ∃ bytes, a = .arrive bytes
    · obtain ⟨bytes, rfl⟩ := harrives
      have hspent : s.spent (.arrive bytes) = 0 := rfl
      rw [hspent, Nat.zero_add] at hn ⊢
      show ((s.within n).act (.arrive (bytes.take m))).run _ = _
      rw [within_arrive hm]
      apply ih (hs.act _) _ hn
      intro hflowing
      have hinput : (s.act (.arrive bytes)).shared.input = s.shared.input ++ bytes := by
        simp only [Session.act, if_pos (hflows hflowing)]
      rw [hinput, List.length_append, hm (hflows hflowing)]
      omega
    · have hno : ∀ bytes, a ≠ .arrive bytes := fun bytes heq => harrives ⟨bytes, heq⟩
      rw [firstBytes_cons hno, ← Nat.sub_sub]
      show ((s.within n).act a).run _ = _
      rw [hs.within_act hno (by omega)]
      apply ih (hs.act a) _ (by omega)
      intro hflowing
      rw [hm (hflows hflowing)]
      cases htook : s.took? a with
      | none =>
        rw [spent_of_untaken htook, Nat.sub_zero, hs.input_of_untaken htook hno]
      | some found =>
        obtain ⟨item, left⟩ := found
        obtain ⟨-, htakes⟩ := hs.takes htook
        have hleft := length_left_le htakes.found
        rw [spent_of_took htook] at hn ⊢
        rw [htakes.input]
        omega

/-! ## What a run of the loop comes to -/

/-- What a run of the read loop comes to. -/
structure ReadsOut (s : Session) (actions : List Action) : Prop where
  /-- The items that are taken are the first of the stream. -/
  inOrder : s.taken actions <+: s.inbound actions
  /-- There are no more of them than the stream has bytes, and one. -/
  bounded : (s.taken actions).length ≤ (s.stream actions).length + 1
  /-- In every turn the loop goes on unless what it finds is a fatal fault. -/
  goesOn : ∀ before later item left, actions = before ++ .turn readLoop :: later →
    (s.run before).task? readLoop = some .reading → (s.run before).shared.next? = some (item, left) →
    ((s.run (before ++ [.turn readLoop])).task? readLoop = some .reading ↔
      ∀ f, item = .error f → f.isFatal = false)
  /-- So it reads as long as it has taken no fatal fault. -/
  reads : (s.run actions).task? readLoop = some .reading ↔
    ∀ f, .error f ∈ s.taken actions → f.isFatal = false
  /-- When it has stopped it takes nothing any more. -/
  stops : ∀ before later, actions = before ++ later → (s.run before).task? readLoop ≠ some .reading →
    s.taken actions = s.taken before ∧ s.consumed actions = s.consumed before
  /-- What it does not take has no effect: without those bytes everything goes the same way. -/
  unread : ∀ n, s.consumed actions ≤ n →
    (s.within n).run (firstBytes (n - s.shared.input.length) actions)
      = (s.run actions).within (n - s.consumed actions)
  /-- Once the stream has ended, so many turns bring the loop to its end, whatever else happens. -/
  ends : (∃ cause, (s.run actions).shared.inflow = .ended cause) → ∀ later,
    (s.run actions).shared.input.length + 3 ≤ later.countP Action.isLoopTurn →
    (s.run (actions ++ later)).task? readLoop = none
  /-- In its last turn it fails every call that waits. -/
  closes : (s.run actions).task? readLoop = none → ∃ before later,
    actions = before ++ .turn readLoop :: later ∧
      (s.run before).Closes (s.run (before ++ [.turn readLoop]))
  /-- From then on the session has terminated, and its table is closed and empty. -/
  afterwards : (s.run actions).task? readLoop = none → (s.run actions).Over

theorem distance_le (s : Session) : s.distance ≤ s.shared.input.length + 3 := by
  unfold distance
  split <;> omega

/-- **The read loop goes on exactly while no fatal fault is read, and always comes to a clean end.** -/
theorem reads_out (s : Session) (hs : s.Attended) (hplace : s.task? readLoop = some .reading)
    (actions : List Action) : s.ReadsOut actions := by
  have hsome : s.task? readLoop ≠ none := by
    rw [hplace]
    exact nofun
  have hphase : s.task? readLoop = some (.closing .ended) → s.shared.lifecycle.phase = .terminated := by
    intro hclosing
    rw [hplace] at hclosing
    cases hclosing
  have hlast : ∀ before : List Action, s.run (before ++ [.turn readLoop])
      = (s.run before).act (.turn readLoop) := fun before => run_append s before [.turn readLoop]
  constructor
  · exact hs.taken_prefix actions
  · have htaken := hs.length_taken_le actions
    have hconsumed := hs.consumed_le actions
    omega
  · intro before later item left _ hreading hfound
    have htook := (took?_of_reading hreading).trans hfound
    rw [hlast]
    exact ((hs.run before).takes htook).2.goes_on_iff
  · exact hs.reading_iff hplace actions
  · rintro before later rfl hstopped
    obtain ⟨htaken, hconsumed, -⟩ := (hs.run before).nothing_taken hstopped later
    rw [taken_append, consumed_append, htaken, hconsumed]
    exact ⟨List.append_nil _, Nat.add_zero _⟩
  · intro n hn
    exact hs.run_within (fun _ => rfl) hn
  · rintro ⟨cause, hended⟩ later hturns
    have hdistance := (s.run actions).distance_le
    rw [run_append]
    exact (hs.run actions).over_of_turns hended (by omega)
  · intro hover
    obtain ⟨before, later, heq, hcloses⟩ := hs.closed hsome hphase hover
    refine ⟨before, later, heq, ?_⟩
    rw [hlast]
    exact hcloses
  · intro hover
    obtain ⟨before, later, rfl, hcloses⟩ := hs.closed hsome hphase hover
    rw [run_append]
    exact hcloses.terminated.run ((hs.run before).act _).named later

/-! ### A body at fault -/

/-- A response without an id is passed over, a body that is no JSON stops the loop, and the response to the call
that waits comes too late. -/
def lateReply : List Action :=
  let bodies := [Text.bytes "\x7b\"jsonrpc\":\"2.0\",\"id\":null\x7d", [0x7B], reply.encode]
  [.arrive (Sink.framesBytes bodies), .endInput none, .turn readLoop, .turn readLoop, .turn readLoop,
    .turn readLoop]

theorem attended_awaiting : awaiting.Attended where
  named := ⟨(named_create {}).distinct, (named_create {}).given, (named_create {}).loop⟩
  loop := (attended_create {}).loop
  reader := (attended_create {}).reader

theorem reads_out_lateReply :
    (awaiting.taken lateReply).length = 2 ∧
      (awaiting.run lateReply).shared.pending.outcome? ⟨.number 2, 0⟩ = some (.error .connectionClosed) ∧
      awaiting.ReadsOut lateReply :=
  ⟨by decide +kernel, by decide +kernel, reads_out awaiting attended_awaiting rfl lateReply⟩

end Session

end LanguageClient
