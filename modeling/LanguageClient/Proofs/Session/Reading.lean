import LanguageClient.Proofs.Session.Answering

/-!
# LanguageClient.Proofs.Session.Reading -- what the read loop takes off the stream

The read loop takes one item after another off the stream, goes on after every fault that is not fatal, and
stops at the first that is. `LoopMoves` says once what an action does to it; callers may do what they like
meanwhile. So the items that are taken in a run are the first of the stream (`taken_prefix`), and there are no
more of them than bytes, and one (`length_taken_le`).
-/

namespace LanguageClient

/-- The read loop's own choice is that of the fault: what is read ends the loop if it is a fatal fault. -/
theorem Inbound.isFatal_of_read {failure : Option IoFault} {bytes left : List UInt8}
    {item : Except Fault Message} (h : Message.read failure bytes = (item, left)) :
    Inbound.isFatal item = true ↔ ∃ f, item = .error f ∧ f.isFatal = true := by
  have hitem : ∀ f, item = .error f → Inbound.isFatal (.error f) = f.isFatal := by
    rintro f rfl
    unfold Message.read at h
    split at h
    · next cause rest hframe =>
      obtain ⟨heq, -⟩ := Prod.mk.inj h
      obtain rfl := Except.error.inj heq
      unfold Frame.read at hframe
      split at hframe <;> cases hframe <;> rfl
    · next frame rest hframe =>
      obtain ⟨hdecode, -⟩ := Prod.mk.inj h
      rcases Message.isBodyFault_of_decode hdecode with ⟨cause, rfl⟩ | ⟨id, cause, rfl, -⟩ <;> rfl
  rcases item with f | m
  · rw [hitem f rfl]
    constructor
    · exact fun hfatal => ⟨f, rfl, hfatal⟩
    · rintro ⟨g, heq, hfatal⟩
      rwa [Except.error.inj heq]
  · constructor
    · intro hfatal
      cases hfatal
    · rintro ⟨f, heq, -⟩
      cases heq

namespace Session

/-! ## What the read loop takes -/

/-- What is taken off the stream in an action, and what is left. -/
def took? (s : Session) : Action → Option (Except Fault Message × List UInt8)
  | .turn t =>
    match s.task? t with
    | some .reading => s.shared.next?
    | _ => none
  | _ => none

/-- The items that are taken off the stream in a run. -/
def taken (s : Session) : List Action → List (Except Fault Message)
  | [] => []
  | a :: rest => ((s.took? a).map (·.1)).toList ++ (s.act a).taken rest

/-- How many bytes are taken off the stream in an action. -/
def spent (s : Session) (a : Action) : Nat :=
  match s.took? a with
  | some (_, left) => s.shared.input.length - left.length
  | none => 0

/-- How many bytes are taken off the stream in a run. -/
def consumed (s : Session) : List Action → Nat
  | [] => 0
  | a :: rest => s.spent a + (s.act a).consumed rest

/-- The bytes that are left to be read, with those that arrive in a run. -/
def stream (s : Session) (actions : List Action) : List UInt8 := s.shared.input ++ s.coming actions

/-- The read loop takes its turn. -/
def Action.isLoopTurn : Action → Bool
  | .turn t => t = readLoop
  | _ => false

variable {s s' : Session} {a : Action} {item : Except Fault Message} {left : List UInt8}

theorem next?_isSome_of_ended {cause : Option IoFault} (h : s.shared.inflow = .ended cause) :
    s.shared.next?.isSome = true := by
  have hinput : s.shared.hasInput = true := by
    unfold Shared.hasInput
    rw [h]
  unfold Shared.next?
  rw [if_pos hinput]
  rfl

theorem took?_of_reading {t : TaskId} (h : s.task? t = some .reading) : s.took? (.turn t) = s.shared.next? := by
  simp only [took?, h]

theorem took?_of_not_reading {t : TaskId} (h : s.task? t ≠ some .reading) : s.took? (.turn t) = none := by
  simp only [took?]

/-! ## What an action does to the read loop -/

/-- The read loop takes an item off the stream, and goes on unless the item ends the connection. -/
structure Takes (s : Session) (item : Except Fault Message) (left : List UInt8) (s' : Session) : Prop where
  place : s.task? readLoop = some .reading
  found : s.shared.next? = some (item, left)
  input : s'.shared.input = left
  inflow : s'.shared.inflow = s.shared.inflow
  next : s'.task? readLoop = some (if Inbound.isFatal item then .terminating .ended else .reading)

/-- Nothing is taken off the stream; what was to arrive may have done so. -/
structure LeavesStream (s : Session) (a : Action) (s' : Session) : Prop where
  stream : ∀ rest, s'.stream rest = s.stream (a :: rest)
  failure : ∀ rest, s'.failure rest = s.failure (a :: rest)

theorem LeavesStream.of_same (harriving : ∀ rest, arriving (a :: rest) = arriving rest)
    (hending : ∀ rest, ending (a :: rest) = ending rest) (input : s'.shared.input = s.shared.input)
    (inflow : s'.shared.inflow = s.shared.inflow) : s.LeavesStream a s' where
  stream rest := by
    unfold Session.stream coming
    rw [input, inflow, harriving]
  failure rest := by
    unfold Session.failure
    rw [inflow, hending]

/-- What an action does to the read loop. -/
inductive LoopMoves (s : Session) : Action → Session → Prop
  | read {s' : Session} {item : Except Fault Message} {left : List UInt8} (takes : s.Takes item left s') :
      LoopMoves s (.turn readLoop) s'
  | terminate {s' : Session} (place : s.task? readLoop = some (.terminating .ended))
      (next : s'.task? readLoop = some (.closing .ended))
      (phase : s'.shared.lifecycle.phase = .terminated) (leaves : s.LeavesStream (.turn readLoop) s') :
      LoopMoves s (.turn readLoop) s'
  | close {s' : Session} (place : s.task? readLoop = some (.closing .ended))
      (next : s'.task? readLoop = none) (lifecycle : s'.shared.lifecycle = s.shared.lifecycle)
      (pending : s'.shared.pending = s.shared.pending.close)
      (leaves : s.LeavesStream (.turn readLoop) s') : LoopMoves s (.turn readLoop) s'
  /-- The loop stays where it is: it is over, it has to wait, or it is not its turn. -/
  | aside {a : Action} {s' : Session} (untaken : s.took? a = none)
      (idle : a = .turn readLoop →
        s.task? readLoop = none ∨ s.task? readLoop = some .reading ∧ s.shared.inflow = .flowing)
      (place : s'.task? readLoop = s.task? readLoop) (leaves : s.LeavesStream a s') : LoopMoves s a s'

/-- A turn of the loop. -/
theorem Attended.loop_turn (hs : s.Attended) {task : Task} {p : Progress}
    (step : task.Steps readLoop s.shared p)
    (moved : Replaced s readLoop task p.next (p.asked.toList.map .answering)
      (p.shared.after readLoop p.next) s') : LoopMoves s (.turn readLoop) s' := by
  have hplace : s.task? readLoop = some task := hs.named.task?_eq_some_iff.mpr moved.here
  have hself := moved.task?_self hs.named
  obtain ⟨holder, hafter⟩ := p.shared.after_eq readLoop p.next
  have hshared : s'.shared = { p.shared with documentsHolder := holder } := moved.shared.trans hafter
  have hleaves : p.shared.input = s.shared.input → p.shared.inflow = s.shared.inflow →
      s.LeavesStream (.turn readLoop) s' := by
    intro hinput hinflow
    apply LeavesStream.of_same (fun _ => rfl) (fun _ => rfl)
    · rw [hshared, hinput]
    · rw [hshared, hinflow]
  cases hs.loop task moved.here with
  | reading =>
    obtain ⟨item, left, hfound, hinput, hinflow, -, hnext⟩ := step.reads
    rw [hnext] at hself
    refine .read ⟨hplace, hfound, ?_, ?_, hself⟩
    · rw [hshared, hinput]
    · rw [hshared, hinflow]
  | terminating =>
    cases step
    refine .terminate hplace hself ?_ (hleaves rfl rfl)
    rw [hshared]
    rfl
  | closing =>
    cases step
    refine .close hplace hself ?_ ?_ (hleaves rfl rfl) <;> rw [hshared]

/-- A turn in which the loop can do nothing finds it waiting for the stream. -/
theorem Attended.idle (hs : s.Attended) {task : Task} (here : (readLoop, task) ∈ s.tasks)
    (hstep : task.step readLoop s.shared = none) :
    s.task? readLoop = some .reading ∧ s.took? (.turn readLoop) = none ∧ s.shared.inflow = .flowing := by
  have hplace : s.task? readLoop = some task := hs.named.task?_eq_some_iff.mpr here
  cases hs.loop task here with
  | reading =>
    have hnone : s.shared.next? = none := by
      have hready := (Task.isReady_iff readLoop s.shared .reading).not.mpr (by rw [hstep]; exact nofun)
      unfold Shared.next?
      exact if_neg hready
    refine ⟨hplace, ?_, ?_⟩
    · rw [took?_of_reading hplace]
      exact hnone
    · cases hinflow : s.shared.inflow with
      | flowing => rfl
      | ended cause =>
        have hsome := next?_isSome_of_ended hinflow
        rw [hnone] at hsome
        cases hsome
  | terminating | closing => cases hstep

/-- What is neither a turn of the loop nor a change of the stream leaves the loop alone. -/
theorem LoopMoves.beside (harriving : ∀ rest, arriving (a :: rest) = arriving rest)
    (hending : ∀ rest, ending (a :: rest) = ending rest) (untaken : s.took? a = none)
    (hturn : a ≠ .turn readLoop) (place : s'.task? readLoop = s.task? readLoop)
    (input : s'.shared.input = s.shared.input) (inflow : s'.shared.inflow = s.shared.inflow) :
    LoopMoves s a s' :=
  .aside untaken (fun heq => absurd heq hturn) place (.of_same harriving hending input inflow)

theorem not_isLoop_finished {answer : Except Fault Answer} : ¬ (Task.finished answer).IsLoop := by
  intro hloop
  cases hloop

/-- What an action does that is no turn of the loop. -/
theorem Attended.loop_aside (hs : s.Attended) (hturn : a ≠ .turn readLoop) : LoopMoves s a (s.act a) := by
  have happened := hs.named.happens_act a
  -- tasks beside the loop come and go without it
  have hother : ∀ {t : TaskId} {task : Task} {stay : Option Task} {new : List Task} {shared : Shared}
      {s' : Session}, t ≠ readLoop → Replaced s t task stay new shared s' →
      s'.task? readLoop = s.task? readLoop := by
    intro t task stay new shared s' hne moved
    exact moved.task?_other hs.named hne.symm hs.named.loop
  have hnotLoop : ∀ {t : TaskId} {task : Task}, (t, task) ∈ s.tasks → ¬ task.IsLoop → t ≠ readLoop := by
    rintro t task here hnot rfl
    exact hnot (hs.loop task here)
  have hnothing : (∀ rest, arriving (a :: rest) = arriving rest) → (∀ rest, ending (a :: rest) = ending rest) →
      s.took? a = none → LoopMoves s a s := by
    intro harriving hending huntaken
    exact .beside harriving hending huntaken hturn rfl rfl rfl
  cases a with
  | arrive _ | endInput _ =>
    -- what comes behind the end of the stream is not counted as coming
    refine .aside rfl (fun heq => absurd heq hturn) ?_ ⟨?_, ?_⟩
    · simp only [act]
      split <;> rfl
    · intro rest
      cases hinflow : s.shared.inflow <;> simp [act, stream, coming, hinflow, arriving]
    · intro rest
      cases hinflow : s.shared.inflow <;> simp [act, failure, hinflow, ending]
  | breakOutflow =>
    apply LoopMoves.beside (fun _ => rfl) (fun _ => rfl) rfl hturn <;>
      (simp only [act]
       split <;> rfl)
  | pass ms => exact .beside (fun _ => rfl) (fun _ => rfl) rfl hturn rfl rfl rfl
  | call c =>
    have hplace : (s.act (.call c)).task? readLoop = s.task? readLoop := by
      show (s.spawn (.called c)).task? readLoop = s.task? readLoop
      rw [task?_spawn, if_neg (Nat.ne_of_lt hs.named.loop), Option.or_none]
    exact .beside (fun _ => rfl) (fun _ => rfl) rfl hturn hplace rfl rfl
  | turn t =>
    have hne : t ≠ readLoop := fun heq => hturn (heq ▸ rfl)
    have huntaken : s.took? (.turn t) = none := by
      apply took?_of_not_reading
      intro hreading
      exact hne (hs.reader t (hs.named.task?_eq_some_iff.mp hreading))
    generalize s.act (.turn t) = s' at happened
    cases happened with
    | nothing => exact hnothing (fun _ => rfl) (fun _ => rfl) huntaken
    | @turn _ task p _ step moved =>
      obtain ⟨holder, hafter⟩ := p.shared.after_eq t p.next
      have hshared : s'.shared = { p.shared with documentsHolder := holder } := moved.shared.trans hafter
      have hreading : task ≠ .reading := by
        rintro rfl
        exact hne (hs.reader t moved.here)
      obtain ⟨hinput, hinflow, -, -⟩ := step.of_not_reading hreading
      apply LoopMoves.beside (fun _ => rfl) (fun _ => rfl) huntaken hturn (hother hne moved)
      · rw [hshared]
        exact hinput
      · rw [hshared]
        exact hinflow
  | drop t =>
    generalize s.act (.drop t) = s' at happened
    cases happened with
    | nothing => exact hnothing (fun _ => rfl) (fun _ => rfl) rfl
    | drop leaves moved =>
      obtain ⟨holder, hafter⟩ := s.shared.after_eq t none
      have hshared : s'.shared = { s.shared with documentsHolder := holder } := moved.shared.trans hafter
      have hplace := hother (hnotLoop moved.here leaves.not_loop) moved
      apply LoopMoves.beside (fun _ => rfl) (fun _ => rfl) rfl hturn hplace <;> rw [hshared]
  | await t =>
    generalize s.act (.await t) = s' at happened
    cases happened with
    | nothing => exact hnothing (fun _ => rfl) (fun _ => rfl) rfl
    | await moved =>
      have hplace := hother (hnotLoop moved.here not_isLoop_finished) moved
      apply LoopMoves.beside (fun _ => rfl) (fun _ => rfl) rfl hturn hplace <;> rw [moved.shared]
  | collect t =>
    generalize s.act (.collect t) = s' at happened
    cases happened with
    | nothing => exact hnothing (fun _ => rfl) (fun _ => rfl) rfl
    | collect _ moved =>
      have hplace := hother (hnotLoop moved.here not_isLoop_finished) moved
      apply LoopMoves.beside (fun _ => rfl) (fun _ => rfl) rfl hturn hplace <;> rw [moved.shared]

theorem Attended.loopMoves (hs : s.Attended) (a : Action) : LoopMoves s a (s.act a) := by
  by_cases hturn : a = .turn readLoop
  · subst hturn
    have hstays : s.act (.turn readLoop) = s → s.LeavesStream (.turn readLoop) (s.act (.turn readLoop)) := by
      intro hact
      rw [hact]
      exact .of_same (fun _ => rfl) (fun _ => rfl) rfl rfl
    cases htask : s.task? readLoop with
    | none =>
      have hact : s.act (.turn readLoop) = s := by simp [act, step?, htask]
      have huntaken : s.took? (.turn readLoop) = none := by
        apply took?_of_not_reading
        rw [htask]
        exact (Option.some_ne_none _).symm
      exact .aside huntaken (fun _ => .inl htask) (by rw [hact]) (hstays hact)
    | some task =>
      have here := hs.named.task?_eq_some_iff.mp htask
      cases hstep : task.step readLoop s.shared with
      | none =>
        have hact : s.act (.turn readLoop) = s := by simp [act, step?, htask, hstep]
        obtain ⟨hreading, huntaken, hflowing⟩ := hs.idle here hstep
        exact .aside huntaken (fun _ => .inr ⟨hreading, hflowing⟩) (by rw [hact]) (hstays hact)
      | some p => exact hs.loop_turn (.of_step hstep) (hs.named.replaced_turn here hstep)
  · exact hs.loop_aside hturn

/-- What is taken off the stream is taken by the loop. -/
theorem Attended.takes (hs : s.Attended) (h : s.took? a = some (item, left)) :
    a = .turn readLoop ∧ s.Takes item left (s.act a) := by
  have hnot : ∀ {task : Task}, s.task? readLoop = some task → task ≠ .reading →
      s.took? (.turn readLoop) = none := by
    intro task place hne
    apply took?_of_not_reading
    rw [place]
    exact fun heq => hne (Option.some.inj heq)
  have hmoves := hs.loopMoves a
  cases hmoves with
  | read takes =>
    rw [took?_of_reading takes.place, takes.found] at h
    obtain ⟨rfl, rfl⟩ := Prod.mk.inj (Option.some.inj h)
    exact ⟨rfl, takes⟩
  | terminate place | close place =>
    rw [hnot place nofun] at h
    cases h
  | aside untaken =>
    rw [untaken] at h
    cases h

/-- Where nothing is taken, the stream stays, and so does the loop if it reads. -/
theorem Attended.untaken (hs : s.Attended) (h : s.took? a = none) : s.LeavesStream a (s.act a) ∧
    ((s.act a).task? readLoop = some .reading ↔ s.task? readLoop = some .reading) := by
  have hmoves := hs.loopMoves a
  cases hmoves with
  | read takes =>
    rw [took?_of_reading takes.place, takes.found] at h
    cases h
  | terminate place next _ leaves | close place next _ _ leaves =>
    refine ⟨leaves, ?_⟩
    rw [next, place]
    exact iff_of_false nofun nofun
  | aside _ _ place leaves => exact ⟨leaves, by rw [place]⟩

theorem Attended.act (hs : s.Attended) (a : Action) : (s.act a).Attended :=
  hs.happens (hs.named.happens_act a)

/-! ## What is taken in a run -/

theorem taken_cons_of_took (h : s.took? a = some (item, left)) (rest : List Action) :
    s.taken (a :: rest) = item :: (s.act a).taken rest := by
  rw [taken, h]
  rfl

theorem taken_cons_of_untaken (h : s.took? a = none) (rest : List Action) :
    s.taken (a :: rest) = (s.act a).taken rest := by
  rw [taken, h]
  rfl

theorem spent_of_took (h : s.took? a = some (item, left)) :
    s.spent a = s.shared.input.length - left.length := by
  unfold spent
  rw [h]

theorem spent_of_untaken (h : s.took? a = none) : s.spent a = 0 := by
  unfold spent
  rw [h]

theorem taken_append (s : Session) (before later : List Action) :
    s.taken (before ++ later) = s.taken before ++ (s.run before).taken later := by
  induction before generalizing s with
  | nil => rfl
  | cons a before ih =>
    have hrun : s.run (a :: before) = (s.act a).run before := rfl
    rw [List.cons_append, taken, taken, ih, hrun, List.append_assoc]

theorem consumed_append (s : Session) (before later : List Action) :
    s.consumed (before ++ later) = s.consumed before + (s.run before).consumed later := by
  induction before generalizing s with
  | nil => exact (Nat.zero_add _).symm
  | cons a before ih =>
    have hrun : s.run (a :: before) = (s.act a).run before := rfl
    rw [List.cons_append, consumed, consumed, ih, hrun, Nat.add_assoc]

theorem length_left_le (h : s.shared.next? = some (item, left)) : left.length ≤ s.shared.input.length := by
  unfold Shared.next? at h
  split at h
  · exact Message.length_read_le (Option.some.inj h)
  · cases h

/-- A loop that does not read takes nothing any more. -/
theorem Attended.nothing_taken (hs : s.Attended) (h : s.task? readLoop ≠ some .reading)
    (actions : List Action) : s.taken actions = [] ∧ s.consumed actions = 0 ∧
      (s.run actions).task? readLoop ≠ some .reading := by
  induction actions generalizing s with
  | nil => exact ⟨rfl, rfl, h⟩
  | cons a rest ih =>
    have huntaken : s.took? a = none := by
      cases htook : s.took? a with
      | none => rfl
      | some found => exact absurd (hs.takes htook).2.place h
    have hnext : (s.act a).task? readLoop ≠ some .reading :=
      fun hreading => h ((hs.untaken huntaken).2.mp hreading)
    obtain ⟨htaken, hconsumed, hstill⟩ := ih (hs.act a) hnext
    refine ⟨?_, ?_, hstill⟩
    · rw [taken_cons_of_untaken huntaken, htaken]
    · rw [consumed, spent_of_untaken huntaken, hconsumed]

/-- An item that ends the connection stops the loop. -/
theorem Takes.stops (h : s.Takes item left s') (hfatal : Inbound.isFatal item = true) :
    s'.task? readLoop ≠ some .reading := by
  rw [h.next, hfatal]
  exact nofun

/-- No more bytes are taken than there are. -/
theorem Attended.consumed_le (hs : s.Attended) (actions : List Action) :
    s.consumed actions ≤ (s.stream actions).length := by
  induction actions generalizing s with
  | nil => exact Nat.zero_le _
  | cons a rest ih =>
    have hrest := ih (hs.act a)
    rw [consumed]
    cases htook : s.took? a with
    | none =>
      rw [spent_of_untaken htook, Nat.zero_add, ← (hs.untaken htook).1.stream]
      exact hrest
    | some found =>
      obtain ⟨item, left⟩ := found
      obtain ⟨rfl, htakes⟩ := hs.takes htook
      have hleft := length_left_le htakes.found
      have hcoming : (s.act (.turn readLoop)).coming rest = s.coming (.turn readLoop :: rest) := by
        unfold coming
        rw [htakes.inflow]
        rfl
      unfold stream at hrest ⊢
      rw [htakes.input, hcoming, List.length_append] at hrest
      rw [spent_of_took htook, List.length_append]
      omega

/-- Every item but the last has taken a byte at least. -/
theorem Attended.length_taken_le (hs : s.Attended) (actions : List Action) :
    (s.taken actions).length ≤ s.consumed actions + 1 := by
  induction actions generalizing s with
  | nil => exact Nat.zero_le _
  | cons a rest ih =>
    have hrest := ih (hs.act a)
    rw [consumed]
    cases htook : s.took? a with
    | none =>
      rw [taken_cons_of_untaken htook, spent_of_untaken htook, Nat.zero_add]
      exact hrest
    | some found =>
      obtain ⟨item, left⟩ := found
      obtain ⟨-, htakes⟩ := hs.takes htook
      rw [taken_cons_of_took htook, spent_of_took htook, List.length_cons]
      cases hfatal : Inbound.isFatal item with
      | false =>
        have hless := length_next? htakes.found hfatal
        omega
      | true =>
        rw [((hs.act a).nothing_taken (htakes.stops hfatal) rest).1]
        exact Nat.le_add_left _ _

/-- The items that are taken are the first of the stream. -/
theorem Attended.taken_prefix (hs : s.Attended) (actions : List Action) :
    s.taken actions <+: s.inbound actions := by
  induction actions generalizing s with
  | nil => exact List.nil_prefix
  | cons a rest ih =>
    cases htook : s.took? a with
    | none =>
      obtain ⟨hleaves, -⟩ := hs.untaken htook
      have hinbound : (s.act a).inbound rest = s.inbound (a :: rest) := by
        show Inbound.items _ ((s.act a).stream rest) = Inbound.items _ (s.stream (a :: rest))
        rw [hleaves.stream, hleaves.failure]
      rw [taken_cons_of_untaken htook, ← hinbound]
      exact ih (hs.act a)
    | some found =>
      obtain ⟨item, left⟩ := found
      obtain ⟨rfl, htakes⟩ := hs.takes htook
      rw [taken_cons_of_took htook]
      show _ <+: s.inbound rest
      cases hfatal : Inbound.isFatal item with
      | false =>
        rw [inbound_read htakes.found hfatal htakes.input htakes.inflow, List.cons_prefix_cons]
        exact ⟨rfl, ih (hs.act _)⟩
      | true =>
        -- the loop takes nothing behind this item, whatever the stream still holds
        obtain ⟨tail, htail⟩ := Inbound.items_head (read_of_next? htakes.found rest)
        unfold inbound
        rw [((hs.act _).nothing_taken (htakes.stops hfatal) rest).1, htail, List.cons_prefix_cons]
        exact ⟨rfl, List.nil_prefix⟩

/-- A fault that is read stops the loop if it is fatal, and only then. -/
theorem Takes.goes_on_iff (h : s.Takes item left s') :
    s'.task? readLoop = some .reading ↔ ∀ f, item = .error f → f.isFatal = false := by
  have hagree := Inbound.isFatal_of_read (read_of_next? h.found [])
  rw [h.next]
  cases hfatal : Inbound.isFatal item with
  | false =>
    refine iff_of_true rfl ?_
    intro f hf
    apply Bool.eq_false_iff.mpr
    intro hstops
    rw [hagree.mpr ⟨f, hf, hstops⟩] at hfatal
    cases hfatal
  | true =>
    obtain ⟨f, hf, hstops⟩ := hagree.mp hfatal
    refine iff_of_false nofun ?_
    intro hall
    rw [hall f hf] at hstops
    cases hstops

/-- A loop that reads does so until it takes a fatal fault. -/
theorem Attended.reading_iff (hs : s.Attended) (hplace : s.task? readLoop = some .reading)
    (actions : List Action) : (s.run actions).task? readLoop = some .reading ↔
      ∀ f, .error f ∈ s.taken actions → f.isFatal = false := by
  induction actions generalizing s with
  | nil => exact iff_of_true hplace (fun f hmem => absurd hmem List.not_mem_nil)
  | cons a rest ih =>
    show ((s.act a).run rest).task? readLoop = some .reading ↔ _
    cases htook : s.took? a with
    | none =>
      rw [taken_cons_of_untaken htook]
      exact ih (hs.act a) ((hs.untaken htook).2.mpr hplace)
    | some found =>
      obtain ⟨item, left⟩ := found
      obtain ⟨-, htakes⟩ := hs.takes htook
      rw [taken_cons_of_took htook]
      constructor
      · intro hreading f hmem
        have hnext : (s.act a).task? readLoop = some .reading := by
          by_contra hstopped
          exact ((hs.act a).nothing_taken hstopped rest).2.2 hreading
        rcases List.mem_cons.mp hmem with heq | hmem
        · exact htakes.goes_on_iff.mp hnext f heq.symm
        · exact (ih (hs.act a) hnext).mp hreading f hmem
      · intro hall
        have hnext := htakes.goes_on_iff.mpr fun f hf => hall f (hf ▸ List.mem_cons_self)
        exact (ih (hs.act a) hnext).mpr fun f hmem => hall f (List.mem_cons_of_mem _ hmem)

end Session

end LanguageClient
