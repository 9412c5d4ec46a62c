import LanguageClient.Proofs.Session.Listening

/-!
# LanguageClient.Proofs.Session.Correlation -- every call gets the first answer under its own id

What a waiter will find in the end can be foreseen from the bytes that are left and those that will come
(`Session.foreseen`), and no action changes that (`foreseen_act`): not the turns of the tasks in whatever
order, nor how the bytes are cut, nor when they come. When the read loop is over, what was foreseen is
there.

All this is as long as no write fails. A failed write ends the connection, so a request of the server
that cannot be answered does decide the calls that wait.
-/

namespace LanguageClient

namespace Session

/-! ## What will be read -/

/-- The bytes that arrive in a run before the stream ends. -/
def arriving : List Action → List UInt8
  | [] => []
  | .arrive bytes :: rest => bytes ++ arriving rest
  | .endInput _ :: _ => []
  | _ :: rest => arriving rest

/-- How the stream ends in a run. -/
def ending : List Action → Option IoFault
  | [] => none
  | .endInput failure :: _ => failure
  | _ :: rest => ending rest

/-- The bytes that are still to come. -/
def coming (s : Session) (actions : List Action) : List UInt8 :=
  match s.shared.inflow with
  | .flowing => arriving actions
  | .ended _ => []

/-- How the stream ends, or has ended. -/
def failure (s : Session) (actions : List Action) : Option IoFault :=
  match s.shared.inflow with
  | .flowing => ending actions
  | .ended failure => failure

/-- The messages and faults that are left to be read, with those that arrive in a run. -/
def inbound (s : Session) (actions : List Action) : List (Except Fault Message) :=
  Inbound.items (s.failure actions) (s.shared.input ++ s.coming actions)

/-- What a waiter will find when the read loop is over. -/
def foreseen (s : Session) (actions : List Action) (w : Waiter) : Option Outcome :=
  (s.shared.pending.outcome? w).or <|
    match s.task? readLoop with
    | some .reading => Inbound.firstVerdict w.id (s.inbound actions)
    | _ => some (.error .connectionClosed)

/-- No write fails in a run. -/
def NoWriteFails (s : Session) : List Action → Prop
  | [] => ¬ s.WriteFailed
  | a :: rest => ¬ s.WriteFailed ∧ (s.act a).NoWriteFails rest

variable {s s' : Session} {w : Waiter}

theorem inbound_congr (h : SameInflow s.shared s'.shared) (actions : List Action) :
    s'.inbound actions = s.inbound actions := by
  unfold inbound coming failure
  rw [h.input, h.inflow]

/-- Bytes that arrive were still to come before. -/
theorem inbound_arrive (s : Session) (bytes : List UInt8) (rest : List Action) :
    (s.act (.arrive bytes)).inbound rest = s.inbound (.arrive bytes :: rest) := by
  cases hinflow : s.shared.inflow with
  | flowing =>
    simp [act, inbound, coming, failure, hinflow, arriving, ending, List.append_assoc]
  | ended f => simp [act, inbound, coming, failure, hinflow]

theorem inbound_endInput (s : Session) (cause : Option IoFault) (rest : List Action) :
    (s.act (.endInput cause)).inbound rest = s.inbound (.endInput cause :: rest) := by
  cases hinflow : s.shared.inflow with
  | flowing => simp [act, inbound, coming, failure, hinflow, arriving, ending]
  | ended f => simp [act, inbound, coming, failure, hinflow]

/-- What the read loop finds now it would also find when all bytes have come. -/
theorem read_of_next? {item : Except Fault Message} {rest : List UInt8}
    (h : s.shared.next? = some (item, rest)) (actions : List Action) :
    Message.read (s.failure actions) (s.shared.input ++ s.coming actions)
      = (item, rest ++ s.coming actions) := by
  unfold Shared.next? at h
  split at h
  · next hinput =>
    unfold failure coming
    have hread := Option.some.inj h
    cases hinflow : s.shared.inflow with
    | ended f =>
      rw [hinflow] at hread
      rw [List.append_nil, List.append_nil]
      exact hread
    | flowing =>
      rw [hinflow] at hread
      -- while bytes may still come, the loop reads only what does not depend on them
      have hdone : ∃ found left, Frame.scan s.shared.input = .done found left := by
        unfold Shared.hasInput Shared.isShort at hinput
        rw [hinflow] at hinput
        cases hscan : Frame.scan s.shared.input with
        | done found left => exact ⟨found, left, rfl⟩
        | shortHeaders => simp [hscan] at hinput
        | shortBody => simp [hscan] at hinput
      exact Message.read_append hdone hread _ _
  · cases h

theorem inbound_read {item : Except Fault Message} {rest : List UInt8}
    (h : s.shared.next? = some (item, rest)) (hitem : Inbound.isFatal item = false)
    (hinput : s'.shared.input = rest) (hinflow : s'.shared.inflow = s.shared.inflow)
    (actions : List Action) : s.inbound actions = item :: s'.inbound actions := by
  have hresult : ∀ cause, item ≠ .error (.io cause) := by
    rintro cause rfl
    cases hitem
  unfold inbound
  rw [Inbound.items_eq_cons (read_of_next? h actions) hresult, hinput]
  unfold coming failure
  rw [hinflow]

theorem inbound_stop {item : Except Fault Message} {rest : List UInt8}
    (h : s.shared.next? = some (item, rest)) (hitem : Inbound.isFatal item = true)
    (actions : List Action) (id : Id) :
    Inbound.firstVerdict id (s.inbound actions) = some (.error .connectionClosed) := by
  obtain ⟨tail, htail⟩ := Inbound.items_head (read_of_next? h actions)
  unfold inbound
  rw [htail, Inbound.firstVerdict_cons, Inbound.verdict?_of_isFatal hitem, Option.some_or]

/-! ## What is foreseen comes true -/

theorem Moved.knows (h : Moved s s') (hs : s.Listening) (hw : s.shared.pending.Knows w) :
    s'.shared.pending.Knows w := by
  rcases h.pending with hsame | ⟨item, harmless, hreceive⟩ | hclose
  · rwa [hsame]
  · rw [hreceive]
    exact hw.receive hs.table harmless
  · right
    rw [hclose, hw.closed]
    cases s.shared.pending.outcome? w <;> rfl

theorem Moved.foreseen_eq (h : Moved s s') (hs : s.Listening) (hw : s.shared.pending.Knows w)
    (actions : List Action) :
    s'.foreseen actions w = s.foreseen actions w ∨
      s.WriteFailed ∧ s'.foreseen actions w = some (.error .connectionClosed) := by
  unfold foreseen
  cases h with
  | quiet shared next =>
    rw [shared.pending, next, inbound_congr shared]
    exact .inl rfl
  | advanced h =>
    left
    cases h with
    | read item rest place found harmless shared next =>
      rw [shared.pending, next, place, inbound_read found harmless shared.input shared.inflow,
        Inbound.firstVerdict_cons]
      exact hw.received_or hs.table harmless _
    | stop item rest place found fatal shared next =>
      rw [shared.pending, next, place, inbound_stop found fatal]
    | terminate place shared next => rw [shared.pending, next, place]
    | close place shared next =>
      rw [shared.pending, next, place, hw.closed, Option.or_assoc, Option.some_or]
  | failed cause shared next =>
    rw [shared.pending, hw.closed]
    -- an outcome that is there already stays, write or no write
    cases s.shared.pending.outcome? w with
    | some o => exact .inl rfl
    | none => exact .inr ⟨cause, rfl⟩

theorem knows_act (hs : s.Listening) (hw : s.shared.pending.Knows w) {a : Action}
    (ha : a.IsInbound) : (s.act a).shared.pending.Knows w := by
  cases a with
  | turn t => exact (hs.moved t).knows hs hw
  | arrive _ | endInput _ | breakOutflow =>
    simp only [act]
    split <;> exact hw
  | pass ms => exact hw
  | call _ | drop _ | await _ | collect _ => exact ha.elim

/-- No action changes what is foreseen, but that of a task which fails the connection for a write that
has failed. -/
theorem foreseen_act (hs : s.Listening) (hw : s.shared.pending.Knows w) {a : Action}
    (ha : a.IsInbound) (rest : List Action) :
    (s.act a).foreseen rest w = s.foreseen (a :: rest) w ∨
      s.WriteFailed ∧ (s.act a).foreseen rest w = some (.error .connectionClosed) := by
  cases a with
  | turn t => exact (hs.moved t).foreseen_eq hs hw rest
  | arrive bytes =>
    left
    unfold foreseen
    rw [inbound_arrive]
    simp only [act]
    split <;> rfl
  | endInput cause =>
    left
    unfold foreseen
    rw [inbound_endInput]
    simp only [act]
    split <;> rfl
  | breakOutflow =>
    simp only [act]
    split <;> exact .inl rfl
  | pass ms => exact .inl rfl
  | call _ | drop _ | await _ | collect _ => exact ha.elim

theorem knows_run (hs : s.Listening) (hw : s.shared.pending.Knows w) {actions : List Action}
    (h : ∀ a ∈ actions, a.IsInbound) : (s.run actions).shared.pending.Knows w := by
  induction actions generalizing s with
  | nil => exact hw
  | cons a rest ih =>
    have ha : a.IsInbound := h a List.mem_cons_self
    exact ih (hs.act ha) (knows_act hs hw ha) fun b hb => h b (List.mem_cons_of_mem _ hb)

theorem foreseen_run (hs : s.Listening) (hw : s.shared.pending.Knows w) {actions : List Action}
    (h : ∀ a ∈ actions, a.IsInbound) :
    (s.run actions).foreseen [] w = s.foreseen actions w ∨
      ¬ s.NoWriteFails actions ∧ (s.run actions).foreseen [] w = some (.error .connectionClosed) := by
  induction actions generalizing s with
  | nil => exact .inl rfl
  | cons a rest ih =>
    have ha : a.IsInbound := h a List.mem_cons_self
    have hrest := ih (hs.act ha) (knows_act hs hw ha) fun b hb => h b (List.mem_cons_of_mem _ hb)
    rcases foreseen_act hs hw ha rest with heq | ⟨hfailed, hclosed⟩
    · rcases hrest with hrun | ⟨hfails, hrun⟩
      · exact .inl (hrun.trans heq)
      · exact .inr ⟨fun hno => hfails hno.2, hrun⟩
    · -- the connection has been failed, and what follows cannot change what is foreseen then
      refine .inr ⟨fun hno => hno.1 hfailed, ?_⟩
      rcases hrest with hrun | ⟨-, hrun⟩
      · exact hrun.trans hclosed
      · exact hrun

/-- When the read loop is over, a known waiter finds what is foreseen. -/
theorem Listening.outcome_over (hs : s.Listening) (hw : s.shared.pending.Knows w)
    (hover : s.task? readLoop = none) : s.shared.pending.outcome? w = s.foreseen [] w := by
  have hsome : (s.shared.pending.outcome? w).isSome := by
    rcases hw with ⟨c, hc, -⟩ | hsome
    · rw [hs.emptied hover] at hc
      cases hc
    · exact hsome
  obtain ⟨o, ho⟩ := Option.isSome_iff_exists.mp hsome
  unfold foreseen
  rw [ho, Option.some_or]

/-! ## The read loop comes to its end -/

/-- How far the read loop is from its end, once the stream has ended. -/
def distance (s : Session) : Nat :=
  match s.task? readLoop with
  | some .reading => s.shared.input.length + 3
  | some (.terminating _) => 2
  | some _ => 1
  | none => 0

theorem length_next? {item : Except Fault Message} {rest : List UInt8}
    (h : s.shared.next? = some (item, rest)) (hitem : Inbound.isFatal item = false) :
    rest.length < s.shared.input.length := by
  unfold Shared.next? at h
  split at h
  · rcases Message.length_read (Option.some.inj h) with hlt | ⟨cause, rfl⟩
    · exact hlt
    · cases hitem
  · cases h

theorem Advanced.distance_lt (h : Advanced s s') : s'.distance < s.distance := by
  unfold distance
  cases h with
  | read item rest place found harmless shared next =>
    have hlt := length_next? found harmless
    rw [next, place, shared.input]
    exact Nat.add_lt_add_right hlt 3
  | stop item rest place found fatal shared next =>
    rw [next, place]
    simp only
    omega
  | terminate place shared next =>
    rw [next, place]
    exact Nat.lt_succ_self 1
  | close place shared next =>
    rw [next, place]
    exact Nat.zero_lt_one

theorem Moved.inflow (h : Moved s s') : s'.shared.inflow = s.shared.inflow := by
  cases h with
  | quiet shared => exact shared.inflow
  | advanced h =>
    cases h with
    | read item rest place found harmless shared => exact shared.inflow
    | stop item rest place found fatal shared => exact shared.inflow
    | terminate place shared => exact shared.inflow
    | close place shared => exact shared.inflow
  | failed cause shared => exact shared.inflow

/-- Once the stream has ended, some turns bring the read loop to its end. -/
theorem Listening.loop_ends (hs : s.Listening) {cause : Option IoFault}
    (hended : s.shared.inflow = .ended cause) :
    ∃ n, (s.run (List.replicate n (.turn readLoop))).task? readLoop = none := by
  -- each turn brings the loop nearer to its end, by how much does not matter
  induction hd : s.distance using Nat.strongRecOn generalizing s with
  | ind d ih =>
    cases htask : s.task? readLoop with
    | none => exact ⟨0, htask⟩
    | some task =>
      have hready : task.isReady s.shared = true := by
        cases hs.loop task htask with
        | reading => simp [Task.isReady, Shared.hasInput, hended]
        | terminating => rfl
        | closing => rfl
      have hlt := (hs.advanced htask hready).distance_lt
      have hinflow := (hs.moved readLoop).inflow
      obtain ⟨n, hn⟩ := ih _ (hd ▸ hlt) (hs.act (a := .turn readLoop) trivial)
        (hinflow.trans hended) rfl
      exact ⟨n + 1, hn⟩

theorem ended_act (hs : s.Listening) {cause : Option IoFault}
    (hended : s.shared.inflow = .ended cause) {a : Action} (ha : a.IsInbound) :
    (s.act a).shared.inflow = .ended cause := by
  cases a with
  | turn t => exact (hs.moved t).inflow.trans hended
  | arrive _ | endInput _ => simp [act, hended]
  | breakOutflow =>
    simp only [act]
    split <;> exact hended
  | pass ms => exact hended
  | call _ | drop _ | await _ | collect _ => exact ha.elim

/-- A run in which the stream ends leaves it so. -/
theorem ended_run (hs : s.Listening) {actions : List Action} (h : ∀ a ∈ actions, a.IsInbound)
    (hend : (∃ cause, s.shared.inflow = .ended cause) ∨ ∃ cause, .endInput cause ∈ actions) :
    ∃ cause, (s.run actions).shared.inflow = .ended cause := by
  induction actions generalizing s with
  | nil =>
    rcases hend with hended | ⟨cause, hmem⟩
    · exact hended
    · cases hmem
  | cons a rest ih =>
    have ha : a.IsInbound := h a List.mem_cons_self
    refine ih (hs.act ha) (fun b hb => h b (List.mem_cons_of_mem _ hb)) ?_
    rcases hend with ⟨cause, hended⟩ | ⟨cause, hmem⟩
    · exact .inl ⟨cause, ended_act hs hended ha⟩
    · rcases List.mem_cons.mp hmem with rfl | hmem
      · left
        cases hinflow : s.shared.inflow with
        | flowing => exact ⟨cause, by simp [act, hinflow]⟩
        | ended f => exact ⟨f, by simp [act, hinflow]⟩
      · exact .inr ⟨cause, hmem⟩

/-! ## The first answer decides -/

/-- What becomes of the calls of a session in a run in which only the server does something. -/
structure Correlated (s : Session) (actions : List Action) : Prop where
  /-- Once the stream has ended, some more turns bring the read loop to its end. -/
  ends : (∃ cause, .endInput cause ∈ actions) →
    ∃ n, (s.run (actions ++ List.replicate n (.turn readLoop))).task? readLoop = none
  /-- What comes in as frames is what their bodies are decoded to, and then the end of the stream. -/
  frames : ∀ bodies : List (List UInt8), (∀ body ∈ bodies, body.length ≤ maxContentLength) →
    s.shared.input ++ s.coming actions = Sink.framesBytes bodies →
    s.inbound actions = bodies.map Message.decode
      ++ [.error (.io ((s.failure actions).getD .streamClosed))]
  /-- When the read loop is over, the first item that means something to a call has decided it, unless a
  write has failed and ended the connection before. -/
  outcomes : (s.run actions).task? readLoop = none → ∀ c ∈ s.shared.pending.calls, ∃ o,
    (s.run actions).shared.pending.outcome? c.waiter = some o ∧
      (Inbound.firstVerdict c.id (s.inbound actions) = some o ∨
        ¬ s.NoWriteFails actions ∧ o = .error .connectionClosed)
  /-- Another run, in which two neighbours that are answers under different ids have changed places, has
  the same outcomes. -/
  exchange : ∀ actions' : List Action, (∀ a ∈ actions', a.IsInbound) →
    (s.run actions).task? readLoop = none → (s.run actions').task? readLoop = none →
    s.NoWriteFails actions → s.NoWriteFails actions' →
    ∀ (before after : List (Except Fault Message)) (x y : Except Fault Message) (i j : Option Id),
      Inbound.IsAnswer i x → Inbound.IsAnswer j y → i ≠ j →
      s.inbound actions = before ++ x :: y :: after →
      s.inbound actions' = before ++ y :: x :: after →
      ∀ c ∈ s.shared.pending.calls,
        (s.run actions).shared.pending.outcome? c.waiter
          = (s.run actions').shared.pending.outcome? c.waiter

/-- What is foreseen for a call that waits is what the first item means that means something to it. -/
theorem Listening.foreseen_call (hs : s.Listening) (hplace : s.task? readLoop = some .reading)
    {c : PendingCall} (hc : c ∈ s.shared.pending.calls) (actions : List Action) :
    s.foreseen actions c.waiter = Inbound.firstVerdict c.id (s.inbound actions) := by
  unfold foreseen
  rw [hs.table.outcome?_waiter hc, hplace, Option.none_or]
  rfl

theorem Listening.outcome_run (hs : s.Listening) (hplace : s.task? readLoop = some .reading)
    {actions : List Action} (h : ∀ a ∈ actions, a.IsInbound)
    (hover : (s.run actions).task? readLoop = none) {c : PendingCall}
    (hc : c ∈ s.shared.pending.calls) :
    (s.run actions).shared.pending.outcome? c.waiter
        = Inbound.firstVerdict c.id (s.inbound actions) ∨
      ¬ s.NoWriteFails actions ∧
        (s.run actions).shared.pending.outcome? c.waiter = some (.error .connectionClosed) := by
  have hknows : s.shared.pending.Knows c.waiter := .inl ⟨c, hc, rfl⟩
  rw [(hs.run h).outcome_over (knows_run hs hknows h) hover, ← hs.foreseen_call hplace hc]
  exact foreseen_run hs hknows h

/-- **The first answer under its own id decides a call.** -/
theorem first_answer_decides (s : Session) (hs : s.Listening)
    (hplace : s.task? readLoop = some .reading) (actions : List Action)
    (h : ∀ a ∈ actions, a.IsInbound) : s.Correlated actions where
  ends hend := by
    obtain ⟨cause, hended⟩ := ended_run hs h (.inr hend)
    obtain ⟨n, hn⟩ := (hs.run h).loop_ends hended
    refine ⟨n, ?_⟩
    unfold run at hn ⊢
    rwa [List.foldl_append]
  frames bodies small hbodies := by
    unfold inbound
    rw [hbodies, Inbound.items_frames _ _ small]
  outcomes hover c hc := by
    have hknows := knows_run hs (.inl ⟨c, hc, rfl⟩) h
    have hsome : ((s.run actions).shared.pending.outcome? c.waiter).isSome :=
      hknows.resolve_left fun ⟨d, hd, _⟩ => by
        rw [(hs.run h).emptied hover] at hd
        cases hd
    obtain ⟨o, ho⟩ := Option.isSome_iff_exists.mp hsome
    refine ⟨o, ho, ?_⟩
    rcases hs.outcome_run hplace h hover hc with hfirst | ⟨hfails, hclosed⟩
    · exact .inl (hfirst.symm.trans ho)
    · exact .inr ⟨hfails, Option.some.inj (ho.symm.trans hclosed)⟩
  exchange actions' h' hover hover' hno hno' before after x y i j hx hy hne hxy hyx c hc := by
    have hfirst := (hs.outcome_run hplace h hover hc).resolve_right fun hfails => hfails.1 hno
    have hfirst' := (hs.outcome_run hplace h' hover' hc).resolve_right fun hfails => hfails.1 hno'
    rw [hfirst, hfirst', hxy, hyx]
    exact Inbound.firstVerdict_swap hx hy hne c.id before after

/-! ### A call that waits -/

/-- A session in which one call waits, under the number 2. -/
def awaiting : Session where
  shared :=
    { options := {}
      pending := { calls := [⟨.number 2, "ask", 0⟩], nextSerial := 1 } }
  tasks := [(readLoop, .reading)]
  nextTask := 1

theorem listening_awaiting : awaiting.Listening where
  table := ⟨by decide, by decide, by simp [awaiting]⟩
  loop _ htask := Option.some.inj htask ▸ .reading
  beside t task ht htask := by simp [task?, awaiting, List.lookup_cons, beq_false_of_ne ht] at htask
  fresh := Nat.zero_lt_one
  emptied hover := by cases hover

/-- The response to the call that waits. -/
def reply : Message := .response (.success (.number 2) (.int 42))

/-- The response comes in two parts, and then the stream ends. -/
def served : List Action :=
  let bytes := Frame.bodyBytes reply.encode
  [.arrive (bytes.take 10), .turn readLoop, .arrive (bytes.drop 10), .turn readLoop, .endInput none,
    .turn readLoop, .turn readLoop, .turn readLoop]

theorem first_answer_decides_served :
    ((awaiting.run served).task? readLoop).isNone = true ∧ awaiting.Correlated served :=
  ⟨by decide +kernel, first_answer_decides awaiting listening_awaiting rfl served
    (by simp [served, Action.IsInbound])⟩

/-- A request comes before the response when nothing can be written any more. It is refused, the refusal
cannot be written, and the connection is failed for that before the response is read. -/
def refused : List Action :=
  [.breakOutflow,
    .arrive (Frame.bodyBytes (Message.request { id := .name "s", method := "m" }).encode
      ++ Frame.bodyBytes reply.encode),
    .endInput none, .turn readLoop, .turn 1, .turn 1, .turn 1, .turn 1, .turn readLoop,
    .turn readLoop, .turn readLoop, .turn readLoop]

/-- A request of the server does have a bearing on the calls that wait, when it cannot be answered. -/
theorem refusal_beats_reply :
    ¬ ∀ actions : List Action, (∀ a ∈ actions, a.IsInbound) →
      (awaiting.run actions).task? readLoop = none → ∀ c ∈ awaiting.shared.pending.calls,
        (awaiting.run actions).shared.pending.outcome? c.waiter
          = Inbound.firstVerdict c.id (awaiting.inbound actions) := by
  intro h
  have hover : (awaiting.run refused).task? readLoop = none :=
    Option.isNone_iff_eq_none.mp (by decide +kernel)
  have heq := h refused (by simp [refused, Action.IsInbound]) hover ⟨.number 2, "ask", 0⟩
    List.mem_cons_self
  have hclosed : (awaiting.run refused).shared.pending.outcome? ⟨.number 2, 0⟩
      = some (.error .connectionClosed) := by decide +kernel
  have hreply : Inbound.firstVerdict (.number 2) (awaiting.inbound refused) = some (.ok (.int 42)) := by
    decide +kernel
  exact absurd (hclosed.symm.trans (heq.trans hreply)) (by simp)

end Session

end LanguageClient
