import LanguageClient.Proofs.Session.Correlation
import LanguageClient.Proofs.Session.Exchanges

/-!
# LanguageClient.Proofs.Session.Answering -- every request of the server is answered once

Beside a session an account is kept of the requests that were handled (`Session.Account`). At any time the
requests of the stream are those of the account, those that tasks are about to handle and those that are
still to be read, and the responses of the account are those on the wire and those that tasks are about to
write. The order in which the tasks take their turns does not matter, since nothing is said of the order of
the account. Callers may do what they like meanwhile, as long as no write fails.
-/

namespace LanguageClient

namespace Inbound

/-- The request that an item is, if it is one. -/
def request? : Except Fault Message → Option Request
  | .ok (.request r) => some r
  | _ => none

/-- The requests among some items, up to the first item that ends the connection. -/
def requests (found : List (Except Fault Message)) : List Request :=
  (found.takeWhile fun item => !isFatal item).filterMap request?

theorem requests_cons {item : Except Fault Message} (h : isFatal item = false)
    (found : List (Except Fault Message)) :
    requests (item :: found) = (request? item).toList ++ requests found := by
  unfold requests
  rw [List.takeWhile_cons_of_pos (by rw [h]; rfl)]
  exact Session.filterMap_cons_toList request? item _

theorem requests_of_fatal {item : Except Fault Message} (h : isFatal item = true)
    (found : List (Except Fault Message)) : requests (item :: found) = [] := by
  unfold requests
  rw [List.takeWhile_cons_of_neg (by rw [h]; exact Bool.false_ne_true)]
  rfl

end Inbound

namespace Task

variable {me : TaskId} {s : Shared} {task : Task} {p : Progress}

/-! ## What the read loop does, and what the others leave to it -/

/-- The read loop takes one item off the stream. -/
theorem Steps.reads (h : Steps me s .reading p) : ∃ item rest, s.next? = some (item, rest) ∧
    p.shared.input = rest ∧ p.shared.inflow = s.inflow ∧ p.asked = Inbound.request? item ∧
    p.next = some (if Inbound.isFatal item then .terminating .ended else .reading) := by
  cases h with
  | readEnd hfound hfatal =>
    rename_i f rest
    refine ⟨_, _, hfound, rfl, rfl, rfl, ?_⟩
    cases f with
    | protocol id cause => exact absurd rfl (hfatal id cause)
    | _ => rfl
  | readRequest hfound | readResponse hfound | readNotification hfound | readBadResponse hfound
  | readStray hfound => exact ⟨_, _, hfound, rfl, rfl, rfl, rfl⟩

theorem Steps.of_not_reading (h : Steps me s task p) (hne : task ≠ .reading) :
    p.shared.input = s.input ∧ p.shared.inflow = s.inflow ∧ p.asked = none ∧ p.next ≠ some .reading := by
  have other : ∀ {next : Task}, next.effort = 0 → some next ≠ some .reading := by
    rintro next hnext heq
    rw [Option.some.inj heq] at hnext
    cases hnext
  have done : ∀ {next : Option Task}, (∀ task', next = some task' → task'.effort = 0) →
      next ≠ some .reading := by
    intro next hnext heq
    exact absurd (hnext _ heq) (by decide)
  cases h with
  | readRequest | readResponse | readNotification | readBadResponse | readStray | readEnd =>
    exact absurd rfl hne
  | taken hentry => exact ⟨rfl, rfl, rfl, other (Call.effort_entry hentry)⟩
  | unregistered => exact ⟨rfl, rfl, rfl, other (Purpose.sequel_settled _ _).effort⟩
  | left => exact ⟨rfl, rfl, rfl, other (Purpose.sequel_settled _ _).effort⟩
  | settled => exact ⟨rfl, rfl, rfl, other (Purpose.sequel_settled _ _).effort⟩
  | notFound => exact ⟨rfl, rfl, rfl, other (sequel_cancelled _).effort⟩
  | unnoticed => exact ⟨rfl, rfl, rfl, other (sequel_cancelled _).effort⟩
  | written => exact ⟨rfl, rfl, rfl, done fun _ heq => (Sending.sequel_done heq).effort⟩
  | closed => exact ⟨rfl, rfl, rfl, done fun _ heq => (Aftermath.sequel_done heq).effort⟩
  | _ => exact ⟨rfl, rfl, rfl, nofun⟩

/-- Each turn that is taken for the requests of the server leaves less to do for them. -/
theorem Steps.effort_lt (h : Steps me s task p) (hne : task ≠ .reading) (hpos : 0 < task.effort)
    (hflow : s.outflow = .flowing) : (p.next.map effort).getD 0 < task.effort := by
  have none : ∀ {task' : Task}, task'.effort = 0 → ¬ 0 < task'.effort :=
    fun hzero hpos => absurd hzero (Nat.ne_of_gt hpos)
  cases h with
  | readRequest | readResponse | readNotification | readBadResponse | readStray | readEnd =>
    exact absurd rfl hne
  | answered => exact Nat.one_lt_two
  | hung => exact Nat.zero_lt_two
  | unwritten hbroken => exact absurd hflow hbroken
  | written hflowing =>
    rename_i m d
    cases hdone : d.done { s with wire := s.wire ++ [m] } (.ok ()) with
    | none => exact hpos
    | some next =>
      show next.effort < _
      rw [(Sending.sequel_done hdone).effort]
      exact hpos
  | terminated =>
    rename_i a
    cases a with
    | ended => exact Nat.one_lt_two
    | write _ _ | handshake _ | exit _ | abandoned => exact absurd hpos (none rfl)
  | closed =>
    rename_i a
    cases a with
    | ended => exact Nat.one_pos
    | write _ _ | handshake _ | exit _ | abandoned => exact absurd hpos (none rfl)
  | _ => exact absurd hpos (none rfl)

theorem Leaves.not_reading {rest : List Task} (h : task.Leaves rest) : .reading ∉ rest :=
  fun hmem => nomatch h.remnant hmem

theorem Leaves.not_loop {rest : List Task} (h : task.Leaves rest) : ¬ task.IsLoop := by
  intro hloop
  cases hloop <;> cases h

/-- The read loop goes on as such. -/
theorem IsLoop.next (hloop : task.IsLoop) (h : Steps me s task p) {next : Task}
    (hnext : p.next = some next) : next.IsLoop := by
  cases hloop with
  | reading =>
    obtain ⟨item, rest, -, -, -, -, heq⟩ := h.reads
    rw [heq] at hnext
    cases Option.some.inj hnext
    split
    · exact .terminating
    · exact .reading
  | terminating =>
    cases h
    exact Option.some.inj hnext ▸ .closing
  | closing =>
    cases h
    cases hnext

theorem IsLoop.effort_pos (hloop : task.IsLoop) : 0 < task.effort := by
  cases hloop <;> decide

end Task

namespace Session

variable {s s' : Session} {t : TaskId} {task : Task} {p : Progress}

/-! ## The read loop among the tasks -/

/-- Nothing reads but the read loop, and its name stands for nothing else. -/
structure Attended (s : Session) : Prop where
  named : s.Named
  loop : ∀ task, (readLoop, task) ∈ s.tasks → task.IsLoop
  reader : ∀ t, (t, .reading) ∈ s.tasks → t = readLoop

theorem attended_create (options : SessionOptions) : (create options).Attended where
  named := named_create options
  loop task hmem := by
    cases List.mem_singleton.mp hmem
    exact .reading
  reader t hmem := by
    cases List.mem_singleton.mp hmem
    rfl

theorem Attended.happens (hs : s.Attended) {a : Action} (h : Happens s a s') : s'.Attended where
  named := h.named hs.named
  loop task hmem := by
    cases h.arises hmem with
    | stays here => exact hs.loop task here
    | called action new => exact absurd hs.named.loop (Nat.not_lt_of_le new)
    | steps action here step next => exact (hs.loop _ here).next step next
    | asked new => exact absurd hs.named.loop (Nat.not_lt_of_le new)
    | left action here leaves mem new => exact absurd hs.named.loop (Nat.not_lt_of_le new)
    | awaited action here => exact nomatch hs.loop _ here
  reader t hmem := by
    cases h.arises hmem with
    | stays here => exact hs.reader t here
    | steps action here step next =>
      rename_i before p
      by_cases hreading : before = .reading
      · exact hs.reader t (hreading ▸ here)
      · exact absurd next (step.of_not_reading hreading).2.2.2
    | left action here leaves mem new => exact absurd mem leaves.not_reading

/-! ## What is still to be read -/

/-- The requests that are still to be read, with those that arrive in a run. -/
def unread (s : Session) (actions : List Action) : List Request :=
  match s.task? readLoop with
  | some .reading => Inbound.requests (s.inbound actions)
  | _ => []

theorem unread_of_reading (h : s.task? readLoop = some .reading) (actions : List Action) :
    s.unread actions = Inbound.requests (s.inbound actions) := by
  unfold unread
  rw [h]

theorem unread_of_over (h : s.task? readLoop ≠ some .reading) (actions : List Action) :
    s.unread actions = [] := by
  unfold unread
  split
  · next hreading => exact absurd hreading h
  · rfl

theorem unread_congr (hplace : s'.task? readLoop = s.task? readLoop)
    (hinput : s'.shared.input = s.shared.input) (hinflow : s'.shared.inflow = s.shared.inflow)
    (actions : List Action) : s'.unread actions = s.unread actions := by
  unfold unread inbound coming failure
  rw [hplace, hinput, hinflow]

/-- What a turn takes from the requests that are to be read gets a task of its own. -/
theorem Attended.unread_turn (hs : s.Attended) (step : task.Steps t s.shared p)
    (moved : Replaced s t task p.next (p.asked.toList.map .answering) (p.shared.after t p.next) s')
    (actions : List Action) : s.unread actions = p.asked.toList ++ s'.unread actions := by
  obtain ⟨holder, hafter⟩ := p.shared.after_eq t p.next
  have hshared : s'.shared = { p.shared with documentsHolder := holder } := moved.shared.trans hafter
  have hself := moved.task?_self hs.named
  have hplace : s.task? t = some task := hs.named.task?_eq_some_iff.mpr moved.here
  by_cases hreading : task = .reading
  · subst hreading
    obtain rfl := hs.reader t moved.here
    obtain ⟨item, rest, hfound, hinput, hinflow, hasked, hnext⟩ := step.reads
    rw [hnext] at hself
    rw [unread_of_reading hplace, hasked]
    cases hfatal : Inbound.isFatal item with
    | false =>
      rw [hfatal] at hself
      have hinput' : s'.shared.input = rest := by rw [hshared, hinput]
      have hinflow' : s'.shared.inflow = s.shared.inflow := by rw [hshared, hinflow]
      rw [unread_of_reading hself, inbound_read hfound hfatal hinput' hinflow',
        Inbound.requests_cons hfatal]
    | true =>
      have hnone : Inbound.request? item = none := by
        rcases item with f | m
        · rfl
        · cases hfatal
      have hover : s'.task? readLoop ≠ some .reading := by
        rw [hself, hfatal]
        exact nofun
      obtain ⟨tail, htail⟩ := Inbound.items_head (read_of_next? hfound actions)
      unfold inbound
      rw [unread_of_over hover, htail, Inbound.requests_of_fatal hfatal, hnone]
      rfl
  · obtain ⟨hinput, hinflow, hasked, hnext⟩ := step.of_not_reading hreading
    rw [hasked, Option.toList_none, List.nil_append]
    by_cases ht : t = readLoop
    · subst ht
      have hbefore : s.task? readLoop ≠ some .reading := by
        rw [hplace]
        exact fun heq => hreading (Option.some.inj heq)
      have hover : s'.task? readLoop ≠ some .reading := by
        rw [hself]
        exact hnext
      rw [unread_of_over hbefore, unread_of_over hover]
    · have hother := moved.task?_other hs.named (Ne.symm ht) hs.named.loop
      exact (unread_congr hother (by rw [hshared, hinput]) (by rw [hshared, hinflow]) actions).symm

theorem unread_arrive (s : Session) (bytes : List UInt8) (rest : List Action) :
    (s.act (.arrive bytes)).unread rest = s.unread (.arrive bytes :: rest) := by
  have hplace : (s.act (.arrive bytes)).task? readLoop = s.task? readLoop := by
    simp only [act]
    split <;> rfl
  unfold unread
  rw [hplace, inbound_arrive]

theorem unread_endInput (s : Session) (cause : Option IoFault) (rest : List Action) :
    (s.act (.endInput cause)).unread rest = s.unread (.endInput cause :: rest) := by
  have hplace : (s.act (.endInput cause)).task? readLoop = s.task? readLoop := by
    simp only [act]
    split <;> rfl
  unfold unread
  rw [hplace, inbound_endInput]

/-- The read loop stays when a task beside it is dropped, waited for or taken away. -/
theorem Attended.unread_beside (hs : s.Attended) {stay : Option Task} {new : List Task}
    {shared : Shared} (hloop : ¬ task.IsLoop) (moved : Replaced s t task stay new shared s')
    (hshared : ∃ holder, shared = { s.shared with documentsHolder := holder })
    (actions : List Action) : s'.unread actions = s.unread actions := by
  obtain ⟨holder, rfl⟩ := hshared
  have hne : readLoop ≠ t := by
    rintro rfl
    exact hloop (hs.loop task moved.here)
  refine unread_congr (moved.task?_other hs.named hne hs.named.loop) ?_ ?_ actions
  · rw [moved.shared]
  · rw [moved.shared]

/-! ## The account -/

/-- An account of the requests of the server that were handled: with what is going on and what is still to
be read, it holds every request once, and with what is on the wire, every response once. -/
structure Account (s : Session) (registry : HandlerRegistry) (rest : List Action)
    (requests : List Request) (log : List Exchange) : Prop where
  handlers : s.shared.options.handlers = registry
  due : ∀ e ∈ log, e.IsDue registry
  called : ∀ e ∈ log, e.IsCalled registry s.shared.handled
  /-- No two requests share a call of a handler. -/
  apart : log.Pairwise fun e later =>
    (∃ handler, registry.get? e.request.method = some (.request handler)) → e.turn < later.turn
  requests : requests.Perm
    (log.map (·.request) ++ (s.places.filterMap Task.request? ++ s.unread rest))
  responses : (s.shared.wire.filterMap Message.response? ++ s.places.filterMap Task.response?).Perm
    (log.filterMap (·.response))

variable {registry : HandlerRegistry} {a : Action} {rest : List Action} {requests : List Request}
  {log : List Exchange}

/-- An account stays true while nothing happens to requests and responses. -/
theorem Account.aside (h : s.Account registry (a :: rest) requests log)
    (hshared : ∃ holder input inflow outflow clock, s'.shared = { s.shared with
      documentsHolder := holder, input := input, inflow := inflow, outflow := outflow, clock := clock })
    (hrequests : (s'.places.filterMap Task.request?).Perm (s.places.filterMap Task.request?))
    (hresponses : (s'.places.filterMap Task.response?).Perm (s.places.filterMap Task.response?))
    (hunread : s'.unread rest = s.unread (a :: rest)) : s'.Account registry rest requests log := by
  obtain ⟨holder, input, inflow, outflow, clock, hshared⟩ := hshared
  have hhandlers : s'.shared.options.handlers = registry := by rw [hshared, h.handlers]
  have hhandled : s'.shared.handled = s.shared.handled := by rw [hshared]
  have hwire : s'.shared.wire = s.shared.wire := by rw [hshared]
  exact {
    handlers := hhandlers
    due := h.due
    called := hhandled ▸ h.called
    apart := h.apart
    requests := hunread ▸ h.requests.trans ((hrequests.symm.append_right _).append_left _)
    responses := hwire ▸ (hresponses.append_left _).trans h.responses }

/-- A turn puts the request that it handles, if any, down in the account. -/
theorem Account.turn (h : s.Account registry (.turn t :: rest) requests log) (hs : s.Attended)
    (hflow : s.shared.outflow = .flowing) (step : task.Steps t s.shared p)
    (moved : Replaced s t task p.next (p.asked.toList.map .answering) (p.shared.after t p.next) s') :
    ∃ log', s'.Account registry rest requests log' := by
  obtain ⟨made, hdeals⟩ := step.deals hflow
  obtain ⟨holder, hafter⟩ := p.shared.after_eq t p.next
  have hshared : s'.shared = { p.shared with documentsHolder := holder } := moved.shared.trans hafter
  have hhandled : s'.shared.handled = p.shared.handled := by rw [hshared]
  have hwire : s'.shared.wire = p.shared.wire := by rw [hshared]
  have hunread := hs.unread_turn step moved rest
  refine ⟨log ++ made.toList, by rw [hshared, hdeals.options, h.handlers], ?_, ?_, ?_, ?_, ?_⟩
  · intro e he
    rcases List.mem_append.mp he with he | he
    · exact h.due e he
    · exact h.handlers ▸ hdeals.due e (Option.mem_toList.mp he)
  · intro e he
    rw [hhandled]
    rcases List.mem_append.mp he with he | he
    · exact (h.called e he).mono hdeals.handled
    · exact h.handlers ▸ hdeals.called e (Option.mem_toList.mp he)
  · refine List.pairwise_append.mpr ⟨h.apart, ?_, fun e he later hlater hhandler => ?_⟩
    · cases made with
      | none => exact .nil
      | some e => exact List.pairwise_singleton _ e
    · -- a call that was made before has its place among those that came before this turn
      obtain ⟨handler, hentry⟩ := hhandler
      obtain ⟨hlt, -⟩ := List.getElem?_eq_some_iff.mp (h.called e he handler hentry)
      rw [hdeals.turn later (Option.mem_toList.mp hlater)]
      exact hlt
  · obtain ⟨others, hbefore, hafter⟩ := moved.filterMap hs.named Task.request?
    have hasked : (p.asked.toList.map Task.answering).filterMap Task.request? = p.asked.toList := by
      cases p.asked <;> rfl
    have hmade : made.toList.map (·.request) = (made.map (·.request)).toList := by cases made <;> rfl
    rw [hasked] at hafter
    rw [List.perm_iff_count]
    intro r
    have htotal := List.perm_iff_count.mp h.requests r
    have hcount := List.perm_iff_count.mp hbefore r
    have hcount' := List.perm_iff_count.mp hafter r
    have hstep := congrArg (List.count r) hdeals.requests
    have hread : List.count r (s.unread (.turn t :: rest)) = _ := congrArg (List.count r) hunread
    simp only [List.map_append, List.count_append, hmade] at htotal hcount hcount' hstep hread ⊢
    omega
  · obtain ⟨others, hbefore, hafter⟩ := moved.filterMap hs.named Task.response?
    obtain ⟨new, hnew, hresponses⟩ := hdeals.responses
    have hasked : (p.asked.toList.map Task.answering).filterMap Task.response? = [] := by
      cases p.asked <;> rfl
    have hmade : made.toList.filterMap (·.response) = (made.bind (·.response)).toList := by
      cases made with
      | none => rfl
      | some e => cases hresponse : e.response <;> simp [hresponse]
    rw [hasked] at hafter
    rw [hwire, hnew, List.perm_iff_count]
    intro r
    have htotal := List.perm_iff_count.mp h.responses r
    have hcount := List.perm_iff_count.mp hbefore r
    have hcount' := List.perm_iff_count.mp hafter r
    have hstep := congrArg (List.count r) hresponses
    simp only [List.filterMap_append, List.count_append, List.count_nil, hmade] at htotal hcount hcount' hstep ⊢
    omega

/-- An account stays true when a task beside the read loop makes way for others that carry the same. -/
theorem Account.beside (h : s.Account registry (a :: rest) requests log) (hs : s.Attended)
    (hrest : s.unread (a :: rest) = s.unread rest) {stay : Option Task} {new : List Task}
    {shared : Shared} (hloop : ¬ task.IsLoop) (moved : Replaced s t task stay new shared s')
    (hshared : ∃ holder, shared = { s.shared with documentsHolder := holder })
    (hrequests : (stay.bind Task.request?).toList ++ new.filterMap Task.request?
      = task.request?.toList)
    (hresponses : (stay.bind Task.response?).toList ++ new.filterMap Task.response?
      = task.response?.toList) : s'.Account registry rest requests log := by
  have same : ∀ {α : Type} (f : Task → Option α),
      (stay.bind f).toList ++ new.filterMap f = (f task).toList →
      (s'.places.filterMap f).Perm (s.places.filterMap f) := by
    intro α f heq
    obtain ⟨others, hbefore, hafter⟩ := moved.filterMap hs.named f
    rw [← List.append_assoc, heq] at hafter
    exact hafter.trans hbefore.symm
  have hunread := hs.unread_beside hloop moved hshared rest
  obtain ⟨holder, rfl⟩ := hshared
  exact h.aside ⟨holder, _, _, _, _, moved.shared⟩ (same _ hrequests) (same _ hresponses)
    (hunread.trans hrest.symm)

/-- The account is kept whatever happens, as long as no write fails. -/
theorem Account.act (h : s.Account registry (a :: rest) requests log) (hs : s.Attended)
    (hflow : (s.act a).shared.outflow = .flowing) : ∃ log', (s.act a).Account registry rest requests log' := by
  have happened := hs.named.happens_act a
  have hbefore : s.shared.outflow = .flowing := happened.flowing hflow
  cases a with
  | turn t =>
    generalize s.act (.turn t) = s' at happened
    cases happened with
    | nothing => exact ⟨log, h.aside ⟨_, _, _, _, _, rfl⟩ (.refl _) (.refl _) rfl⟩
    | turn step moved => exact h.turn hs hbefore step moved
  | call c =>
    have hplaces : (s.act (.call c)).places = s.places ++ [.called c] := List.map_append
    have hplace : (s.act (.call c)).task? readLoop = s.task? readLoop := by
      show (s.spawn (.called c)).task? readLoop = s.task? readLoop
      rw [task?_spawn, if_neg (Nat.ne_of_lt hs.named.loop), Option.or_none]
    refine ⟨log, h.aside ⟨_, _, _, _, _, rfl⟩ ?_ ?_ (unread_congr hplace rfl rfl rest)⟩
    · rw [hplaces, List.filterMap_append]
      exact .of_eq (List.append_nil _)
    · rw [hplaces, List.filterMap_append]
      exact .of_eq (List.append_nil _)
  | drop t =>
    generalize s.act (.drop t) = s' at happened
    cases happened with
    | nothing => exact ⟨log, h.aside ⟨_, _, _, _, _, rfl⟩ (.refl _) (.refl _) rfl⟩
    | drop leaves moved =>
      have hdeals := leaves.deals
      refine ⟨log, h.beside hs rfl leaves.not_loop moved (s.shared.after_eq t none) ?_ ?_⟩
      · rw [hdeals.1, hdeals.2.1]
        rfl
      · rw [hdeals.2.2]
        rfl
  | await t =>
    generalize s.act (.await t) = s' at happened
    cases happened with
    | nothing => exact ⟨log, h.aside ⟨_, _, _, _, _, rfl⟩ (.refl _) (.refl _) rfl⟩
    | await moved =>
      rename_i w
      have hloop : ¬ (Task.finished (.ok (.waiter w))).IsLoop := nofun
      exact ⟨log, h.beside hs rfl hloop moved ⟨_, rfl⟩ rfl rfl⟩
  | collect t =>
    generalize s.act (.collect t) = s' at happened
    cases happened with
    | nothing => exact ⟨log, h.aside ⟨_, _, _, _, _, rfl⟩ (.refl _) (.refl _) rfl⟩
    | collect taken moved =>
      rename_i answer
      have hloop : ¬ (Task.finished answer).IsLoop := nofun
      exact ⟨log, h.beside hs rfl hloop moved ⟨_, rfl⟩ rfl rfl⟩
  | arrive bytes =>
    have hunread := unread_arrive s bytes rest
    generalize s.act (.arrive bytes) = s' at happened hunread
    cases happened with
    | nothing | arrive _ => exact ⟨log, h.aside ⟨_, _, _, _, _, rfl⟩ (.refl _) (.refl _) hunread⟩
  | endInput cause =>
    have hunread := unread_endInput s cause rest
    generalize s.act (.endInput cause) = s' at happened hunread
    cases happened with
    | nothing | endInput _ => exact ⟨log, h.aside ⟨_, _, _, _, _, rfl⟩ (.refl _) (.refl _) hunread⟩
  | breakOutflow =>
    generalize s.act .breakOutflow = s' at happened
    cases happened with
    | nothing | breakOutflow _ => exact ⟨log, h.aside ⟨_, _, _, _, _, rfl⟩ (.refl _) (.refl _) rfl⟩
  | pass ms => exact ⟨log, h.aside ⟨_, _, _, _, _, rfl⟩ (.refl _) (.refl _) rfl⟩

theorem flowing_run (hs : s.Named) {actions : List Action}
    (hflow : (s.run actions).shared.outflow = .flowing) : s.shared.outflow = .flowing := by
  induction actions generalizing s with
  | nil => exact hflow
  | cons a rest ih => exact (hs.happens_act a).flowing (ih (hs.act a) hflow)

theorem Attended.run (hs : s.Attended) (actions : List Action) : (s.run actions).Attended := by
  induction actions generalizing s with
  | nil => exact hs
  | cons a rest ih => exact ih (hs.happens (hs.named.happens_act a))

theorem Account.run {actions : List Action} (h : s.Account registry actions requests log) (hs : s.Attended)
    (hflow : (s.run actions).shared.outflow = .flowing) :
    ∃ log', (s.run actions).Account registry [] requests log' := by
  induction actions generalizing s log with
  | nil => exact ⟨log, h⟩
  | cons a rest ih =>
    have hs' := hs.happens (hs.named.happens_act a)
    obtain ⟨log', h'⟩ := h.act hs (flowing_run hs'.named hflow)
    exact ih h' hs' hflow

/-- Before anything has happened all requests are still to be read. -/
theorem account_create (options : SessionOptions) (actions : List Action) :
    (create options).Account options.handlers actions
      (Inbound.requests ((create options).inbound actions)) [] where
  handlers := rfl
  due := by simp
  called := by simp
  apart := .nil
  requests := .refl _
  responses := .refl _

end Session

end LanguageClient
