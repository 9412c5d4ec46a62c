import LanguageClient.Proofs.Session.Notices
import LanguageClient.Proofs.Session.Outstanding
import LanguageClient.Proofs.Session.Reading
import LanguageClient.Query

/-!
# LanguageClient.Proofs.Session.Asking -- a query from its call to its answer

A call of a query in a session that is ready takes an id, enters the table, is written, and waits
(`Booked.asks`). However long that takes and whatever else goes on meanwhile, when the read loop takes the
response under this id, the call is over after one turn more of its own (`Booked.answered`). So what a query
returns is what the result that the server has sent is read as (`Query.returns_of_read`).
-/

namespace LanguageClient

namespace Session

variable {k : Nat} {b : CallBook} {s : Session} {t : TaskId} {w : Waiter} {limit deadline : Option Nat}

/-! ## The request goes out -/

/-- A caller makes a request, and its task takes turns until the request is written. -/
def asking (t : TaskId) (method : String) (params : Option Json) (limit : Option Nat) : List Action :=
  .call (.request method params limit) :: List.replicate 4 (.turn t)

/-- An action takes one id at most. -/
theorem idsTaken_le_length (s : Session) (actions : List Action) : s.idsTaken actions ≤ actions.length := by
  induction actions generalizing s with
  | nil => exact Nat.le_refl _
  | cons a rest ih =>
    have hfirst : (s.takesId a).toNat ≤ 1 := Bool.toNat_le _
    have hrest := ih (s.act a)
    rw [idsTaken, List.length_cons]
    omega

/-- A request enters the table if the session has not terminated. -/
theorem Booked.enters (h : s.Booked k b) {id : Id} {method : String} {params : Option Json} {p : Purpose}
    (here : s.task? t = some (.registering id method params p))
    (alive : s.shared.lifecycle.phase ≠ .terminated) :
    ∃ w pending, s.shared.pending.register id method = .ok (w, pending) := by
  cases hregister : s.shared.pending.register id method with
  | ok entered => exact ⟨entered.1, entered.2, rfl⟩
  | error f => exact absurd (h.sealed.closed (h.registers here hregister).2) alive

/-- A request that is made when the session is ready is written, and its task waits for the outcome. -/
theorem Booked.asks (h : s.Booked k b) (hlocked : s.Locked) (few : k + 4 < 2 ^ 64)
    (ready : s.shared.lifecycle.phase = .ready) (writable : s.shared.outflow = .flowing) (method : String)
    (params : Option Json) (limit : Option Nat) :
    ∃ (w : Waiter) (pending : PendingCalls), s.run (asking s.nextTask method params limit)
        = { s with shared := { s.shared with
              pending, wire := s.shared.wire ++ [Message.request { id := w.id, method, params }] } }.spawn
            (.waiting w (.result limit) (limit.map (s.shared.clock + ·)))
      ∧ ∃ c ∈ pending.calls, c.waiter = w := by
  have hnamed : s.Named := h.named
  let id := s.shared.pending.allocate.1
  have htaken : (s.act (.call (.request method params limit))).act (.turn s.nextTask)
      = s.spawn (.numbering method params (.result limit)) := hlocked.act_spawned hnamed rfl (.taken rfl ready)
  -- an id is taken
  let numbered : Session := { s with shared := { s.shared with pending := s.shared.pending.allocate.2 } }
  have hnumbered : numbered.Named := ⟨hnamed.distinct, hnamed.given, hnamed.loop⟩
  have hentering : (s.spawn (.numbering method params (.result limit))).act (.turn s.nextTask)
      = numbered.spawn (.registering id method params (.result limit)) :=
    hlocked.act_begun hnamed rfl .numbered rfl
  -- the request enters the table
  have hregister : ∃ w pending, numbered.shared.pending.register id method = .ok (w, pending) := by
    let begun : List Action := [.call (.request method params limit), .turn s.nextTask, .turn s.nextTask]
    have hrun : s.run begun = numbered.spawn (.registering id method params (.result limit)) := by
      show ((s.act (.call (.request method params limit))).act (.turn s.nextTask)).act (.turn _) = _
      rw [htaken, hentering]
    have htakes : s.idsTaken begun ≤ 3 := s.idsTaken_le_length begun
    have hbooked := h.run begun (by omega)
    rw [hrun] at hbooked
    refine hbooked.enters (task?_spawn_self hnumbered _) ?_
    show s.shared.lifecycle.phase ≠ .terminated
    rw [ready]
    decide
  obtain ⟨w, pending, hregister⟩ := hregister
  obtain ⟨-, hw, hpending⟩ := PendingCalls.of_register hregister
  let entered : Session := { s with shared := { s.shared with pending } }
  have hentered : entered.Named := ⟨hnamed.distinct, hnamed.given, hnamed.loop⟩
  let r : Request := { id, method, params }
  have hwriting : (numbered.spawn (.registering id method params (.result limit))).act (.turn s.nextTask)
      = entered.spawn (.writing (.request r) (.request w (.result limit))) :=
    Locked.act_begun (s := numbered) hlocked hnumbered rfl (.registered hregister) rfl
  -- and is written
  have hwritten : (entered.spawn (.writing (.request r) (.request w (.result limit)))).act (.turn s.nextTask) = _ :=
    Locked.act_begun (s := entered) hlocked hentered rfl (.written writable) rfl
  refine ⟨w, pending, ?_, ?_⟩
  · show ((((s.act (.call (.request method params limit))).act (.turn s.nextTask)).act (.turn _)).act
      (.turn _)).act (.turn _) = _
    rw [htaken, hentering, hwriting, hwritten, hw]
    rfl
  · rw [hpending, hw]
    exact ⟨_, List.mem_append_right _ List.mem_cons_self, rfl⟩

/-! ## The response comes in -/

/-- The waiter of an entry finds what the response to it says. -/
theorem outcome?_resolve {table : PendingCalls} (sound : table.Sound) (hentry : ∃ c ∈ table.calls, c.waiter = w)
    {r : Response} (hid : r.id = some w.id) :
    (table.resolve r).2.outcome? w = some (PendingCalls.outcomeOf r) := by
  obtain ⟨c, hc, rfl⟩ := hentry
  have hresolve : table.resolve r = table.settle c.waiter.id (PendingCalls.outcomeOf r) := by
    simp only [PendingCalls.resolve, hid]
  rw [hresolve, PendingCalls.outcome?_settle sound, sound.outcome?_waiter hc, Option.none_or,
    if_pos ⟨c, hc, rfl, rfl⟩]

/-- The entry of a request that is outstanding is that of the call that waits for it. -/
theorem Booked.entry_of_waiting (h : s.Booked k b)
    (here : s.task? t = some (.waiting w (.result limit) deadline)) (hout : s.Outstanding w.id) :
    ∃ c ∈ s.shared.pending.calls, c.waiter = w := by
  obtain ⟨c, hc, hid⟩ := hout
  have hw : w ∈ b.issued := h.owned.issued w (List.mem_filterMap.mpr ⟨_, h.mem_places here, rfl⟩)
  exact ⟨c, hc, h.waiter_eq (h.issued_of_entry hc) hw hid⟩

/-- A call that waits is over with what the response says, after a turn of the read loop, which takes the
response, and one of its own. -/
theorem Booked.answered (h : s.Booked k b) (few : k + 1 < 2 ^ 64)
    (here : s.task? t = some (.waiting w (.result limit) deadline))
    (hentry : ∃ c ∈ s.shared.pending.calls, c.waiter = w) {r : Response} {left : List UInt8}
    (took : s.took? (.turn readLoop) = some (.ok (.response r), left)) (hid : r.id = some w.id) :
    (s.run [.turn readLoop, .turn t]).answer? t = some ((PendingCalls.outcomeOf r).map .result) := by
  have reading : s.task? readLoop = some .reading := by
    by_contra hother
    cases (took?_of_not_reading hother).symm.trans took
  have step : Task.Steps readLoop s.shared .reading _ :=
    .readResponse ((took?_of_reading reading).symm.trans took)
  have moved := h.named.replaced_turn (h.named.task?_eq_some_iff.mp reading) step.step_eq
  have hbooked := h.act few (.turn readLoop)
  have hother : t ≠ readLoop := by
    rintro rfl
    cases here.symm.trans reading
  have hstays : (s.act (.turn readLoop)).task? t = some (.waiting w (.result limit) deadline) :=
    hbooked.named.task?_eq_some_iff.mpr (moved.mem_other (h.named.task?_eq_some_iff.mp here) hother)
  have houtcome : (s.act (.turn readLoop)).shared.pending.outcome? w = some (PendingCalls.outcomeOf r) := by
    rw [h.pending_turn reading step]
    exact outcome?_resolve h.tableSound hentry hid
  have hover := hbooked.told hstays houtcome
  show ((s.act (.turn readLoop)).act (.turn t)).answer? t = _
  rw [answer?, hover]
  rfl

end Session

/-! ## What a query returns -/

namespace Query

open Session

variable {α : Type}

/-- A query returns `a` when the server answers it with the result `j`: from every session that is ready its
request goes out, and whatever happens then, as long as the request is outstanding and its caller waits, the
caller has a result that reads as `a` once the read loop has taken the response with `j`. -/
def Returns (q : Query α) (j : Json) (a : α) : Prop :=
  ∀ (options : SessionOptions) (before : List Action) (limit : Option Nat),
    (create options).idsTaken before + 4 < 2 ^ 64 →
    ((create options).run before).shared.lifecycle.phase = .ready →
    ((create options).run before).shared.outflow = .flowing →
    let t := ((create options).run before).nextTask
    let asked := before ++ asking t q.method q.params limit
    ∃ (w : Waiter) (deadline : Option Nat),
      ((create options).run asked).shared.wire = ((create options).run before).shared.wire
        ++ [.request { id := w.id, method := q.method, params := q.params }]
      ∧ ((create options).run asked).task? t = some (.waiting w (.result limit) deadline)
      ∧ ((create options).run asked).Outstanding w.id
      ∧ ∀ (meanwhile : List Action) (r : Response) (left : List UInt8),
        (create options).idsTaken (asked ++ meanwhile) + 1 < 2 ^ 64 →
        ((create options).run (asked ++ meanwhile)).task? t = some (.waiting w (.result limit) deadline) →
        ((create options).run (asked ++ meanwhile)).Outstanding w.id →
        ((create options).run (asked ++ meanwhile)).took? (.turn readLoop) = some (.ok (.response r), left) →
        r.id = some w.id → r.outcome = .ok j →
        ∃ outcome, ((create options).run (asked ++ meanwhile ++ [.turn readLoop, .turn t])).answer? t
            = some (outcome.map .result)
          ∧ q.answer outcome = .ok a

/-- A query returns what the result of the server reads as. -/
theorem returns_of_read {q : Query α} {j : Json} {a : α} (h : q.read j = .ok a) : q.Returns j a := by
  intro options before limit few ready writable
  have hbooked := booked_run options before (by omega)
  obtain ⟨w, pending, hasked, c, hc, rfl⟩ :=
    hbooked.asks (locked_run options before) few ready writable q.method q.params limit
  rw [← run_append] at hasked
  have hnamed := (named_create options).run before
  refine ⟨c.waiter, limit.map (((create options).run before).shared.clock + ·), ?_, ?_, ?_, ?_⟩
  · rw [hasked]
    rfl
  · rw [hasked]
    exact task?_spawn_self ⟨hnamed.distinct, hnamed.given, hnamed.loop⟩ _
  · rw [hasked]
    exact ⟨c, hc, rfl⟩
  · intro meanwhile r left hfew here hout took hid houtcome
    have hlater := booked_run options _ hfew
    refine ⟨PendingCalls.outcomeOf r, ?_, ?_⟩
    · rw [run_append]
      exact hlater.answered hfew here (hlater.entry_of_waiting here hout) took hid
    · have hresult : PendingCalls.outcomeOf r = .ok j := by
        simp only [PendingCalls.outcomeOf, houtcome]
      simp only [hresult, answer, h]

end Query

end LanguageClient
