import LanguageClient.Proofs.Session.Places

/-!
# LanguageClient.Proofs.Session.Exchanges -- requests of the server and their responses

`Exchange.IsDue` says which response is due to a request: what its handler comes to, under the id of the
request. `Task.Deals` says what a step makes of the requests and responses that tasks carry: none is lost,
and a response comes from nowhere but a request. `Steps.deals` shows this of each step that is taken while
no write fails.
-/

namespace LanguageClient

/-! ## What is due to a request -/

/-- A request of the server that was handled. -/
structure Exchange where
  request : Request
  /-- How many calls of handlers came before. -/
  turn : Nat
  /-- The response, unless the handler hangs. -/
  response : Option Response

namespace Exchange

/-- The response is what the handler of the request comes to, under the id of the request. -/
inductive IsDue (registry : HandlerRegistry) : Exchange → Prop
  | result {r : Request} {turn : Nat} {handler : RequestHandler} {j : Json}
      (entry : registry.get? r.method = some (.request handler))
      (ending : (handler turn r.params).ending = .answered (.ok j)) :
      IsDue registry ⟨r, turn, some { id := some r.id, result := some j }⟩
  | error {r : Request} {turn : Nat} {handler : RequestHandler} {e : ResponseError}
      (entry : registry.get? r.method = some (.request handler))
      (ending : (handler turn r.params).ending = .answered (.error e)) :
      IsDue registry ⟨r, turn, some { id := some r.id, error := some e }⟩
  | panicked {r : Request} {turn : Nat} {handler : RequestHandler}
      (entry : registry.get? r.method = some (.request handler))
      (ending : (handler turn r.params).ending = .panicked) :
      IsDue registry ⟨r, turn, some {
        id := some r.id
        error := some { code := -32603, message := s!"Handler for {r.method} panicked" } }⟩
  | hanging {r : Request} {turn : Nat} {handler : RequestHandler}
      (entry : registry.get? r.method = some (.request handler))
      (ending : (handler turn r.params).ending = .hanging) : IsDue registry ⟨r, turn, none⟩
  /-- The method has no entry, or only handlers of notifications. -/
  | unhandled {r : Request} {turn : Nat}
      (entry : ∀ handler, registry.get? r.method ≠ some (.request handler)) :
      IsDue registry ⟨r, turn, some {
        id := some r.id
        error := some { code := -32601, message := s!"Unhandled method {r.method}" } }⟩

/-- If the method has a handler, it was called with the params of the request. -/
def IsCalled (registry : HandlerRegistry) (handled : List HandlerCall) (e : Exchange) : Prop :=
  ∀ handler, registry.get? e.request.method = some (.request handler) → handled[e.turn]? =
    some ⟨e.request.method, none, e.request.params, (handler e.turn e.request.params).events,
      (handler e.turn e.request.params).ending.isPanicked⟩

end Exchange

theorem HandlerRegistry.requestHandler?_eq_some_iff {registry : HandlerRegistry} {method : String}
    {handler : RequestHandler} :
    registry.requestHandler? method = some handler ↔ registry.get? method = some (.request handler) := by
  unfold requestHandler?
  split
  · next found hget => simp [hget]
  · next hnone =>
    constructor
    · intro h
      cases h
    · exact fun h => absurd h (hnone handler)

/-- The answer to a request is what is due to it. -/
theorem Exchange.isDue_answer (s : Shared) (r : Request) :
    IsDue s.options.handlers ⟨r, s.handled.length, (s.answer r).1⟩ := by
  unfold Shared.answer
  cases hhandler : s.options.handlers.requestHandler? r.method with
  | none =>
    refine .unhandled fun handler hentry => ?_
    rw [HandlerRegistry.requestHandler?_eq_some_iff.mpr hentry] at hhandler
    cases hhandler
  | some handler =>
    have hentry := HandlerRegistry.requestHandler?_eq_some_iff.mp hhandler
    simp only [Shared.callHandler]
    split
    · next j hending => exact .result hentry hending
    · next e hending => exact .error hentry hending
    · next hending => exact .panicked hentry hending
    · next hending => exact .hanging hentry hending

theorem Exchange.isCalled_answer (s : Shared) (r : Request) :
    IsCalled s.options.handlers (s.answer r).2.handled ⟨r, s.handled.length, (s.answer r).1⟩ := by
  intro handler hentry
  unfold Shared.answer
  rw [HandlerRegistry.requestHandler?_eq_some_iff.mpr hentry]
  simp only [Shared.callHandler]
  split <;> simp

theorem Exchange.IsCalled.mono {registry : HandlerRegistry} {handled handled' : List HandlerCall}
    {e : Exchange} (h : e.IsCalled registry handled) (hle : handled <+: handled') :
    e.IsCalled registry handled' := by
  intro handler hentry
  obtain ⟨more, rfl⟩ := hle
  obtain ⟨hlt, -⟩ := List.getElem?_eq_some_iff.mp (h handler hentry)
  rw [List.getElem?_append_left hlt]
  exact h handler hentry

/-! ## What a step does to requests and responses -/

/-- The response that a message is, if it is one. -/
def Message.response? : Message → Option Response
  | .response r => some r
  | _ => none

namespace Task

/-- The request that a task is about to handle. -/
def request? : Task → Option Request
  | .answering r => some r
  | _ => none

/-- The response that a task is about to write. -/
def response? : Task → Option Response
  | .writing m _ => m.response?
  | _ => none

/-- How much is left to do at a place for the requests of the server, apart from the bytes that are not
yet read. It goes down with each turn of a task that has something to do for them. -/
def effort : Task → Nat
  | .reading => 3
  | .answering _ | .terminating .ended => 2
  | .writing (.response _) _ | .closing .ended => 1
  | _ => 0

/-- A task that carries neither a request of the server nor a response. -/
def IsAside (task : Task) : Prop := task.request? = none ∧ task.response? = none

theorem aside_of_effort {task : Task} (h : task.effort = 0) : task.IsAside := by
  cases task with
  | writing m d =>
    cases m with
    | response r => cases h
    | request r | notification n => exact ⟨rfl, rfl⟩
  | answering r => cases h
  | _ => exact ⟨rfl, rfl⟩

theorem IsSequel.effort {task : Task} (h : task.IsSequel) : task.effort = 0 := by
  cases h <;> rfl

end Task

theorem Call.effort_entry {c : Call} {task : Task} (h : c.entry? = some task) : task.effort = 0 := by
  cases c <;> cases h <;> rfl

namespace Task

/-- What a step makes of a request of the server, if it handles one, and of the responses: no request is
lost, and no response comes from nowhere. -/
structure Deals (s : Shared) (task : Task) (p : Progress) (made : Option Exchange) : Prop where
  options : p.shared.options = s.options
  handled : s.handled <+: p.shared.handled
  turn : ∀ e ∈ made, e.turn = s.handled.length
  due : ∀ e ∈ made, e.IsDue s.options.handlers
  called : ∀ e ∈ made, e.IsCalled s.options.handlers p.shared.handled
  requests : task.request?.toList
    = (made.map (·.request)).toList ++ (p.next.bind Task.request?).toList
  responses : ∃ new, p.shared.wire = s.wire ++ new ∧
    task.response?.toList ++ (made.bind (·.response)).toList
      = new.filterMap Message.response? ++ (p.next.bind Task.response?).toList

variable {me : TaskId} {s : Shared} {task : Task} {p : Progress}

/-- A step that handles no request, and may write a message. -/
theorem Deals.of_aside {s' : Shared} {next asked} {new : List Message}
    (hoptions : s'.options = s.options) (hwire : s'.wire = s.wire ++ new)
    (hhandled : s.handled <+: s'.handled) (hrequest : task.request? = none)
    (hresponse : task.response?.toList = new.filterMap Message.response?)
    (hnext : ∀ task', next = some task' → task'.IsAside) : Deals s task ⟨s', next, asked⟩ none where
  options := hoptions
  handled := hhandled
  turn e he := absurd he (Option.not_mem_none e)
  due e he := absurd he (Option.not_mem_none e)
  called e he := absurd he (Option.not_mem_none e)
  requests := by
    cases next with
    | none => simp [hrequest]
    | some task' => simp [hrequest, (hnext task' rfl).1]
  responses := by
    refine ⟨new, hwire, ?_⟩
    cases next with
    | none => simp [hresponse]
    | some task' => simp [hresponse, (hnext task' rfl).2]

theorem Deals.handles {r : Request} {s' : Shared} {response : Option Response} {next : Task}
    (hanswer : s.answer r = (response, s')) (hrequest : next.request? = none)
    (hresponse : next.response? = response) :
    Deals s (.answering r) ⟨s', some next, none⟩ (some ⟨r, s.handled.length, response⟩) := by
  obtain ⟨calls, rfl⟩ := Shared.answer_eq hanswer
  have hdue := Exchange.isDue_answer s r
  have hcalled := Exchange.isCalled_answer s r
  rw [hanswer] at hdue hcalled
  exact {
    options := rfl
    handled := List.prefix_append _ _
    turn := fun e he => Option.mem_some.mp he ▸ rfl
    due := fun e he => Option.mem_some.mp he ▸ hdue
    called := fun e he => Option.mem_some.mp he ▸ hcalled
    requests := by
      show [r] = [r] ++ next.request?.toList
      rw [hrequest]
      rfl
    responses := by
      refine ⟨[], (List.append_nil _).symm, ?_⟩
      show response.toList = next.response?.toList
      rw [hresponse] }

/-- As long as nothing has failed, each step deals with what it finds. -/
theorem Steps.deals (h : Steps me s task p) (hflow : s.outflow = .flowing) :
    ∃ made, Deals s task p made := by
  have aside : ∀ {s' : Shared} {next asked}, s'.options = s.options → s'.wire = s.wire →
      s.handled <+: s'.handled → task.IsAside → (∀ task', next = some task' → task'.IsAside) →
      ∃ made, Deals s task ⟨s', next, asked⟩ made := by
    intro s' next asked hoptions hwire hhandled htask hnext
    have hnew : s'.wire = s.wire ++ [] := hwire.trans (List.append_nil _).symm
    have hresponse : task.response?.toList = [].filterMap Message.response? := by
      rw [htask.2]
      rfl
    exact ⟨none, .of_aside hoptions hnew hhandled htask.1 hresponse hnext⟩
  have one : ∀ {next : Task}, next.effort = 0 → ∀ task', some next = some task' → task'.IsAside :=
    fun hnext _ heq => Option.some.inj heq ▸ aside_of_effort hnext
  have loop : ∀ task', some Task.reading = some task' → task'.IsAside :=
    fun _ heq => Option.some.inj heq ▸ ⟨rfl, rfl⟩
  cases h with
  | answered hanswer => exact ⟨_, .handles hanswer rfl rfl⟩
  | hung hanswer => exact ⟨_, .handles hanswer rfl rfl⟩
  | written hflowing =>
    rename_i m d
    have hresponse : m.response?.toList = [m].filterMap Message.response? := by cases m <;> rfl
    exact ⟨none, .of_aside rfl rfl List.prefix_rfl rfl hresponse
      fun _ heq => aside_of_effort (Sending.sequel_done heq).effort⟩
  | unwritten hbroken => exact absurd hflow hbroken
  | taken hentry => exact aside rfl rfl List.prefix_rfl ⟨rfl, rfl⟩ (one (Call.effort_entry hentry))
  | unregistered => exact aside rfl rfl List.prefix_rfl ⟨rfl, rfl⟩ (one (Purpose.sequel_settled _ _).effort)
  | left => exact aside rfl rfl List.prefix_rfl ⟨rfl, rfl⟩ (one (Purpose.sequel_settled _ _).effort)
  | settled => exact aside rfl rfl List.prefix_rfl ⟨rfl, rfl⟩ (one (Purpose.sequel_settled _ _).effort)
  | notFound => exact aside rfl rfl List.prefix_rfl ⟨rfl, rfl⟩ (one (sequel_cancelled _).effort)
  | unnoticed => exact aside rfl rfl List.prefix_rfl ⟨rfl, rfl⟩ (one (sequel_cancelled _).effort)
  | closed =>
    exact aside rfl rfl List.prefix_rfl ⟨rfl, rfl⟩
      fun _ heq => aside_of_effort (Aftermath.sequel_done heq).effort
  | outflowClosed _ _ => exact aside rfl rfl List.prefix_rfl ⟨rfl, rfl⟩ (one rfl)
  | readRequest | readResponse | readBadResponse | readStray =>
    exact aside rfl rfl List.prefix_rfl ⟨rfl, rfl⟩ loop
  | readEnd =>
    exact aside rfl rfl List.prefix_rfl ⟨rfl, rfl⟩ fun _ heq => Option.some.inj heq ▸ ⟨rfl, rfl⟩
  | readNotification => exact aside rfl rfl (List.prefix_append _ _) ⟨rfl, rfl⟩ loop
  | abandoned =>
    exact aside rfl rfl List.prefix_rfl ⟨rfl, rfl⟩ fun _ heq => (Option.some_ne_none _ heq.symm).elim
  | terminated =>
    exact aside rfl rfl List.prefix_rfl ⟨rfl, rfl⟩ fun _ heq => Option.some.inj heq ▸ ⟨rfl, rfl⟩
  | _ => exact aside rfl rfl List.prefix_rfl ⟨rfl, rfl⟩ (one rfl)

/-- What is left of a call that is dropped: a response is written all the same. -/
theorem Leaves.deals {rest : List Task} (h : task.Leaves rest) :
    task.request? = none ∧ rest.filterMap request? = [] ∧
      rest.filterMap response? = task.response?.toList := by
  have hafter : ∀ d : Sending, ∀ task' ∈ afterWrite d, task'.IsAside := by
    intro d task' hmem
    rcases mem_afterWrite hmem with ⟨w, p, rfl, -⟩ | ⟨result, rfl, -⟩
    · exact ⟨rfl, rfl⟩
    · exact ⟨rfl, rfl⟩
  have hrequests : ∀ d, (afterWrite d).filterMap request? = [] :=
    fun d => List.filterMap_eq_nil_iff.mpr fun task' hmem => (hafter d task' hmem).1
  have hresponses : ∀ d, (afterWrite d).filterMap response? = [] :=
    fun d => List.filterMap_eq_nil_iff.mpr fun task' hmem => (hafter d task' hmem).2
  cases h with
  | writing =>
    rename_i m d hloose
    refine ⟨rfl, hrequests d, ?_⟩
    have hcons : ([Task.writing m .loose] ++ afterWrite d).filterMap response? = m.response?.toList := by
      rw [List.filterMap_append, hresponses d]
      cases m <;> rfl
    exact hcons
  | terminating | closing => exact ⟨rfl, hrequests _, hresponses _⟩
  | called | locking | closingOutflow | waiting | started | finished => exact ⟨rfl, rfl, rfl⟩

end Task

end LanguageClient
