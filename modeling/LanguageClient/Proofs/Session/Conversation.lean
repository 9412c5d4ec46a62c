import LanguageClient.Proofs.Session.Alone
import LanguageClient.Proofs.Session.Parting
import LanguageClient.Proofs.Session.Settlement
import LanguageClient.Query

/-!
# LanguageClient.Proofs.Session.Conversation -- the grammar of a session

What a client says of its own in a session whose calls do not overlap goes by a grammar: a lone `exit`, or the
opening, requests and notifications of the callers, `shutdown` and `exit`, broken off anywhere. It departs from
it in one way only (`conversation_in_turn`): when the connection fails while a call is between the change of
the phase and the table, the table refuses the last request, and `exit` is written without it
(`shutdown_missed_or_repeated`). Else it does not matter what the server does, which turns are taken and where
writing fails.
-/

namespace LanguageClient.Session

variable {cut : Prop} {s : Session} {t : TaskId} {a : Action}

/-! ## Runs in turn -/

/-- At some turn of a run the table of calls refuses the request that ends the session. -/
def RefusesShutdown (s : Session) (actions : List Action) : Prop :=
  ∃ before a later, actions = before ++ a :: later ∧ (s.run before).Refuses a

theorem RefusesShutdown.here {rest : List Action} (h : s.Refuses a) : s.RefusesShutdown (a :: rest) :=
  ⟨[], a, rest, rfl, h⟩

theorem RefusesShutdown.later {rest : List Action} (h : (s.act a).RefusesShutdown rest) :
    s.RefusesShutdown (a :: rest) := by
  obtain ⟨before, b, later, rfl, hrefuses⟩ := h
  exact ⟨a :: before, b, later, rfl, hrefuses⟩

/-- What a session keeps whose calls do not overlap. A condition tells whether the table has refused the
request that ends the session. -/
structure Kept (cut : Prop) (s : Session) : Prop where
  named : s.Named
  sealed : s.Sealed
  orderly : s.Orderly cut

theorem kept_create (options : SessionOptions) : (create options).Kept cut :=
  ⟨named_create options, sealed_create options, orderly_create options⟩

theorem Kept.act (h : s.Kept cut) (admits : s.Admits a) (hcut : s.Refuses a → cut) : (s.act a).Kept cut := by
  have happened := h.named.happens_act a
  exact {
    named := happened.named h.named
    sealed := h.sealed.happens happened
    orderly := h.orderly.happens h.named happened admits hcut }

theorem Kept.run (h : s.Kept cut) {actions : List Action} (hturn : s.InTurn actions)
    (hcut : s.RefusesShutdown actions → cut) : (s.run actions).Kept cut := by
  induction actions generalizing s with
  | nil => exact h
  | cons a rest ih =>
    obtain ⟨admits, hrest⟩ := hturn
    exact ih (h.act admits fun hrefuses => hcut (.here hrefuses)) hrest fun hlater => hcut hlater.later

theorem inTurn_append {before later : List Action} :
    s.InTurn (before ++ later) ↔ s.InTurn before ∧ (s.run before).InTurn later := by
  induction before generalizing s with
  | nil => exact .of_eq (true_and _).symm
  | cons a rest ih =>
    show s.Admits a ∧ (s.act a).InTurn (rest ++ later) ↔
      (s.Admits a ∧ (s.act a).InTurn rest) ∧ ((s.act a).run rest).InTurn later
    rw [ih, and_assoc]

theorem Departs.run (h : s.Departs t) (hs : s.Kept True) (ht : t < s.nextTask) {actions : List Action}
    (hturn : s.InTurn actions) : (s.run actions).Departs t := by
  induction actions generalizing s with
  | nil => exact h
  | cons a rest ih =>
    obtain ⟨admits, hrest⟩ := hturn
    have happened := hs.named.happens_act a
    refine ih (h.happens hs.named hs.sealed hs.orderly ht happened)
      (hs.act admits fun _ => trivial) ?_ hrest
    exact Nat.lt_of_lt_of_le ht happened.nextTask_le

/-! ## The grammar -/

/-- What a client says of its own in a run. -/
structure Conversational (options : SessionOptions) (actions : List Action) : Prop where
  /-- The client goes by the grammar, however turns are taken. It departs from it in one way only: the table
  has refused the last request, and `exit` comes without it. -/
  grammar : IsConversation ((create options).run actions).shared.sent ∨
    IsCutShort ((create options).run actions).shared.sent ∧ (create options).RefusesShutdown actions
  /-- The table refuses the last request because the connection has failed since the session left `ready`, as
  long as the ids are not used up. -/
  refused : ∀ before a later, actions = before ++ a :: later → ((create options).run before).Refuses a →
    (create options).idsTaken before + 1 < 2 ^ 64 →
    ((create options).run before).shared.pending.closed = true ∧
      ((create options).run before).shared.lifecycle.phase = .terminated
  /-- The messages by which sessions begin and end are said once at most. -/
  once : ∀ method ∈ reserved, (((create options).run actions).shared.sent.map Part.method).count method ≤ 1
  /-- Nothing comes before the opening but a lone `exit`. -/
  opening : ((create options).run actions).shared.sent = [.exit] ∨
    ((create options).run actions).shared.sent <+: [.handshake, .initialized] ∨
    [.handshake, .initialized] <+: ((create options).run actions).shared.sent
  /-- When a call has shut the session down, whatever it yields, the session has terminated, and nothing is
  said any more, even if calls overlap from then on. -/
  ended : ∀ before later, actions = before ++ .call .shutdown :: later →
    (((create options).run before).shared.lifecycle.phase = .uninitialized ∨
      ((create options).run before).shared.lifecycle.phase = .ready) →
    (((create options).run actions).answer? ((create options).run before).nextTask).isSome = true →
    ((create options).run actions).shared.lifecycle.phase = .terminated ∧
      ∀ more, ((create options).run (actions ++ more)).shared.sent
        = ((create options).run actions).shared.sent

/-- **A session whose calls do not overlap goes by the grammar**, whatever the server does. -/
theorem conversation_in_turn (options : SessionOptions) (actions : List Action)
    (hturn : (create options).InTurn actions) : Conversational options actions := by
  have hkept : ((create options).run actions).Kept ((create options).RefusesShutdown actions) :=
    (kept_create options).run hturn id
  have hallowed := hkept.orderly.allowed
  exact {
    grammar := hallowed.imp_right And.symm
    refused := by
      rintro before a later - ⟨t, task, -, here, id, method, params, f, rfl, hrefused⟩ few
      have hbooked := booked_run options before few
      have hclosed := (hbooked.registers (hbooked.named.task?_eq_some_iff.mpr here) hrefused).2
      exact ⟨hclosed, hbooked.sealed.closed hclosed⟩
    once := fun method hmethod => hallowed.once hmethod
    opening := hallowed.opening
    ended := by
      rintro before later rfl hphase hanswer
      -- from its first step on the call is on its way to the end
      obtain ⟨hbefore, admits, hlater⟩ := inTurn_append.mp hturn
      have hnamed := (named_create options).run before
      have hcalled : (((create options).run before).act (.call .shutdown)).Kept True :=
        ((kept_create options).run hbefore fun _ => trivial).act admits fun _ => trivial
      have hdeparts := (departs_call hnamed hphase).run hcalled (Nat.lt_succ_self _) hlater
      rw [run_append] at hanswer ⊢
      have hmute : ((((create options).run before).act (.call .shutdown)).run later).Mute :=
        hdeparts.mute (hcalled.named.run later) hanswer
      refine ⟨hmute.phase, fun more => ?_⟩
      rw [run_append, run_append]
      exact hmute.run (hcalled.named.run later) more }

/-! ### A whole session -/

/-- A handshake, a notification that the caller sends, and the end, each answered by the server. -/
def wholeSession : List Action :=
  let answer (id : Id) (result : Json) :=
    Action.arrive (Frame.bodyBytes (Message.encode (.response (.success id result))))
  let turns (t : TaskId) (count : Nat) := List.replicate count (Action.turn t)
  .call .handshake :: turns 1 4 ++
    answer (.number 1) (.object [("capabilities", .object [])]) :: .turn readLoop ::
    turns 1 4 ++ .collect 1 ::
    .call (.notify "workspace/ping" none) :: turns 2 2 ++ .collect 2 ::
    .call .shutdown :: turns 3 5 ++
    answer (.number 2) .null :: .turn readLoop :: turns 3 5

/-- All of it is said, and nothing else. -/
theorem conversation_whole :
    ((create {}).run wholeSession).shared.sent
        = [.handshake, .initialized, .notification "workspace/ping", .shutdown, .exit] ∧
      Conversational {} wholeSession :=
  ⟨by decide +kernel, conversation_in_turn {} wholeSession (by decide +kernel)⟩

/-! ### Sessions that depart from the grammar -/

/-- The end of the stream is read while a call that shuts the session down is on its way to the table. -/
def overtakenShutdown : List Action :=
  let turns (t : TaskId) (count : Nat) := List.replicate count (Action.turn t)
  wholeSession.take 12 ++ .call .shutdown :: turns 2 3 ++ .endInput none :: turns readLoop 3 ++ turns 2 6

/-- A caller asks the server to shut down by the query that goes with the method, and then shuts the session
down. -/
def repeatedShutdown : List Action :=
  let answer (id : Id) :=
    Action.arrive (Frame.bodyBytes (Message.encode (.response (.success id .null))))
  let turns (t : TaskId) (count : Nat) := List.replicate count (Action.turn t)
  let query := Method.shutdown.query ()
  wholeSession.take 12 ++ .call (.request query.method query.params none) :: turns 2 4 ++
    answer (.number 2) :: .turn readLoop :: .turn 2 :: .collect 2 ::
    .call .shutdown :: turns 3 5 ++ answer (.number 3) :: .turn readLoop :: turns 3 5

/-- A session whose calls do not overlap may end without a `shutdown`; and with two, if a caller may ask the
server to shut down by a query of its own. -/
theorem shutdown_missed_or_repeated :
    ¬ (∀ actions, (create {}).InTurn actions → IsConversation ((create {}).run actions).shared.sent)
      ∧ ¬ (∀ actions, (create {}).OneByOne actions →
        (∀ c, .call c ∈ actions → c.IsOrdinary
          ∨ c = .request (Method.shutdown.query ()).method (Method.shutdown.query ()).params none) →
        IsConversation ((create {}).run actions).shared.sent) := by
  refine ⟨fun h => ?_, fun h => ?_⟩
  · have hsent : ((create {}).run overtakenShutdown).shared.sent = [.handshake, .initialized, .exit] := by
      decide +kernel
    have hshort : IsCutShort ((create {}).run overtakenShutdown).shared.sent :=
      hsent ▸ ⟨[], List.forall_mem_nil _, rfl⟩
    exact hshort.not_conversation (h overtakenShutdown (by decide +kernel))
  · have hsent : ((create {}).run repeatedShutdown).shared.sent
        = [.handshake, .initialized, .shutdown, .shutdown, .exit] := by
      decide +kernel
    have hconversation := h repeatedShutdown (by decide +kernel) ?_
    · have hallowed : IsAllowed False ((create {}).run repeatedShutdown).shared.sent := .inl hconversation
      have honce := hallowed.once (show "shutdown" ∈ reserved by decide)
      rw [hsent] at honce
      exact absurd honce (by decide)
    · intro c hc
      have hcalls : c = .handshake ∨ c = .request (Method.shutdown.query ()).method
          (Method.shutdown.query ()).params none ∨ c = .shutdown := by
        simpa [repeatedShutdown, wholeSession] using hc
      rcases hcalls with rfl | hquery | rfl
      · exact .inl trivial
      · exact .inr hquery
      · exact .inl trivial

end LanguageClient.Session
