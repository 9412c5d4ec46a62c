import LanguageClient.Proofs.Calls.Table
import LanguageClient.Proofs.Framing.Agreement

/-!
# LanguageClient.Proofs.Session.Inbound -- what comes in, and what it means to a waiting call

`Inbound.items` are the messages and faults that a stream of bytes holds. What one of them means to the
call of an id is `Inbound.verdict?`, and the first that means something to it decides it. So items that
mean nothing to a call can be put anywhere, and two neighbours that are answers under different ids can
change places (`firstVerdict_swap`).
-/

namespace LanguageClient

namespace Inbound

/-! ## The items of a stream -/

/-- The messages and faults that some bytes hold, up to the end of the stream. -/
def items (failure : Option IoFault) (bytes : List UInt8) : List (Except Fault Message) :=
  readMany (Message.read failure) (bytes.length + 1) bytes

/-- Reading longer finds no more. -/
theorem readMany_succ (failure : Option IoFault) (count : Nat) :
    ∀ bytes : List UInt8, bytes.length < count →
      readMany (Message.read failure) count bytes
        = readMany (Message.read failure) (count + 1) bytes := by
  induction count with
  | zero => exact fun _ h => absurd h (Nat.not_lt_zero _)
  | succ count ih =>
    intro bytes hlen
    rw [readMany, readMany]
    -- every item but the last takes bytes off the stream, so the count does not run out before it
    rcases hread : Message.read failure bytes with ⟨f | m, rest⟩
    · cases hio : f.isIo with
      | true => simp only [hio, if_true]
      | false =>
        have hrest : rest.length < count := by
          rcases Message.length_read hread with hlt | ⟨_, heq⟩
          · omega
          · rw [Except.error.inj heq] at hio
            exact absurd hio (by simp [Fault.isIo])
        simp only [ih rest hrest]
    · have hrest : rest.length < count := by
        rcases Message.length_read hread with hlt | ⟨_, heq⟩
        · omega
        · cases heq
      simp only [ih rest hrest]

theorem readMany_eq_items (failure : Option IoFault) (bytes : List UInt8) (count : Nat)
    (h : bytes.length < count) : readMany (Message.read failure) count bytes = items failure bytes := by
  induction h with
  | refl => rfl
  | step hle ih => rw [← readMany_succ failure _ bytes hle, ih]

/-- An item that is not the end of the stream is followed by the items of the bytes that are left. -/
theorem items_eq_cons {failure : Option IoFault} {bytes rest : List UInt8}
    {result : Except Fault Message} (h : Message.read failure bytes = (result, rest))
    (hresult : ∀ cause, result ≠ .error (.io cause)) :
    items failure bytes = result :: items failure rest := by
  have hrest : rest.length < bytes.length := by
    rcases Message.length_read h with hlt | ⟨cause, heq⟩
    · exact hlt
    · exact absurd heq (hresult cause)
  unfold items
  rw [readMany, h]
  cases result with
  | ok m => simp only [readMany_eq_items failure rest _ hrest, items]
  | error f =>
    have hio : f.isIo = false := by
      cases f <;> first | rfl | exact absurd rfl (hresult _)
    simp only [hio, readMany_eq_items failure rest _ hrest, items, Bool.false_eq_true, if_false]

/-- Whatever is read first is the first item. -/
theorem items_head {failure : Option IoFault} {bytes rest : List UInt8}
    {result : Except Fault Message} (h : Message.read failure bytes = (result, rest)) :
    ∃ tail, items failure bytes = result :: tail := by
  unfold items
  rw [readMany, h]
  cases result <;> exact ⟨_, rfl⟩

theorem items_of_end {failure : Option IoFault} {bytes rest : List UInt8} {cause : IoFault}
    (h : Message.read failure bytes = (.error (.io cause), rest)) :
    items failure bytes = [.error (.io cause)] := by
  unfold items
  rw [readMany, h]
  rfl

/-- The items of frames are what their bodies are decoded to, one for one, and then the stream ends. -/
theorem items_frames (failure : Option IoFault) (bodies : List (List UInt8))
    (small : ∀ body ∈ bodies, body.length ≤ maxContentLength) :
    items failure (Sink.framesBytes bodies)
      = bodies.map Message.decode ++ [.error (.io (failure.getD .streamClosed))] := by
  induction bodies with
  | nil =>
    have hread : Message.read failure [] = (.error (.io (failure.getD .streamClosed)), []) := rfl
    exact items_of_end hread
  | cons body rest ih =>
    have hread : Message.read failure (Frame.bodyBytes body ++ Sink.framesBytes rest)
        = (Message.decode body, Sink.framesBytes rest) := by
      unfold Message.read Frame.read
      rw [Frame.scan_bodyBytes (small body List.mem_cons_self)]
      rfl
    have hresult : ∀ cause, Message.decode body ≠ .error (.io cause) := by
      intro cause hcause
      exact absurd (Message.isIo_of_decode hcause) (by simp [Fault.isIo])
    rw [Sink.framesBytes_cons, items_eq_cons hread hresult,
      ih fun b hb => small b (List.mem_cons_of_mem _ hb), List.map_cons, List.cons_append]

/-! ## What an item means to a call -/

/-- What an item means to the call of an id: the response to it, a response to it that breaks the
protocol, or the end of the connection. -/
def verdict? (id : Id) : Except Fault Message → Option Outcome
  | .ok (.response r) => if r.id = some id then some (PendingCalls.outcomeOf r) else none
  | .ok _ => none
  | .error (.protocol i cause) => if i = some id then some (.error (.protocol i cause)) else none
  | .error _ => some (.error .connectionClosed)

/-- The response to a call means its error to it if it carries one, and else its result. -/
theorem verdict?_response (id : Id) (r : Response) : verdict? id (.ok (.response r)) =
    if r.id = some id then
      match r.error with
      | some e => some (.error (.response e))
      | none => some (.ok (r.result.getD .null))
    else none := by
  rw [verdict?, PendingCalls.outcomeOf_eq]
  cases r.error <;> rfl

/-- An item that ends the connection. -/
def isFatal : Except Fault Message → Bool
  | .ok _ | .error (.protocol _ _) => false
  | .error _ => true

/-- What the first item that means something to the call of an id means to it. -/
def firstVerdict (id : Id) (found : List (Except Fault Message)) : Option Outcome :=
  found.findSome? (verdict? id)

theorem firstVerdict_cons (id : Id) (item : Except Fault Message)
    (found : List (Except Fault Message)) :
    firstVerdict id (item :: found) = (verdict? id item).or (firstVerdict id found) := by
  unfold firstVerdict
  rw [List.findSome?_cons]
  cases verdict? id item <;> rfl

/-- An item that ends the connection means so to every call. -/
theorem verdict?_of_isFatal {item : Except Fault Message} (h : isFatal item = true) (id : Id) :
    verdict? id item = some (.error .connectionClosed) := by
  rcases item with f | m
  · cases f <;> first | rfl | cases h
  · cases h

/-- An item that is an answer under an id, or without one. -/
def IsAnswer (id : Option Id) : Except Fault Message → Prop
  | .ok (.response r) => r.id = id
  | .error (.protocol i _) => i = id
  | _ => False

theorem verdict?_of_isAnswer {id : Option Id} {item : Except Fault Message} (h : IsAnswer id item)
    {i : Id} (hne : id ≠ some i) : verdict? i item = none := by
  unfold IsAnswer at h
  split at h
  · subst h
    simp [verdict?, hne]
  · subst h
    simp [verdict?, hne]
  · exact h.elim

/-- Two answers under different ids are no answers to the same call. -/
theorem firstVerdict_swap {i j : Option Id} {a b : Except Fault Message} (ha : IsAnswer i a)
    (hb : IsAnswer j b) (hne : i ≠ j) (id : Id) (before after : List (Except Fault Message)) :
    firstVerdict id (before ++ a :: b :: after) = firstVerdict id (before ++ b :: a :: after) := by
  have hnone : verdict? id a = none ∨ verdict? id b = none := by
    by_cases hi : i = some id
    · exact .inr (verdict?_of_isAnswer hb fun hj => hne (hi.trans hj.symm))
    · exact .inl (verdict?_of_isAnswer ha hi)
  unfold firstVerdict
  simp only [List.findSome?_append, List.findSome?_cons]
  rcases hnone with hnone | hnone
  · rw [hnone]
  · rw [hnone]

end Inbound

/-! ## What an item does to the table -/

namespace PendingCalls

/-- The table after an item that does not end the connection. -/
def receive (t : PendingCalls) : Except Fault Message → PendingCalls
  | .ok (.response r) => (t.resolve r).2
  | .error (.protocol (some id) cause) => (t.reject id (.protocol (some id) cause)).2
  | _ => t

/-- An item that does not end the connection settles the calls of one id, or none. -/
theorem receive_eq (t : PendingCalls) {item : Except Fault Message}
    (h : Inbound.isFatal item = false) :
    (t.receive item = t ∧ ∀ i, Inbound.verdict? i item = none) ∨
      ∃ id o, t.receive item = (t.settle id o).2
        ∧ ∀ i, Inbound.verdict? i item = if i = id then some o else none := by
  rcases item with f | m
  · cases f with
    | protocol i cause =>
      cases i with
      | none => exact .inl ⟨rfl, fun i => by simp [Inbound.verdict?]⟩
      | some id => exact .inr ⟨id, _, rfl, fun i => by simp [Inbound.verdict?, eq_comm]⟩
    | _ => cases h
  · cases m with
    | request r => exact .inl ⟨rfl, fun _ => rfl⟩
    | notification n => exact .inl ⟨rfl, fun _ => rfl⟩
    | response r =>
      cases hid : r.id with
      | none =>
        exact .inl ⟨by simp [receive, resolve, hid], fun i => by simp [Inbound.verdict?, hid]⟩
      | some id =>
        exact .inr ⟨id, outcomeOf r, by simp [receive, resolve, hid],
          fun i => by simp [Inbound.verdict?, hid, eq_comm]⟩

/-- A waiter whose call is in the table, or whose outcome is. -/
def Knows (t : PendingCalls) (w : Waiter) : Prop :=
  (∃ c ∈ t.calls, c.waiter = w) ∨ (t.outcome? w).isSome

variable {t : PendingCalls} {w : Waiter}

theorem Sound.receive (h : t.Sound) {item : Except Fault Message}
    (hitem : Inbound.isFatal item = false) : (t.receive item).Sound := by
  rcases t.receive_eq hitem with ⟨heq, -⟩ | ⟨id, o, heq, -⟩
  · rwa [heq]
  · rw [heq]
    exact h.settle id o

/-- A known waiter that waits for the call of an id is met by what settles that id. -/
theorem Knows.settled_or (h : t.Sound) (hw : t.Knows w) (id : Id) (o : Outcome)
    (later : Option Outcome) :
    ((t.settle id o).2.outcome? w).or later
      = (t.outcome? w).or ((if w.id = id then some o else none).or later) := by
  rw [outcome?_settle h]
  rcases hw with ⟨c, hc, rfl⟩ | hsome
  · -- serial numbers tell the calls apart, so the call that is settled is the one of the waiter
    have hiff : (∃ d ∈ t.calls, d.id = id ∧ d.serial = c.waiter.serial) ↔ c.waiter.id = id := by
      constructor
      · rintro ⟨d, hd, hid, hserial⟩
        obtain rfl := (h.serial_eq_iff hd hc).mp hserial
        exact hid
      · exact fun hid => ⟨c, hc, hid, rfl⟩
    simp [hiff, h.outcome?_waiter hc]
  · obtain ⟨o', hsome⟩ := Option.isSome_iff_exists.mp hsome
    simp [hsome]

theorem Knows.settle (h : t.Sound) (hw : t.Knows w) (id : Id) (o : Outcome) :
    (t.settle id o).2.Knows w := by
  rcases hw with ⟨c, hc, rfl⟩ | hsome
  · by_cases hid : c.id = id
    · right
      have hmet := Knows.settled_or h (.inl ⟨c, hc, rfl⟩) id o none
      have hown : c.waiter.id = id := hid
      simp only [Option.or_none, hown, if_true] at hmet
      rw [hmet, h.outcome?_waiter hc]
      rfl
    · exact .inl ⟨c, (mem_settle_calls h).mpr ⟨hc, hid⟩, rfl⟩
  · right
    obtain ⟨o', hsome⟩ := Option.isSome_iff_exists.mp hsome
    rw [outcome?_settle h, hsome]
    rfl

theorem Knows.receive (h : t.Sound) (hw : t.Knows w) {item : Except Fault Message}
    (hitem : Inbound.isFatal item = false) : (t.receive item).Knows w := by
  rcases t.receive_eq hitem with ⟨heq, -⟩ | ⟨id, o, heq, -⟩
  · rwa [heq]
  · rw [heq]
    exact hw.settle h id o

/-- A known waiter finds what it found before, or else what the item means to it. -/
theorem Knows.received_or (h : t.Sound) (hw : t.Knows w) {item : Except Fault Message}
    (hitem : Inbound.isFatal item = false) (later : Option Outcome) :
    ((t.receive item).outcome? w).or later
      = (t.outcome? w).or ((Inbound.verdict? w.id item).or later) := by
  rcases t.receive_eq hitem with ⟨heq, hnone⟩ | ⟨id, o, heq, hverdict⟩
  · simp [heq, hnone]
  · rw [heq, hverdict, hw.settled_or h]

/-- When the connection ends, a known waiter finds that, unless it found an outcome before. -/
theorem Knows.closed (hw : t.Knows w) :
    t.close.outcome? w = (t.outcome? w).or (some (.error .connectionClosed)) := by
  rw [outcome?_close]
  rcases hw with ⟨c, hc, rfl⟩ | hsome
  · rw [if_pos ⟨c, hc, rfl⟩]
  · obtain ⟨o, hsome⟩ := Option.isSome_iff_exists.mp hsome
    simp [hsome]

end PendingCalls

end LanguageClient
