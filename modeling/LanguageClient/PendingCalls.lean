import LanguageClient.Fault
import LanguageClient.Rpc.Message

/-!
# LanguageClient.PendingCalls -- which calls wait for their response

A table of the calls that are not yet answered. Registering a call hands out a waiter; the call is
settled once, by a response, by a fault, or by the end of the connection, and its waiter then finds the
outcome. An id may be used again once its call is settled. Each registration therefore has a serial
number of its own, so that giving up an old waiter leaves a newer call of the same id alone.
-/

namespace LanguageClient

/-- What becomes of a call. -/
abbrev Outcome := Except Fault Json

/-- A call that is not yet answered. -/
structure PendingCall where
  id : Id
  method : String
  serial : UInt64
  deriving DecidableEq

/-- The claim of a caller on the outcome of a call. -/
structure Waiter where
  id : Id
  serial : UInt64
  deriving DecidableEq

/-- The calls that wait for their response. -/
structure PendingCalls where
  /-- The number of the id that is handed out next. -/
  nextNumber : Int64 := 1
  calls : List PendingCall := []
  nextSerial : UInt64 := 0
  /-- The connection has ended; no call is taken any more. -/
  closed : Bool := false
  /-- The outcomes that are not yet taken by their waiters, under the serial numbers of the calls. -/
  outcomes : List (UInt64 × Outcome) := []

namespace PendingCalls

/-- A fresh id. -/
def allocate (t : PendingCalls) : Id × PendingCalls :=
  (.number t.nextNumber, { t with nextNumber := t.nextNumber + 1 })

/-- The call of an id. -/
def find? (t : PendingCalls) (id : Id) : Option PendingCall := t.calls.find? (·.id = id)

/-- The method of the call of an id. -/
def methodOf (t : PendingCalls) (id : Id) : Option String := (t.find? id).map (·.method)

/-- The number of calls that are not yet answered. -/
def size (t : PendingCalls) : Nat := t.calls.length

/-- Takes a call. Refused after the end of the connection, and while another call has the id. -/
def register (t : PendingCalls) (id : Id) (method : String) : Except Fault (Waiter × PendingCalls) :=
  if t.closed then .error .connectionClosed
  else if (t.find? id).isSome then .error (.protocol (some id) (.idOutstanding id))
  else
    .ok (⟨id, t.nextSerial⟩, { t with
      calls := t.calls ++ [⟨id, method, t.nextSerial⟩]
      nextSerial := t.nextSerial + 1 })

/-- Settles the call of an id, if there is one, and tells whether there was. -/
def settle (t : PendingCalls) (id : Id) (outcome : Outcome) : Bool × PendingCalls :=
  match t.find? id with
  | none => (false, t)
  | some call =>
    (true, { t with
      calls := t.calls.erase call
      outcomes := t.outcomes ++ [(call.serial, outcome)] })

/-- What a response makes of its call. -/
def outcomeOf (r : Response) : Outcome :=
  match r.outcome with
  | .ok result => .ok result
  | .error e => .error (.response e)

/-- An error in a response is what its call comes to, and otherwise its result, or null if it has none. -/
theorem outcomeOf_eq (r : Response) : outcomeOf r =
    match r.error with
    | some e => .error (.response e)
    | none => .ok (r.result.getD .null) := by
  unfold outcomeOf Response.outcome
  cases r.error <;> rfl

/-- Settles the call that a response answers. A response without an id answers none. -/
def resolve (t : PendingCalls) (r : Response) : Bool × PendingCalls :=
  match r.id with
  | none => (false, t)
  | some id => t.settle id (outcomeOf r)

/-- Fails the call of an id. -/
def reject (t : PendingCalls) (id : Id) (f : Fault) : Bool × PendingCalls := t.settle id (.error f)

/-- Fails the call of an id because it is no longer wanted. -/
def cancel (t : PendingCalls) (id : Id) : Bool × PendingCalls := t.reject id (.cancelled id)

/-- Ends the connection: every call fails, and no more are taken. -/
def close (t : PendingCalls) : PendingCalls :=
  { t with
    closed := true
    calls := []
    outcomes := t.outcomes ++ t.calls.map (fun c => (c.serial, .error .connectionClosed)) }

/-- The outcome that a waiter finds, if its call is settled. -/
def outcome? (t : PendingCalls) (w : Waiter) : Option Outcome := t.outcomes.lookup w.serial

/-- Takes the outcome that a waiter finds, if its call is settled. -/
def poll (t : PendingCalls) (w : Waiter) : Option (Outcome × PendingCalls) :=
  (t.outcome? w).map fun outcome =>
    (outcome, { t with outcomes := t.outcomes.filter (·.1 ≠ w.serial) })

/-- Gives up a waiter: its own call, if it is not settled, leaves the table, and an outcome that was
not taken is lost. -/
def abandon (t : PendingCalls) (w : Waiter) : PendingCalls :=
  { t with
    calls := t.calls.filter (fun c => ¬ (c.id = w.id ∧ c.serial = w.serial))
    outcomes := t.outcomes.filter (·.1 ≠ w.serial) }

end PendingCalls

end LanguageClient
