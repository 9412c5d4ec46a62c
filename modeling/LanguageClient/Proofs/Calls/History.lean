import LanguageClient.PendingCalls

/-!
# LanguageClient.Proofs.Calls.History -- what should become of a waiter

A `CallBook` is a table of calls with the waiters that it has handed out, and a run is a list of actions
on it. What should become of a waiter can be said without looking at the table: `firstDecision` searches
the actions that follow its registration for the first one that decides it. The lemmas tell how the
account of a waiter changes with one action more (`stored_extend`, `delivered_extend`).
-/

namespace LanguageClient

/-! ## Runs -/

/-- Something that is done with a table of calls. A waiter is told by its place in the order in which
waiters were handed out. -/
inductive CallAction where
  | register (id : Id) (method : String)
  | resolve (r : Response)
  | reject (id : Id) (f : Fault)
  | cancel (id : Id)
  | close
  | poll (n : Nat)
  | drop (n : Nat)
  deriving DecidableEq

/-- What an action answers. -/
inductive CallAnswer where
  | registered (r : Except Fault Waiter)
  /-- Whether a call was found. -/
  | matched (found : Bool)
  | polled (o : Option Outcome)
  | done

/-- A table of calls and the waiters that it has handed out, in order. -/
structure CallBook where
  table : PendingCalls := {}
  issued : List Waiter := []

namespace CallBook

/-- Does an action. One on a waiter that was not handed out does nothing. -/
def act (b : CallBook) : CallAction → CallAnswer × CallBook
  | .register id method =>
    match b.table.register id method with
    | .ok (w, table) => (.registered (.ok w), { table, issued := b.issued ++ [w] })
    | .error f => (.registered (.error f), b)
  | .resolve r => (.matched (b.table.resolve r).1, { b with table := (b.table.resolve r).2 })
  | .reject id f => (.matched (b.table.reject id f).1, { b with table := (b.table.reject id f).2 })
  | .cancel id => (.matched (b.table.cancel id).1, { b with table := (b.table.cancel id).2 })
  | .close => (.done, { b with table := b.table.close })
  | .poll n =>
    match (b.issued[n]?).bind b.table.poll with
    | none => (.polled none, b)
    | some (o, table) => (.polled (some o), { b with table })
  | .drop n =>
    match b.issued[n]? with
    | none => (.done, b)
    | some w => (.done, { b with table := b.table.abandon w })

/-- The book after a list of actions. -/
def run (b : CallBook) (actions : List CallAction) : CallBook :=
  actions.foldl (fun b a => (b.act a).2) b

/-- The outcome that an action returns, if it is a poll of the waiter at place `n`. -/
def delivery (n : Nat) (b : CallBook) (a : CallAction) : Option Outcome :=
  match (b.act a).1 with
  | .polled o => if a = .poll n then o else none
  | _ => none

/-- The outcomes that the polls of a waiter return in a run. -/
def deliveries (n : Nat) (b : CallBook) : List CallAction → List Outcome
  | [] => []
  | a :: rest => (b.delivery n a).toList ++ deliveries n (b.act a).2 rest

end CallBook

/-! ## What should become of a waiter -/

/-- What ends the wait of a waiter. -/
inductive Decision where
  | settled (o : Outcome)
  | dropped

namespace CallAction

/-- What an action means to a waiter that waits at place `n` for the call of an id. -/
def decides (n : Nat) (id : Id) : CallAction → Option Decision
  | .resolve r => if r.id = some id then some (.settled (PendingCalls.outcomeOf r)) else none
  | .reject i f => if i = id then some (.settled (.error f)) else none
  | .cancel i => if i = id then some (.settled (.error (.cancelled i))) else none
  | .close => some (.settled (.error .connectionClosed))
  | .drop m => if m = n then some .dropped else none
  | .register _ _ | .poll _ => none

/-- A response decides the waiter for its id: by its error if it carries one, and else by its result. -/
theorem decides_resolve (n : Nat) (id : Id) (r : Response) : (resolve r).decides n id =
    if r.id = some id then
      match r.error with
      | some e => some (.settled (.error (.response e)))
      | none => some (.settled (.ok (r.result.getD .null)))
    else none := by
  rw [decides, PendingCalls.outcomeOf_eq]
  cases r.error <;> rfl

/-- The outcome that an action has for a waiter that waits at place `n` for the call of an id. -/
def settles (n : Nat) (id : Id) (a : CallAction) : Option Outcome :=
  match a.decides n id with
  | some (.settled o) => some o
  | _ => none

/-- Whether an action takes the outcome that may be there for the waiter at place `n`. -/
def collects (n : Nat) : CallAction → Bool
  | .poll m | .drop m => m = n
  | _ => false

/-- Whether an action returns that outcome. -/
def isPoll : CallAction → Bool
  | .poll _ => true
  | _ => false

end CallAction

/-- The first of some actions that decides a waiter: what it means to it, and the actions after it. -/
def firstDecision (n : Nat) (id : Id) : List CallAction → Option (Decision × List CallAction)
  | [] => none
  | a :: rest =>
    match a.decides n id with
    | some d => some (d, rest)
    | none => firstDecision n id rest

/-- A waiter that was handed out, and what was done after. -/
structure Issue where
  /-- Its place among the waiters that were handed out. -/
  number : Nat
  waiter : Waiter
  later : List CallAction

namespace Issue

/-- What first ended the wait of the waiter, and the actions after that. -/
def decision (x : Issue) : Option (Decision × List CallAction) :=
  firstDecision x.number x.waiter.id x.later

/-- The waiter is neither fulfilled nor dropped. -/
def isLive (x : Issue) : Bool := x.decision.isNone

/-- The outcome that the waiter was fulfilled with, until it is taken. -/
def stored (x : Issue) : Option Outcome :=
  match x.decision with
  | some (.settled o, rest) => if rest.any (·.collects x.number) then none else some o
  | _ => none

/-- The outcome that the waiter was fulfilled with, once a poll has returned it. -/
def delivered (x : Issue) : Option Outcome :=
  match x.decision with
  | some (.settled o, rest) =>
    match rest.find? (·.collects x.number) with
    | some a => if a.isPoll then some o else none
    | none => none
  | _ => none

/-- The waiter some actions later. -/
def extend (more : List CallAction) (x : Issue) : Issue := { x with later := x.later ++ more }

end Issue

/-- The waiters that a run hands out, each with the actions that follow its registration. -/
def CallBook.issues (b : CallBook) : List CallAction → List Issue
  | [] => []
  | a :: rest =>
    match (b.act a).1 with
    | .registered (.ok w) => ⟨b.issued.length, w, rest⟩ :: (b.act a).2.issues rest
    | _ => (b.act a).2.issues rest

/-! ## An action more -/

theorem firstDecision_concat (n : Nat) (id : Id) (xs : List CallAction) (a : CallAction) :
    firstDecision n id (xs ++ [a]) =
      match firstDecision n id xs with
      | some (d, rest) => some (d, rest ++ [a])
      | none => (a.decides n id).map (·, []) := by
  induction xs with
  | nil => cases h : a.decides n id <;> simp [firstDecision, h]
  | cons b xs ih => cases h : b.decides n id <;> simp [firstDecision, h, ih]

/-- What has decided nothing does not matter to what is decided later. -/
theorem firstDecision_append {n : Nat} {id : Id} {xs : List CallAction} (h : firstDecision n id xs = none)
    (ys : List CallAction) : firstDecision n id (xs ++ ys) = firstDecision n id ys := by
  induction xs with
  | nil => rfl
  | cons b xs ih =>
    unfold firstDecision at h
    split at h
    · cases h
    · next hnone => rw [List.cons_append, firstDecision, hnone, ih h]

namespace Issue

variable (x : Issue) (a : CallAction)

@[simp] theorem extend_number (more : List CallAction) : (x.extend more).number = x.number := rfl

@[simp] theorem extend_waiter (more : List CallAction) : (x.extend more).waiter = x.waiter := rfl

theorem decision_extend :
    (x.extend [a]).decision =
      match x.decision with
      | some (d, rest) => some (d, rest ++ [a])
      | none => (a.decides x.number x.waiter.id).map (·, []) :=
  firstDecision_concat _ _ _ _

/-- The next action decides a waiter that is live, or leaves it to those that follow. -/
theorem decision_extend_cons {d : Decision} (h : x.isLive = true)
    (hdecides : a.decides x.number x.waiter.id = some d) (more : List CallAction) :
    (x.extend (a :: more)).decision = some (d, more) := by
  show firstDecision x.number x.waiter.id (x.later ++ a :: more) = _
  rw [firstDecision_append (Option.isNone_iff_eq_none.mp h), firstDecision, hdecides]

/-- The outcome with which a waiter was fulfilled is there, or it was taken. -/
theorem stored_of_decision {o : Outcome} {rest : List CallAction}
    (h : x.decision = some (.settled o, rest)) : x.stored = some o ∨ x.stored = none := by
  unfold stored
  rw [h]
  dsimp only
  split
  · exact .inr rfl
  · exact .inl rfl

theorem isLive_extend :
    (x.extend [a]).isLive = (x.isLive && (a.decides x.number x.waiter.id).isNone) := by
  unfold isLive
  rw [decision_extend]
  cases x.decision <;> simp

theorem stored_eq_none_of_isLive (h : x.isLive = true) : x.stored = none := by
  have hnone : x.decision = none := Option.isNone_iff_eq_none.mp h
  simp [stored, hnone]

/-- The action fulfils a waiter that is live, and else can only take the outcome away. -/
theorem stored_extend :
    (x.extend [a]).stored =
      if x.isLive then a.settles x.number x.waiter.id
      else if a.collects x.number then none else x.stored := by
  unfold stored isLive
  rw [decision_extend]
  cases x.decision with
  | none =>
    -- nothing has been decided, so the action decides or nothing does
    unfold CallAction.settles
    rcases a.decides x.number x.waiter.id with _ | ⟨o⟩ | _ <;> simp
  | some p =>
    rcases p with ⟨_ | _, rest⟩
    · cases hrest : rest.any (·.collects x.number) <;> simp [hrest]
    · simp

/-- An outcome is returned once: after that there is none to take. -/
theorem stored_eq_none_of_delivered {o : Outcome} (h : x.delivered = some o) : x.stored = none := by
  unfold delivered at h
  unfold stored
  rcases hdecision : x.decision with _ | ⟨_ | _, rest⟩
  · rfl
  · cases hfind : rest.find? (·.collects x.number) with
    | none => simp [hdecision, hfind] at h
    | some a =>
      have hany : rest.any (·.collects x.number) = true :=
        List.any_eq_true.mpr ⟨a, List.mem_of_find?_eq_some hfind, List.find?_some hfind⟩
      simp [hany]
  · rfl

/-- The outcome is returned by the first poll that finds it. -/
theorem delivered_extend :
    (x.extend [a]).delivered = x.delivered.or (if a = .poll x.number then x.stored else none) := by
  unfold delivered stored
  rw [decision_extend]
  cases x.decision with
  | none => rcases a.decides x.number x.waiter.id with _ | ⟨o⟩ | _ <;> simp
  | some p =>
    rcases p with ⟨o | _, rest⟩
    · simp only [extend_number, List.find?_append]
      cases hfind : rest.find? (·.collects x.number) with
      | some c =>
        -- an earlier action has taken the outcome, and there is none for this one
        have hany : rest.any (·.collects x.number) = true :=
          List.any_eq_true.mpr ⟨c, List.mem_of_find?_eq_some hfind, List.find?_some hfind⟩
        simp [hany]
      | none =>
        have hany : rest.any (·.collects x.number) = false := by simpa using hfind
        rw [hany]
        by_cases hpoll : a = .poll x.number
        · subst hpoll
          simp [CallAction.collects, CallAction.isPoll]
        · -- an action that collects and is no poll of this waiter is a drop
          cases hcollects : a.collects x.number with
          | false => simp [hpoll, hcollects]
          | true =>
            have hdrop : a.isPoll = false := by
              cases a <;> simp_all [CallAction.collects, CallAction.isPoll]
            simp [hpoll, hcollects, hdrop]
    · simp

end Issue

namespace CallBook

theorem run_append (b : CallBook) (xs ys : List CallAction) :
    b.run (xs ++ ys) = (b.run xs).run ys :=
  List.foldl_append

theorem deliveries_append (n : Nat) (b : CallBook) (xs ys : List CallAction) :
    deliveries n b (xs ++ ys) = deliveries n b xs ++ deliveries n (b.run xs) ys := by
  induction xs generalizing b with
  | nil => rfl
  | cons a xs ih => simp only [List.cons_append, deliveries, ih, List.append_assoc, run, List.foldl_cons]

/-- The waiters of a longer run are those of the shorter one, some actions later, and the new ones. -/
theorem issues_append (b : CallBook) (xs ys : List CallAction) :
    b.issues (xs ++ ys) = (b.issues xs).map (Issue.extend ys) ++ (b.run xs).issues ys := by
  induction xs generalizing b with
  | nil => rfl
  | cons a xs ih =>
    simp only [List.cons_append, issues, run, List.foldl_cons]
    split
    · simp only [ih, List.map_cons, List.cons_append, Issue.extend, run]
    · simp only [ih, run]

/-- A waiter enters the book as it is handed out. -/
theorem issued_act (b : CallBook) (a : CallAction) :
    (b.act a).2.issued = b.issued ++ (b.issues [a]).map Issue.waiter := by
  cases a with
  | register id method =>
    simp only [act, issues]
    rcases b.table.register id method with f | ⟨w, table⟩ <;> simp
  | poll n =>
    simp only [act, issues]
    rcases (b.issued[n]?).bind b.table.poll with _ | ⟨o, table⟩ <;> simp
  | drop n =>
    simp only [act, issues]
    cases b.issued[n]? <;> simp
  | _ => simp [act, issues]

theorem issued_run (b : CallBook) (actions : List CallAction) :
    (b.run actions).issued = b.issued ++ (b.issues actions).map Issue.waiter := by
  induction actions generalizing b with
  | nil => exact (List.append_nil _).symm
  | cons a rest ih =>
    have hissues : (b.issues (a :: rest)).map Issue.waiter
        = (b.issues [a]).map Issue.waiter ++ ((b.act a).2.issues rest).map Issue.waiter := by
      rw [← List.singleton_append, issues_append, List.map_append, List.map_map]
      rfl
    rw [hissues, ← List.append_assoc, ← issued_act]
    exact ih (b.act a).2

end CallBook

end LanguageClient
