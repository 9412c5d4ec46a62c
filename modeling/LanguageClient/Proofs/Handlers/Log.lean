import LanguageClient.Handlers.Registry
import LanguageClient.Proofs.Dict

/-!
# LanguageClient.Proofs.Handlers.Log -- what is registered for a method

For one method a registry is a log: each registration that succeeds adds a handler, a removal empties it,
and a registration that fails adds nothing. What comes of an operation hangs on the entry of its own method
and on nothing else (`outcome_eq`), and so does the entry that it leaves (`get?_act`). `follows_log` reads
the entry of a method off the log, for a registry that starts with no handlers and for the standard one.
-/

namespace LanguageClient

/-- A handler that is to be registered. -/
inductive Handler where
  | request (handler : RequestHandler)
  | notification (handler : NotificationHandler)

/-- What can be done to a registry. -/
inductive RegistryOperation where
  | registering (method : String) (handler : Handler)
  | removing (method : String)

/-- The method of an operation. -/
def RegistryOperation.method : RegistryOperation → String
  | registering method _ => method
  | removing method => method

/-- The handlers of an entry in the order of their registration. -/
def HandlerEntry.handlers : HandlerEntry → List Handler
  | request handler => [.request handler]
  | notifications handlers => handlers.map .notification

namespace HandlerRegistry

/-- The handlers of a method in the order of their registration. -/
def handlers (r : HandlerRegistry) (method : String) : List Handler :=
  ((r.get? method).map (·.handlers)).getD []

/-- Registers a handler of either kind. -/
def register (r : HandlerRegistry) (method : String) : Handler → Except Fault HandlerRegistry
  | .request handler => r.addRequest method handler
  | .notification handler => r.addNotification method handler

/-- What an operation gives back, which is the entry that was removed, and the registry after it. -/
def apply (r : HandlerRegistry) : RegistryOperation →
    Except Fault (Option HandlerEntry × HandlerRegistry)
  | .registering method handler => (r.register method handler).map fun r' => (none, r')
  | .removing method => .ok (r.get? method, r.erase method)

/-- What an operation gives back, or why it fails. -/
def outcome (r : HandlerRegistry) (o : RegistryOperation) : Except Fault (Option HandlerEntry) :=
  (r.apply o).map (·.1)

/-- The registry after an operation; one that fails leaves it as it was. -/
def act (r : HandlerRegistry) (o : RegistryOperation) : HandlerRegistry :=
  match r.apply o with
  | .ok (_, r') => r'
  | .error _ => r

def run (r : HandlerRegistry) (os : List RegistryOperation) : HandlerRegistry := os.foldl act r

/-- What comes of the operations of a run, one after another. -/
def outcomes (r : HandlerRegistry) :
    List RegistryOperation → List (RegistryOperation × Except Fault (Option HandlerEntry))
  | [] => []
  | o :: rest => (o, r.outcome o) :: (r.act o).outcomes rest

/-- The log of a method after one more operation, by what came of it. -/
def logged (method : String) (log : List Handler) :
    RegistryOperation × Except Fault (Option HandlerEntry) → List Handler
  | (.registering target handler, .ok _) => if target = method then log ++ [handler] else log
  | (.registering _ _, .error _) => log
  | (.removing target, _) => if target = method then [] else log

/-- The handlers that were registered for a method with success since it was last removed, among them those
that it had from the start. -/
def log (start : HandlerRegistry) (done : List RegistryOperation) (method : String) : List Handler :=
  (start.outcomes done).foldl (logged method) (start.handlers method)

/-- What holds of a method after some operations on a registry. -/
structure FollowsLog (start : HandlerRegistry) (done : List RegistryOperation) (method : String) :
    Prop where
  /-- What comes of the operations on the method is what comes of them when there are no others. -/
  outcomes : (start.outcomes done).filter (·.1.method = method)
    = start.outcomes (done.filter (·.method = method))
  /-- What is found for it in the end is so too. -/
  alone : (start.run done).get? method = (start.run (done.filter (·.method = method))).get? method
  /-- Nothing is found if nothing is in its log. -/
  unregistered : (start.run done).get? method = none ↔ log start done method = []
  /-- A handler of requests at the front of the log is alone there, and it is found. -/
  request : ∀ handler rest, log start done method = .request handler :: rest →
    rest = [] ∧ (start.run done).get? method = some (.request handler)
  /-- With a handler of notifications at the front, all in the log are such handlers, and they are found. -/
  notifications : ∀ handler rest, log start done method = .notification handler :: rest →
    ∃ others, rest = others.map .notification ∧
      (start.run done).get? method = some (.notifications (handler :: others))
  /-- A handler of requests is refused where anything is registered. -/
  addingRequest : ∀ handler, (start.run done).outcome (.registering method (.request handler))
    = if ((start.run done).get? method).isSome then .error (.duplicateHandler method) else .ok none
  /-- A handler of notifications is refused where a handler of requests is registered. -/
  addingNotification : ∀ handler, (start.run done).outcome (.registering method (.notification handler))
    = if ((start.run done).requestHandler? method).isSome then .error (.duplicateHandler method)
      else .ok none
  /-- Removing gives back what was found, and nothing is found any more. -/
  removing : (start.run done).outcome (.removing method) = .ok ((start.run done).get? method) ∧
    ((start.run done).act (.removing method)).get? method = none
  /-- An operation that fails leaves the registry as it is; without it the others come to the same. -/
  traceless : ∀ before o later f, done = before ++ o :: later →
    (start.run before).outcome o = .error f →
    (start.run before).act o = start.run before ∧ start.run (before ++ later) = start.run done ∧
      start.outcomes (before ++ later) = (start.outcomes done).eraseIdx before.length
  /-- The size is the number of the methods for which something is found. -/
  size : ∃ methods : List String, methods.Nodup ∧
    (∀ m, m ∈ methods ↔ ((start.run done).get? m).isSome) ∧ (start.run done).size = methods.length

variable {r : HandlerRegistry} {o : RegistryOperation} {method : String}

/-! ## One method -/

/-- The entry of a method that one more handler joins, unless it is refused. -/
def joined : Option HandlerEntry → Handler → Option HandlerEntry
  | none, .request handler => some (.request handler)
  | none, .notification handler => some (.notifications [handler])
  | some (.notifications handlers), .notification handler => some (.notifications (handlers ++ [handler]))
  | some (.notifications _), .request _ => none
  | some (.request _), _ => none

/-- The entry that an operation on its method leaves. -/
def entryAfter (found : Option HandlerEntry) : RegistryOperation → Option HandlerEntry
  | .registering _ handler => (joined found handler).or found
  | .removing _ => none

/-- What comes of an operation, by the entry of its method. -/
def outcomeAt (found : Option HandlerEntry) : RegistryOperation → Except Fault (Option HandlerEntry)
  | .registering method handler => match joined found handler with
    | some _ => .ok none
    | none => .error (.duplicateHandler method)
  | .removing _ => .ok found

theorem register_eq (r : HandlerRegistry) (method : String) (handler : Handler) :
    r.register method handler = match joined (r.get? method) handler with
      | some entry => .ok ⟨r.entries.insert method entry⟩
      | none => .error (.duplicateHandler method) := by
  cases handler with
  | request handler =>
    unfold register addRequest
    rcases r.get? method with _ | (_ | _) <;> rfl
  | notification handler =>
    unfold register addNotification
    rcases r.get? method with _ | (_ | _) <;> rfl

/-- What comes of an operation hangs on the entry of its method. -/
theorem outcome_eq (r : HandlerRegistry) (o : RegistryOperation) :
    r.outcome o = outcomeAt (r.get? o.method) o := by
  cases o with
  | removing method => rfl
  | registering method handler =>
    simp only [outcome, apply, register_eq, outcomeAt, RegistryOperation.method]
    cases joined (r.get? method) handler <;> rfl

/-- An operation changes the entry of its method. -/
theorem get?_act (r : HandlerRegistry) (o : RegistryOperation) (method : String) :
    (r.act o).get? method
      = if o.method = method then entryAfter (r.get? o.method) o else r.get? method := by
  cases o with
  | removing target =>
    have hact : r.act (.removing target) = r.erase target := rfl
    rw [hact, get?, erase, Dict.get?_erase]
    by_cases htarget : target = method
    · simp [htarget, entryAfter, RegistryOperation.method]
    · simp [htarget, Ne.symm htarget, get?, RegistryOperation.method]
  | registering target handler =>
    cases hjoined : joined (r.get? target) handler with
    | none =>
      by_cases htarget : target = method
      · subst htarget
        simp [act, apply, register_eq, hjoined, Except.map, entryAfter, RegistryOperation.method]
      · simp [act, apply, register_eq, hjoined, Except.map, htarget, RegistryOperation.method]
    | some entry =>
      have hact : r.act (.registering target handler) = ⟨r.entries.insert target entry⟩ := by
        simp [act, apply, register_eq, hjoined, Except.map]
      rw [hact, get?, Dict.get?_insert]
      by_cases htarget : target = method
      · subst htarget
        simp [entryAfter, hjoined, RegistryOperation.method]
      · simp [htarget, Ne.symm htarget, get?, RegistryOperation.method]

theorem act_of_error {f : Fault} (h : r.outcome o = .error f) : r.act o = r := by
  unfold outcome at h
  unfold act
  cases happly : r.apply o with
  | error g => rfl
  | ok given =>
    rw [happly] at h
    cases h

/-! ## Runs -/

theorem run_append (r : HandlerRegistry) (os os' : List RegistryOperation) :
    r.run (os ++ os') = (r.run os).run os' := List.foldl_append

theorem outcomes_append (r : HandlerRegistry) (os os' : List RegistryOperation) :
    r.outcomes (os ++ os') = r.outcomes os ++ (r.run os).outcomes os' := by
  induction os generalizing r with
  | nil => rfl
  | cons o rest ih =>
    have hrest := ih (r.act o)
    rw [List.cons_append, outcomes, outcomes, hrest, List.cons_append]
    rfl

theorem length_outcomes (r : HandlerRegistry) (os : List RegistryOperation) :
    (r.outcomes os).length = os.length := by
  induction os generalizing r with
  | nil => rfl
  | cons o rest ih => rw [outcomes, List.length_cons, List.length_cons, ih]

/-- Of two registries that agree on a method, one is taken through a run, the other through the operations
on that method alone. -/
theorem alone_of_agree {r r' : HandlerRegistry} (h : r.get? method = r'.get? method)
    (os : List RegistryOperation) :
    (r.outcomes os).filter (·.1.method = method) = r'.outcomes (os.filter (·.method = method)) ∧
      (r.run os).get? method = (r'.run (os.filter (·.method = method))).get? method := by
  induction os generalizing r r' with
  | nil => exact ⟨rfl, h⟩
  | cons o rest ih =>
    by_cases ho : o.method = method
    · have hact : (r.act o).get? method = (r'.act o).get? method := by
        rw [get?_act, get?_act, if_pos ho, if_pos ho, ho, h]
      obtain ⟨houtcomes, hrun⟩ := ih hact
      have hfilter : (o :: rest).filter (·.method = method) = o :: rest.filter (·.method = method) :=
        List.filter_cons_of_pos (by simpa using ho)
      rw [hfilter]
      refine ⟨?_, hrun⟩
      rw [outcomes, outcomes, List.filter_cons_of_pos (by simpa using ho), houtcomes, outcome_eq,
        outcome_eq, ho, h]
    · -- only the first registry moves, and not at this method
      have hact : (r.act o).get? method = r'.get? method := by
        rw [get?_act, if_neg ho, h]
      obtain ⟨houtcomes, hrun⟩ := ih hact
      have hfilter : (o :: rest).filter (·.method = method) = rest.filter (·.method = method) :=
        List.filter_cons_of_neg (by simpa using ho)
      rw [hfilter]
      refine ⟨?_, hrun⟩
      rw [outcomes, List.filter_cons_of_neg (by simpa using ho), houtcomes]

/-- An operation that fails can be left out of a run. -/
theorem left_out {before later : List RegistryOperation} {f : Fault}
    (h : (r.run before).outcome o = .error f) :
    r.run (before ++ later) = r.run (before ++ o :: later) ∧
      r.outcomes (before ++ later) = (r.outcomes (before ++ o :: later)).eraseIdx before.length := by
  constructor
  · rw [run_append, run_append]
    show (r.run before).run later = ((r.run before).act o).run later
    rw [act_of_error h]
  · have hlength : before.length = (r.outcomes before).length := (r.length_outcomes before).symm
    rw [outcomes_append, outcomes_append, outcomes, act_of_error h, hlength,
      List.eraseIdx_append_of_length_le (Nat.le_refl _), Nat.sub_self, List.eraseIdx_zero, List.tail_cons]

/-! ## The log -/

theorem handlers_eq {found : Option HandlerEntry} (h : r.get? method = found) :
    r.handlers method = (found.map (·.handlers)).getD [] := by
  rw [handlers, h]

/-- A handler that joins comes last. -/
theorem handlers_joined {found : Option HandlerEntry} {handler : Handler} {entry : HandlerEntry}
    (h : joined found handler = some entry) :
    entry.handlers = (found.map (·.handlers)).getD [] ++ [handler] := by
  rcases found with _ | (_ | _) <;> cases handler <;> cases h <;> simp [HandlerEntry.handlers]

theorem handlers_act (r : HandlerRegistry) (o : RegistryOperation) (method : String) :
    (r.act o).handlers method = logged method (r.handlers method) (o, r.outcome o) := by
  rw [handlers_eq (get?_act r o method), outcome_eq]
  by_cases ho : o.method = method
  · rw [if_pos ho]
    subst ho
    cases o with
    | removing target => simp [entryAfter, logged, RegistryOperation.method]
    | registering target handler =>
      simp only [entryAfter, outcomeAt, RegistryOperation.method]
      cases hjoined : joined (r.get? target) handler with
      | none => rfl
      | some entry => simpa [logged, handlers] using handlers_joined hjoined
  · rw [if_neg ho]
    cases o with
    | removing target =>
      have htarget : ¬ target = method := ho
      simp [logged, handlers, htarget]
    | registering target handler =>
      have htarget : ¬ target = method := ho
      simp only [outcomeAt, RegistryOperation.method]
      cases joined (r.get? target) handler <;> simp [logged, handlers, htarget]

/-- The handlers that are found are those in the log. -/
theorem handlers_run (r : HandlerRegistry) (os : List RegistryOperation) (method : String) :
    (r.run os).handlers method = log r os method := by
  induction os generalizing r with
  | nil => rfl
  | cons o rest ih =>
    have hrest := ih (r.act o)
    unfold log at hrest ⊢
    rw [outcomes, List.foldl_cons, ← handlers_act]
    exact hrest

/-! ## No entry is without handlers -/

/-- Every entry has handlers. -/
def Filled (r : HandlerRegistry) : Prop := ∀ method entry, r.get? method = some entry → entry.handlers ≠ []

theorem Filled.act (h : r.Filled) (o : RegistryOperation) : (r.act o).Filled := by
  intro method entry hget
  rw [get?_act] at hget
  split at hget
  · cases o with
    | removing target => cases hget
    | registering target handler =>
      simp only [entryAfter] at hget
      cases hjoined : joined (r.get? target) handler with
      | none =>
        rw [RegistryOperation.method, hjoined, Option.none_or] at hget
        exact h _ _ hget
      | some entry' =>
        rw [RegistryOperation.method, hjoined, Option.some_or] at hget
        obtain rfl := Option.some.inj hget
        simp [handlers_joined hjoined]
  · exact h _ _ hget

theorem Filled.run (h : r.Filled) (os : List RegistryOperation) : (r.run os).Filled := by
  induction os generalizing r with
  | nil => exact h
  | cons o rest ih => exact ih (h.act o)

theorem filled_empty : ({} : HandlerRegistry).Filled := by
  intro method entry hget
  cases hget

theorem filled_standard : standard.Filled := by
  intro method entry hget
  have hmem := Assoc.mem_ofList (Assoc.mem_of_lookup hget)
  simp only [List.mem_cons, Prod.mk.injEq, List.not_mem_nil, or_false] at hmem
  rcases hmem with ⟨-, rfl⟩ | ⟨-, rfl⟩ | ⟨-, rfl⟩ | ⟨-, rfl⟩ | ⟨-, rfl⟩ | ⟨-, rfl⟩
    | ⟨-, rfl⟩ | ⟨-, rfl⟩ <;> exact List.cons_ne_nil _ _

/-- An entry is known by its handlers. -/
theorem Filled.get?_eq (h : r.Filled) (method : String) :
    (r.get? method = none ↔ r.handlers method = []) ∧
      (∀ handler rest, r.handlers method = .request handler :: rest →
        rest = [] ∧ r.get? method = some (.request handler)) ∧
      ∀ handler rest, r.handlers method = .notification handler :: rest →
        ∃ others, rest = others.map .notification ∧
          r.get? method = some (.notifications (handler :: others)) := by
  cases hget : r.get? method with
  | none => simp [handlers_eq hget]
  | some entry =>
    have hfilled := h method entry hget
    cases entry with
    | request handler => simp [handlers_eq hget, HandlerEntry.handlers]
    | notifications handlers =>
      cases handlers with
      | nil => exact absurd rfl hfilled
      | cons first others =>
        simp only [handlers_eq hget, HandlerEntry.handlers, Option.map_some, Option.getD_some,
          List.map_cons, List.cons.injEq, Option.some.injEq, reduceCtorEq, false_and, false_imp_iff,
          implies_true, true_and, Handler.notification.injEq]
        rintro handler rest ⟨rfl, rfl⟩
        exact ⟨others, rfl, rfl⟩

/-! ## Both starts -/

theorem Filled.follows {start : HandlerRegistry} (h : start.Filled) (done : List RegistryOperation)
    (method : String) : FollowsLog start done method := by
  have hsame : start.get? method = start.get? method := rfl
  obtain ⟨houtcomes, halone⟩ := alone_of_agree hsame done
  obtain ⟨hnone, hrequest, hnotifications⟩ := (h.run done).get?_eq method
  rw [handlers_run] at hnone
  simp only [handlers_run] at hrequest hnotifications
  constructor
  · exact houtcomes
  · exact halone
  · exact hnone
  · exact hrequest
  · exact hnotifications
  · intro handler
    rw [outcome_eq]
    simp only [outcomeAt, RegistryOperation.method]
    rcases (start.run done).get? method with _ | (_ | _) <;> simp [joined]
  · intro handler
    rw [outcome_eq, requestHandler?]
    simp only [outcomeAt, RegistryOperation.method]
    rcases (start.run done).get? method with _ | (_ | _) <;> simp [joined]
  · constructor
    · rfl
    · simp [get?_act, entryAfter, RegistryOperation.method]
  · intro before o later f hdone hfails
    rw [hdone]
    exact ⟨act_of_error hfails, left_out hfails⟩
  · refine ⟨(start.run done).entries.keys, Assoc.nodup_keys (start.run done).entries.sorted, ?_, ?_⟩
    · exact (start.run done).entries.mem_keys_iff
    · exact (List.length_map _).symm

/-- **A registry keeps a log for each method**, whether it starts with no handlers or with the standard
ones. -/
theorem follows_log (done : List RegistryOperation) (method : String) :
    FollowsLog {} done method ∧ FollowsLog standard done method :=
  ⟨filled_empty.follows done method, filled_standard.follows done method⟩

end HandlerRegistry

end LanguageClient
