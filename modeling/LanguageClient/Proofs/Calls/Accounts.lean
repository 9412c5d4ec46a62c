import LanguageClient.Proofs.Calls.Book
import Mathlib.Data.List.Induction
import Mathlib.Data.List.Range

/-!
# LanguageClient.Proofs.Calls.Accounts -- every waiter gets the first outcome of its own call

`CallBook.Accounts` says that a table agrees with the account of its waiters in every respect that a
caller can see: which entries there are, what each action answers, which outcome a waiter finds.
`accounts_run` proves it for every run. What a run keeps is `CallBook.Tracks`: the table holds the live
waiters, and each waiter's outcome is the one of the action that decided it first.
-/

namespace LanguageClient

/-- What a registration after some actions answers: it is refused if the table was closed, and if a live
waiter has the id; else the serial number is the place of the new waiter. -/
def expectedRegistration (actions : List CallAction) (all : List Issue) (id : Id) :
    Except Fault Waiter :=
  if .close ∈ actions then .error .connectionClosed
  else if ∃ x ∈ all, x.isLive ∧ x.waiter.id = id then .error (.protocol (some id) (.idOutstanding id))
  else .ok ⟨id, UInt64.ofNat all.length⟩

/-- A table agrees with the account of the waiters that were handed out in the run that led to it. -/
structure CallBook.Accounts (actions : List CallAction) (b : CallBook) (all : List Issue) : Prop where
  /-- The entries of the table are the live waiters, one for one. -/
  entries : b.table.calls.map PendingCall.waiter = (all.filter Issue.isLive).map Issue.waiter
  size : b.table.size = (all.filter Issue.isLive).length
  ids : ((all.filter Issue.isLive).map (·.waiter.id)).Nodup
  registers : ∀ id method,
    (b.act (.register id method)).1 = .registered (expectedRegistration actions all id)
  /-- A waiter has at most one outcome, the one of the action that decided it first. -/
  outcomes : ∀ x ∈ all, b.table.outcomes.filter (·.1 = x.waiter.serial)
    = (x.stored.map (x.waiter.serial, ·)).toList
  polls : ∀ x ∈ all, (b.act (.poll x.number)).1 = .polled x.stored
  /-- In the whole run a waiter returns at most one outcome. -/
  delivers : ∀ x ∈ all, CallBook.deliveries x.number {} actions = x.delivered.toList
  resolves : ∀ r, (b.act (.resolve r)).1
    = .matched (decide (∃ x ∈ all, x.isLive ∧ r.id = some x.waiter.id))
  rejects : ∀ id f, (b.act (.reject id f)).1
    = .matched (decide (∃ x ∈ all, x.isLive ∧ x.waiter.id = id))
  cancels : ∀ id, (b.act (.cancel id)).1
    = .matched (decide (∃ x ∈ all, x.isLive ∧ x.waiter.id = id))
  /-- Dropping a waiter takes its own entry out, and no other, whatever ids they have. -/
  drops : ∀ x ∈ all, ∀ y ∈ all,
    y.waiter ∈ (b.act (.drop x.number)).2.table.calls.map PendingCall.waiter
      ↔ y.isLive ∧ y.number ≠ x.number

/-! ## What a run keeps -/

namespace CallBook

/-- The table after some actions holds what the account of its waiters says. -/
structure Tracks (actions : List CallAction) (all : List Issue) : Prop where
  sound : (CallBook.run {} actions).Sound
  issued : (CallBook.run {} actions).issued = all.map Issue.waiter
  numbers : ∀ (n : Nat) (x : Issue), all[n]? = some x → x.number = n
  calls : (CallBook.run {} actions).table.calls.map PendingCall.waiter
    = (all.filter Issue.isLive).map Issue.waiter
  outcomes : ∀ x ∈ all, (CallBook.run {} actions).table.outcomes.filter (·.1 = x.waiter.serial)
    = (x.stored.map (x.waiter.serial, ·)).toList
  closed : (CallBook.run {} actions).table.closed = true ↔ .close ∈ actions
  delivers : ∀ n, deliveries n {} actions = ((all[n]?).bind Issue.delivered).toList

variable {actions : List CallAction} {all : List Issue} {a : CallAction}

theorem Tracks.issued_at (h : Tracks actions all) {x : Issue} (hx : x ∈ all) :
    (CallBook.run {} actions).issued[x.number]? = some x.waiter := by
  obtain ⟨n, hn⟩ := List.mem_iff_getElem?.mp hx
  rw [h.numbers n x hn, h.issued, List.getElem?_map, hn]
  rfl

theorem Tracks.serial (h : Tracks actions all) {x : Issue} (hx : x ∈ all) :
    x.waiter.serial.toNat = x.number :=
  h.sound.serials _ _ (h.issued_at hx)

theorem Tracks.serials_nodup (h : Tracks actions all) : (all.map (·.waiter.serial)).Nodup := by
  have hrange : (all.map (·.waiter.serial)).map UInt64.toNat = List.range all.length := by
    apply List.ext_getElem
    · simp
    · intro n hn _
      have hlt : n < all.length := by simpa using hn
      have hnumber : (all[n]).number = n := h.numbers n _ (List.getElem?_eq_getElem hlt)
      simp only [List.getElem_map, List.getElem_range, h.serial (List.getElem_mem hlt), hnumber]
  apply List.Nodup.of_map UInt64.toNat
  rw [hrange]
  exact List.nodup_range

theorem Tracks.exists_call_iff (h : Tracks actions all) (id : Id) :
    (∃ c ∈ (CallBook.run {} actions).table.calls, c.id = id)
      ↔ ∃ x ∈ all, x.isLive = true ∧ x.waiter.id = id := by
  have hiff := congrArg (fun ws => ∃ w ∈ ws, w.id = id) h.calls
  simpa [PendingCall.waiter, and_assoc] using hiff

/-- What a waiter finds. -/
theorem Tracks.outcome?_eq (h : Tracks actions all) {x : Issue} (hx : x ∈ all) :
    (CallBook.run {} actions).table.outcome? x.waiter = x.stored := by
  rw [PendingCalls.outcome?_eq_head?, h.outcomes x hx]
  cases x.stored <;> rfl

/-- Among values under distinct serial numbers one stands under the number of `x`: its own. -/
theorem filter_serial (f : Issue → Option Outcome) {x : Issue}
    (hnodup : (all.map (·.waiter.serial)).Nodup) (hx : x ∈ all) :
    (all.filterMap (fun y => (f y).map (y.waiter.serial, ·))).filter (·.1 = x.waiter.serial)
      = ((f x).map (x.waiter.serial, ·)).toList := by
  induction all with
  | nil => simp at hx
  | cons y rest ih =>
    obtain ⟨hfresh, hrest⟩ := List.nodup_cons.mp hnodup
    have hsplit : (((f y).map (y.waiter.serial, ·)).toList).filter (·.1 = x.waiter.serial)
        = if y.waiter.serial = x.waiter.serial then ((f y).map (y.waiter.serial, ·)).toList
          else [] := by
      cases f y <;> simp [List.filter_cons]
    have hcons : (y :: rest).filterMap (fun y => (f y).map (y.waiter.serial, ·))
        = ((f y).map (y.waiter.serial, ·)).toList
          ++ rest.filterMap (fun y => (f y).map (y.waiter.serial, ·)) := by
      cases hf : f y <;> simp [hf]
    rw [hcons, List.filter_append, hsplit]
    rcases List.mem_cons.mp hx with rfl | hx
    · -- no waiter after it has its number
      have hnone : (rest.filterMap (fun y => (f y).map (y.waiter.serial, ·))).filter
          (·.1 = x.waiter.serial) = [] := by
        rw [List.filter_eq_nil_iff]
        intro e he heq
        obtain ⟨z, hz, hsome⟩ := List.mem_filterMap.mp he
        obtain ⟨o, -, rfl⟩ := Option.map_eq_some_iff.mp hsome
        exact hfresh (List.mem_map.mpr ⟨z, hz, by simpa using heq⟩)
      simp [hnone]
    · have hne : y.waiter.serial ≠ x.waiter.serial :=
        fun heq => hfresh (List.mem_map.mpr ⟨x, hx, heq.symm⟩)
      simp [hne, ih hrest hx]

/-! ## One action more -/

/-- What an action does to the live waiters, told on the account. -/
theorem Tracks.calls_act (h : Tracks actions all)
    (ha : ((CallBook.run {} actions).act a).2.issued = (CallBook.run {} actions).issued) :
    ((CallBook.run {} actions).act a).2.table.calls.map PendingCall.waiter
      = ((all.map (Issue.extend [a])).filter Issue.isLive).map Issue.waiter := by
  rw [act_calls h.sound ha]
  have hwaiters : ∀ cs : List PendingCall,
      (cs.filter (fun c => (a.decides c.serial.toNat c.id).isNone)).map PendingCall.waiter
        = (cs.map PendingCall.waiter).filter
            (fun w => (a.decides w.serial.toNat w.id).isNone) := by
    intro cs
    rw [List.filter_map]
    rfl
  rw [hwaiters, h.calls, List.filter_map, List.filter_map, List.filter_filter, List.map_map]
  have hkeep : ∀ x ∈ all, (((fun w : Waiter => (a.decides w.serial.toNat w.id).isNone) ∘
      Issue.waiter) x && x.isLive) = (Issue.isLive ∘ Issue.extend [a]) x := by
    intro x hx
    simp only [Function.comp_apply, Issue.isLive_extend, h.serial hx, Bool.and_comm]
  rw [List.filter_congr hkeep]
  rfl

/-- What an action does to the outcome of a waiter, told on the account. -/
theorem Tracks.outcomes_act (h : Tracks actions all)
    (ha : ((CallBook.run {} actions).act a).2.issued = (CallBook.run {} actions).issued)
    {x : Issue} (hx : x ∈ all) :
    ((CallBook.run {} actions).act a).2.table.outcomes.filter (·.1 = x.waiter.serial)
      = (((x.extend [a]).stored).map (x.waiter.serial, ·)).toList := by
  rw [act_outcomes h.sound ha, List.filter_append]
  -- what was there stays unless it is collected, and what comes in is what the action settles
  have hold : ((CallBook.run {} actions).table.outcomes.filter
        (fun e => !a.collects e.1.toNat)).filter (·.1 = x.waiter.serial)
      = if a.collects x.number then [] else (x.stored.map (x.waiter.serial, ·)).toList := by
    rw [List.filter_comm, h.outcomes x hx]
    cases x.stored <;> cases hcollects : a.collects x.number <;> simp [h.serial hx, hcollects]
  have hnew : ((CallBook.run {} actions).table.calls.filterMap
        (fun c => (a.settles c.serial.toNat c.id).map (c.serial, ·)))
      = all.filterMap (fun y => (if y.isLive then a.settles y.number y.waiter.id else none).map
          (y.waiter.serial, ·)) := by
    have hwaiters : ∀ cs : List PendingCall,
        cs.filterMap (fun c => (a.settles c.serial.toNat c.id).map (c.serial, ·))
          = (cs.map PendingCall.waiter).filterMap
              (fun w => (a.settles w.serial.toNat w.id).map (w.serial, ·)) := by
      intro cs
      rw [List.filterMap_map]
      rfl
    rw [hwaiters, h.calls, List.filterMap_map, List.filterMap_filter]
    apply List.filterMap_congr
    intro y hy
    simp only [Function.comp_apply, h.serial hy]
    split <;> rfl
  rw [hold, hnew, filter_serial _ h.serials_nodup hx, Issue.stored_extend]
  cases hlive : x.isLive with
  | true => simp [Issue.stored_eq_none_of_isLive x hlive]
  | false => cases hcollects : a.collects x.number <;> simp

/-- An action returns the outcome of a waiter if it is a poll of it, and finds the one that is there. -/
theorem Tracks.delivery_eq (h : Tracks actions all) (n : Nat) :
    delivery n (CallBook.run {} actions) a
      = if a = .poll n then (all[n]?).bind Issue.stored else none := by
  unfold delivery
  by_cases hpoll : a = .poll n
  · subst hpoll
    cases hn : all[n]? with
    | none =>
      have hissued : (CallBook.run {} actions).issued[n]? = none := by
        rw [h.issued, List.getElem?_map, hn]
        rfl
      simp [act_poll_of_none hissued]
    | some x =>
      have hx : x ∈ all := List.mem_of_getElem? hn
      obtain rfl : x.number = n := h.numbers n x hn
      simp [act_poll (h.issued_at hx), h.outcome?_eq hx]
  · simp only [if_neg hpoll]
    split <;> rfl

theorem Tracks.delivers_act (h : Tracks actions all) (n : Nat) :
    deliveries n {} (actions ++ [a])
      = (((all.map (Issue.extend [a]))[n]?).bind Issue.delivered).toList := by
  have hone : deliveries n (CallBook.run {} actions) [a]
      = (if a = .poll n then (all[n]?).bind Issue.stored else none).toList := by
    simp only [deliveries, h.delivery_eq n, List.append_nil]
  rw [deliveries_append, h.delivers n, hone, List.getElem?_map]
  cases hn : all[n]? with
  | none => simp
  | some x =>
    obtain rfl : x.number = n := h.numbers n x hn
    simp only [Option.bind_some, Option.map_some, Issue.delivered_extend]
    cases hdelivered : x.delivered with
    | none => simp
    | some o => simp [Issue.stored_eq_none_of_delivered x hdelivered]

/-- An action that hands out no waiter leaves the account in order. -/
theorem Tracks.act (h : Tracks actions all)
    (ha : ((CallBook.run {} actions).act a).2.issued = (CallBook.run {} actions).issued) :
    Tracks (actions ++ [a]) (all.map (Issue.extend [a])) := by
  have hrun : CallBook.run {} (actions ++ [a]) = ((CallBook.run {} actions).act a).2 :=
    run_append {} actions [a]
  constructor
  case sound =>
    rw [hrun]
    exact h.sound.act ha
  case issued =>
    rw [hrun, ha, h.issued, List.map_map]
    rfl
  case numbers =>
    intro n x hx
    rw [List.getElem?_map] at hx
    obtain ⟨y, hy, rfl⟩ := Option.map_eq_some_iff.mp hx
    exact h.numbers n y hy
  case calls =>
    rw [hrun]
    exact h.calls_act ha
  case outcomes =>
    intro x hx
    obtain ⟨y, hy, rfl⟩ := List.mem_map.mp hx
    rw [hrun]
    exact h.outcomes_act ha hy
  case closed => rw [hrun, act_closed, h.closed, List.mem_append, List.mem_singleton, eq_comm (a := a)]
  case delivers => exact h.delivers_act

/-- A registration changes nothing for the waiters that were handed out before. -/
theorem extend_register (x : Issue) (id : Id) (method : String) :
    (x.extend [.register id method]).isLive = x.isLive
      ∧ (x.extend [.register id method]).stored = x.stored := by
  refine ⟨?_, ?_⟩
  · simp [Issue.isLive_extend, CallAction.decides]
  · rw [Issue.stored_extend]
    cases hlive : x.isLive with
    | true => simp [CallAction.settles, CallAction.decides, Issue.stored_eq_none_of_isLive x hlive]
    | false => simp [CallAction.collects]

/-- A registration that is taken adds a live waiter at the end. -/
theorem Tracks.enter (h : Tracks actions all) (few : all.length < 2 ^ 64) {id : Id} {method : String}
    (hfree : ∀ c ∈ (CallBook.run {} actions).table.calls, c.id ≠ id)
    (ha : (CallBook.run {} actions).act (.register id method)
      = (.registered (.ok ⟨id, (CallBook.run {} actions).table.nextSerial⟩),
          (CallBook.run {} actions).enter id method)) :
    Tracks (actions ++ [.register id method])
      (all.map (Issue.extend [.register id method])
        ++ [⟨all.length, ⟨id, (CallBook.run {} actions).table.nextSerial⟩, []⟩]) := by
  have hrun : CallBook.run {} (actions ++ [.register id method])
      = (CallBook.run {} actions).enter id method := by
    rw [run_append]
    show ((CallBook.run {} actions).act (.register id method)).2 = _
    rw [ha]
  have hlen : (CallBook.run {} actions).issued.length = all.length := by
    rw [h.issued, List.length_map]
  have hnext : (CallBook.run {} actions).table.nextSerial.toNat = all.length := by
    rw [h.sound.next, hlen]
    exact UInt64.toNat_ofNat_of_lt' few
  constructor
  case sound =>
    rw [hrun]
    exact h.sound.enter (hlen ▸ few) hfree method
  case issued =>
    rw [hrun, List.map_append, List.map_map]
    show (CallBook.run {} actions).issued ++ _ = _
    rw [h.issued]
    rfl
  case numbers =>
    intro n x hx
    rcases Nat.lt_or_ge n all.length with hn | hn
    · rw [List.getElem?_append_left (by simpa using hn), List.getElem?_map] at hx
      obtain ⟨y, hy, rfl⟩ := Option.map_eq_some_iff.mp hx
      exact h.numbers n y hy
    · rw [List.getElem?_append_right (by simpa using hn), List.length_map] at hx
      obtain ⟨hzero, rfl⟩ := by simpa [List.getElem?_singleton] using hx
      simp only
      omega
  case calls =>
    rw [hrun]
    show ((CallBook.run {} actions).table.calls ++ _).map PendingCall.waiter = _
    have hold : (all.map (Issue.extend [.register id method])).filter Issue.isLive
        = (all.filter Issue.isLive).map (Issue.extend [.register id method]) := by
      rw [List.filter_map]
      congr 1
      exact List.filter_congr fun x _ => (extend_register x id method).1
    rw [List.map_append, h.calls, List.filter_append, hold, List.map_append, List.map_map]
    rfl
  case outcomes =>
    intro x hx
    rw [hrun]
    show (CallBook.run {} actions).table.outcomes.filter _ = _
    rcases List.mem_append.mp hx with hx | hx
    · obtain ⟨y, hy, rfl⟩ := List.mem_map.mp hx
      rw [(extend_register y id method).2]
      exact h.outcomes y hy
    · obtain rfl := List.mem_singleton.mp hx
      -- every outcome belongs to a waiter handed out before
      have hnone : (CallBook.run {} actions).table.outcomes.filter
          (·.1 = (CallBook.run {} actions).table.nextSerial) = [] := by
        rw [List.filter_eq_nil_iff]
        intro e he heq
        have hlt := h.sound.outcomes e he
        rw [of_decide_eq_true heq, hnext, hlen] at hlt
        omega
      exact hnone
  case closed =>
    rw [hrun]
    show (CallBook.run {} actions).table.closed = true ↔ _
    simp [h.closed]
  case delivers =>
    intro n
    rw [h.delivers_act n]
    rcases Nat.lt_or_ge n all.length with hn | hn
    · rw [List.getElem?_append_left (by simpa using hn)]
    · -- a waiter that is handed out now has returned nothing yet
      rw [List.getElem?_append_right (by simpa using hn), List.length_map,
        List.getElem?_eq_none (by simpa using hn)]
      by_cases hzero : n - all.length = 0
      · rw [hzero]
        rfl
      · rw [List.getElem?_eq_none (by simp only [List.length_singleton]; omega)]

/-! ## Whole runs -/

theorem tracks_empty : Tracks [] [] where
  sound := sound_empty
  issued := rfl
  numbers := by simp
  calls := rfl
  outcomes := by simp
  closed := by simp [CallBook.run]
  delivers n := by simp [deliveries]

theorem tracks_run (actions : List CallAction)
    (few : (CallBook.issues {} actions).length < 2 ^ 64) :
    Tracks actions (CallBook.issues {} actions) := by
  -- what an action means depends on what came before it, so the last one is taken off
  induction actions using List.reverseRecOn with
  | nil => exact tracks_empty
  | append_singleton actions a ih =>
    rw [issues_append, List.length_append, List.length_map] at few
    have h := ih (by omega)
    rw [issues_append]
    rcases act_issued (CallBook.run {} actions) a with ha | ⟨id, method, rfl, hfree, ha⟩
    · have hnone : (CallBook.run {} actions).issues [a] = [] := by
        simpa [issued_act] using ha
      rw [hnone, List.append_nil]
      exact h.act ha
    · have hone : (CallBook.run {} actions).issues [.register id method]
          = [⟨(CallBook.run {} actions).issued.length,
              ⟨id, (CallBook.run {} actions).table.nextSerial⟩, []⟩] := by
        simp only [issues, ha]
      rw [hone, List.length_singleton] at few
      rw [hone, h.issued, List.length_map]
      exact h.enter (by omega) hfree ha

/-- A waiter has an entry as long as it is live. -/
theorem Tracks.mem_calls_iff (h : Tracks actions all) {x : Issue} (hx : x ∈ all) :
    x.waiter ∈ (CallBook.run {} actions).table.calls.map PendingCall.waiter ↔ x.isLive = true := by
  rw [h.calls, List.mem_map]
  constructor
  · rintro ⟨y, hy, heq⟩
    obtain ⟨hyall, hlive⟩ := List.mem_filter.mp hy
    have hyx : y = x :=
      List.inj_on_of_nodup_map h.serials_nodup hyall hx (congrArg Waiter.serial heq)
    exact hyx ▸ hlive
  · exact fun hlive => ⟨x, List.mem_filter.mpr ⟨hx, hlive⟩, rfl⟩

/-- Waiters that were handed out apart are different waiters, even when they have the same id. -/
theorem Tracks.number_ne_iff (h : Tracks actions all) {x y : Issue} (hx : x ∈ all) (hy : y ∈ all) :
    y.number ≠ x.number ↔ y.waiter ≠ x.waiter := by
  constructor
  · intro hne heq
    rw [← h.serial hx, ← h.serial hy, heq] at hne
    exact hne rfl
  · intro hne heq
    have hx' := h.issued_at hx
    rw [← heq, h.issued_at hy] at hx'
    exact hne (Option.some.inj hx')

/-- What was handed out can be told from the account, so every answer of the table can be. -/
theorem Tracks.accounts (h : Tracks actions all) :
    (CallBook.run {} actions).Accounts actions all := by
  have hfound : ∀ id, decide (∃ c ∈ (CallBook.run {} actions).table.calls, c.id = id)
      = decide (∃ x ∈ all, x.isLive = true ∧ x.waiter.id = id) := by
    intro id
    simp only [h.exists_call_iff]
  constructor
  case entries => exact h.calls
  case size =>
    have hlength := congrArg List.length h.calls
    simpa [PendingCalls.size] using hlength
  case ids =>
    have hids : (CallBook.run {} actions).table.calls.map (·.id)
        = (all.filter Issue.isLive).map (·.waiter.id) := by
      have hmap := congrArg (List.map Waiter.id) h.calls
      rw [List.map_map, List.map_map] at hmap
      exact hmap
    rw [← hids]
    exact h.sound.table.ids
  case registers =>
    intro id method
    rw [act_register]
    unfold expectedRegistration
    simp only [h.closed, h.exists_call_iff, h.sound.next, h.issued, List.length_map]
    split
    · rfl
    · split <;> rfl
  case outcomes => exact h.outcomes
  case polls =>
    intro x hx
    rw [act_poll (h.issued_at hx), h.outcome?_eq hx]
  case delivers =>
    intro x hx
    obtain ⟨n, hn⟩ := List.mem_iff_getElem?.mp hx
    rw [h.numbers n x hn, h.delivers n, hn, Option.bind_some]
  case resolves =>
    intro r
    cases hid : r.id with
    | none => simp [CallBook.act, PendingCalls.resolve, hid]
    | some id =>
      simp only [CallBook.act, PendingCalls.resolve, hid, PendingCalls.settle_found, hfound,
        Option.some.injEq, eq_comm (a := id)]
  case rejects =>
    intro id f
    simp only [CallBook.act, PendingCalls.reject, PendingCalls.settle_found, hfound]
  case cancels =>
    intro id
    simp only [CallBook.act, PendingCalls.cancel, PendingCalls.reject, PendingCalls.settle_found,
      hfound]
  case drops =>
    intro x hx y hy
    rw [act_drop (h.issued_at hx), ← h.mem_calls_iff hy, h.number_ne_iff hx hy]
    exact PendingCalls.mem_abandon_waiters

/-- **In every run every waiter gets the first outcome of its own call, and no other.** -/
theorem accounts_run (actions : List CallAction)
    (few : (CallBook.issues {} actions).length < 2 ^ 64) :
    (CallBook.run {} actions).Accounts actions (CallBook.issues {} actions) :=
  (tracks_run actions few).accounts

/-- A run that takes an id again, and then gives up the waiter that had it first. -/
def reuse : List CallAction :=
  [.register (.number 9) "first", .cancel (.number 9), .register (.number 9) "second", .drop 0]

/-- The call that took the id again is still there. -/
theorem accounts_reuse :
    (CallBook.run {} reuse).Accounts reuse (CallBook.issues {} reuse)
      ∧ (CallBook.run {} reuse).table.calls = [⟨.number 9, "second", 1⟩] :=
  ⟨accounts_run reuse (by decide), by decide⟩

end CallBook

end LanguageClient
