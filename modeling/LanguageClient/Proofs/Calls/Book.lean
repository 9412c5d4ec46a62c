import LanguageClient.Proofs.Calls.History
import LanguageClient.Proofs.Calls.Table

/-!
# LanguageClient.Proofs.Calls.Book -- what an action does to a book

The serial number of a call is the place of its waiter in the book (`CallBook.Sound`). Seen through it
every action but a registration does the same thing (`act_calls`, `act_outcomes`): the calls that it
decides leave the table, the outcomes that it collects are gone, and those of the calls that it settles
come in. All this is read off `act_cases`, which says once what an action can do.
-/

namespace LanguageClient

/-! ## Actions that settle -/

namespace CallAction

/-- The id and the outcome that an action brings to the call of that id. -/
def settlement? : CallAction → Option (Id × Outcome)
  | .resolve r => r.id.map (·, PendingCalls.outcomeOf r)
  | .reject id f => some (id, .error f)
  | .cancel id => some (id, .error (.cancelled id))
  | _ => none

variable {a : CallAction} {id : Id} {o : Outcome}

theorem decides_of_settlement (h : a.settlement? = some (id, o)) (n : Nat) (i : Id) :
    a.decides n i = if i = id then some (.settled o) else none := by
  cases a with
  | resolve r =>
    obtain ⟨_, hid, heq⟩ := Option.map_eq_some_iff.mp h
    obtain ⟨rfl, rfl⟩ := Prod.mk.inj heq
    simp [decides, hid, eq_comm]
  | reject id f =>
    obtain ⟨rfl, rfl⟩ := Prod.mk.inj (Option.some.inj h)
    simp [decides, eq_comm]
  | cancel id =>
    obtain ⟨rfl, rfl⟩ := Prod.mk.inj (Option.some.inj h)
    by_cases heq : i = id <;> simp [decides, heq, Ne.symm]
  | _ => simp [settlement?] at h

theorem act_of_settlement (h : a.settlement? = some (id, o)) (b : CallBook) :
    b.act a = (.matched (b.table.settle id o).1, { b with table := (b.table.settle id o).2 }) := by
  cases a with
  | resolve r =>
    obtain ⟨_, hid, heq⟩ := Option.map_eq_some_iff.mp h
    obtain ⟨rfl, rfl⟩ := Prod.mk.inj heq
    simp [CallBook.act, PendingCalls.resolve, hid]
  | reject id f =>
    obtain ⟨rfl, rfl⟩ := Prod.mk.inj (Option.some.inj h)
    rfl
  | cancel id =>
    obtain ⟨rfl, rfl⟩ := Prod.mk.inj (Option.some.inj h)
    rfl
  | _ => simp [settlement?] at h

end CallAction

/-! ## Serial numbers are places -/

namespace CallBook

/-- The serial numbers of a book are the places of its waiters; its calls and outcomes belong to waiters
that were handed out. -/
structure Sound (b : CallBook) : Prop where
  table : b.table.Sound
  serials : ∀ (n : Nat) (w : Waiter), b.issued[n]? = some w → w.serial.toNat = n
  calls : ∀ c ∈ b.table.calls, c.waiter ∈ b.issued
  outcomes : ∀ e ∈ b.table.outcomes, e.1.toNat < b.issued.length
  next : b.table.nextSerial = UInt64.ofNat b.issued.length

variable {b : CallBook} {a : CallAction}

theorem Sound.issued_of_call (hb : b.Sound) {c : PendingCall} (hc : c ∈ b.table.calls) :
    b.issued[c.serial.toNat]? = some c.waiter := by
  obtain ⟨n, hn⟩ := List.mem_iff_getElem?.mp (hb.calls c hc)
  have hserial : c.serial.toNat = n := hb.serials n _ hn
  rw [hserial, hn]

/-- The call of the waiter at a place is the one with its serial number. -/
theorem Sound.call_at_iff (hb : b.Sound) {n : Nat} {w : Waiter} (hw : b.issued[n]? = some w)
    {c : PendingCall} (hc : c ∈ b.table.calls) :
    (c.id = w.id ∧ c.serial = w.serial) ↔ n = c.serial.toNat := by
  constructor
  · rintro ⟨-, hserial⟩
    rw [hserial, hb.serials n w hw]
  · rintro rfl
    have hissued := hb.issued_of_call hc
    rw [hw] at hissued
    obtain rfl : w = c.waiter := Option.some.inj hissued
    exact ⟨rfl, rfl⟩

theorem Sound.ne_serial_of_call (hb : b.Sound) {n : Nat} (hn : b.issued[n]? = none)
    {c : PendingCall} (hc : c ∈ b.table.calls) : n ≠ c.serial.toNat := by
  rintro rfl
  rw [hb.issued_of_call hc] at hn
  exact Option.some_ne_none _ hn

/-- Taking the outcome of the waiter at a place is taking what stands under the number of the place. -/
theorem Sound.outcomes_without (hb : b.Sound) {n : Nat} {w : Waiter} (hw : b.issued[n]? = some w) :
    b.table.outcomes.filter (·.1 ≠ w.serial)
      = b.table.outcomes.filter (fun e => !decide (n = e.1.toNat)) := by
  apply List.filter_congr
  intro e _
  have hiff : e.1 = w.serial ↔ n = e.1.toNat := by
    rw [← hb.serials n w hw, ← UInt64.toNat_inj, eq_comm]
  simp [hiff]

/-! ## What an action does -/

/-- The book with one call more. -/
def enter (b : CallBook) (id : Id) (method : String) : CallBook where
  table := { b.table with
    calls := b.table.calls ++ [⟨id, method, b.table.nextSerial⟩]
    nextSerial := b.table.nextSerial + 1 }
  issued := b.issued ++ [⟨id, b.table.nextSerial⟩]

theorem act_register (b : CallBook) (id : Id) (method : String) :
    b.act (.register id method) =
      if b.table.closed then (.registered (.error .connectionClosed), b)
      else if ∃ c ∈ b.table.calls, c.id = id then
        (.registered (.error (.protocol (some id) (.idOutstanding id))), b)
      else (.registered (.ok ⟨id, b.table.nextSerial⟩), b.enter id method) := by
  simp only [act, PendingCalls.register, ← PendingCalls.find?_isSome_iff]
  cases hclosed : b.table.closed with
  | true => rfl
  | false => cases (b.table.find? id).isSome <;> simp [enter, hclosed]

theorem act_poll {n : Nat} {w : Waiter} (hw : b.issued[n]? = some w) :
    b.act (.poll n) = (.polled (b.table.outcome? w),
      { b with table := { b.table with outcomes := b.table.outcomes.filter (·.1 ≠ w.serial) } }) := by
  obtain ⟨hfst, hsnd⟩ := PendingCalls.poll_eq b.table w
  rw [← hfst, ← hsnd]
  simp only [act, hw, Option.bind_some]
  cases b.table.poll w <;> rfl

theorem act_poll_of_none {n : Nat} (hn : b.issued[n]? = none) : b.act (.poll n) = (.polled none, b) := by
  simp [act, hn]

theorem act_drop {n : Nat} {w : Waiter} (hw : b.issued[n]? = some w) :
    b.act (.drop n) = (.done, { b with table := b.table.abandon w }) := by
  simp only [act, hw]

theorem act_drop_of_none {n : Nat} (hn : b.issued[n]? = none) : b.act (.drop n) = (.done, b) := by
  simp only [act, hn]

/-- An action that finds nothing to do in a book: a registration that is refused, a response without an
id, or something about a waiter that was not handed out. -/
inductive IsIdle (b : CallBook) : CallAction → Prop
  | register (id : Id) (method : String) : IsIdle b (.register id method)
  | resolve (r : Response) (h : r.id = none) : IsIdle b (.resolve r)
  | poll (n : Nat) (h : b.issued[n]? = none) : IsIdle b (.poll n)
  | drop (n : Nat) (h : b.issued[n]? = none) : IsIdle b (.drop n)

/-- All that an action can do to a book. -/
theorem act_cases (b : CallBook) (a : CallAction) :
    (b.IsIdle a ∧ (b.act a).2 = b)
      ∨ (∃ id o, a.settlement? = some (id, o)
          ∧ (b.act a).2 = { b with table := (b.table.settle id o).2 })
      ∨ (a = .close ∧ (b.act a).2 = { b with table := b.table.close })
      ∨ (∃ n w, b.issued[n]? = some w ∧ a = .poll n ∧ (b.act a).2
          = { b with table := { b.table with
                outcomes := b.table.outcomes.filter (·.1 ≠ w.serial) } })
      ∨ (∃ n w, b.issued[n]? = some w ∧ a = .drop n
          ∧ (b.act a).2 = { b with table := b.table.abandon w })
      ∨ ∃ id method, a = .register id method ∧ (∀ c ∈ b.table.calls, c.id ≠ id)
          ∧ b.act a = (.registered (.ok ⟨id, b.table.nextSerial⟩), b.enter id method) := by
  rcases h : a.settlement? with _ | ⟨id, o⟩
  · cases a with
    | register id method =>
      rw [act_register]
      split
      · exact .inl ⟨.register id method, rfl⟩
      · split
        · exact .inl ⟨.register id method, rfl⟩
        · next hfree =>
          exact .inr (.inr (.inr (.inr (.inr ⟨id, method, rfl, by simpa using hfree, rfl⟩))))
    | resolve r =>
      have hid : r.id = none := Option.map_eq_none_iff.mp h
      exact .inl ⟨.resolve r hid, by simp [act, PendingCalls.resolve, hid]⟩
    | reject id f => cases h
    | cancel id => cases h
    | close => exact .inr (.inr (.inl ⟨rfl, rfl⟩))
    | poll n =>
      cases hn : b.issued[n]? with
      | none => exact .inl ⟨.poll n hn, by rw [act_poll_of_none hn]⟩
      | some w => exact .inr (.inr (.inr (.inl ⟨n, w, hn, rfl, by rw [act_poll hn]⟩)))
    | drop n =>
      cases hn : b.issued[n]? with
      | none => exact .inl ⟨.drop n hn, by rw [act_drop_of_none hn]⟩
      | some w => exact .inr (.inr (.inr (.inr (.inl ⟨n, w, hn, rfl, by rw [act_drop hn]⟩))))
  · exact .inr (.inl ⟨id, o, rfl, by rw [CallAction.act_of_settlement h]⟩)

theorem IsIdle.decides_eq_none (h : b.IsIdle a) (hb : b.Sound) {c : PendingCall}
    (hc : c ∈ b.table.calls) : a.decides c.serial.toNat c.id = none := by
  cases h with
  | register id method => rfl
  | resolve r hid => simp [CallAction.decides, hid]
  | poll n hn => rfl
  | drop n hn => simp [CallAction.decides, hb.ne_serial_of_call hn hc]

theorem IsIdle.collects_eq_false (h : b.IsIdle a) (hb : b.Sound) {e : UInt64 × Outcome}
    (he : e ∈ b.table.outcomes) : a.collects e.1.toNat = false := by
  have hlt : e.1.toNat < b.issued.length := hb.outcomes e he
  cases h with
  | register id method => rfl
  | resolve r hid => rfl
  | poll n hn =>
    have hle := List.getElem?_eq_none_iff.mp hn
    simp only [CallAction.collects, decide_eq_false_iff_not]
    omega
  | drop n hn =>
    have hle := List.getElem?_eq_none_iff.mp hn
    simp only [CallAction.collects, decide_eq_false_iff_not]
    omega

theorem settles_eq_none_of_decides {n : Nat} {id : Id} (h : a.decides n id = none) :
    a.settles n id = none := by
  simp [CallAction.settles, h]

/-- Every action that hands out no waiter takes out the calls that it decides. -/
theorem act_calls (hb : b.Sound) (ha : (b.act a).2.issued = b.issued) :
    (b.act a).2.table.calls
      = b.table.calls.filter (fun c => (a.decides c.serial.toNat c.id).isNone) := by
  rcases b.act_cases a with ⟨hidle, hact⟩ | ⟨id, o, hsettle, hact⟩ | ⟨rfl, hact⟩
    | ⟨n, w, hn, rfl, hact⟩ | ⟨n, w, hn, rfl, hact⟩ | ⟨id, method, rfl, -, hact⟩
  · rw [hact, eq_comm, List.filter_eq_self]
    intro c hc
    rw [hidle.decides_eq_none hb hc]
    rfl
  · rw [hact, PendingCalls.settle_calls hb.table]
    apply List.filter_congr
    intro c _
    by_cases heq : c.id = id <;> simp [CallAction.decides_of_settlement hsettle, heq]
  · simp [hact, PendingCalls.close, CallAction.decides]
  · simp [hact, CallAction.decides]
  · -- of the two things that a waiter's own entry has, its id and its serial, the serial is enough
    rw [hact, PendingCalls.abandon]
    apply List.filter_congr
    intro c hc
    have hiff := hb.call_at_iff hn hc
    by_cases heq : n = c.serial.toNat <;> simp [CallAction.decides, hiff, heq]
  · simp [hact, enter] at ha

/-- Every action that hands out no waiter takes out the outcomes that it collects, and puts in those of
the calls that it settles. -/
theorem act_outcomes (hb : b.Sound) (ha : (b.act a).2.issued = b.issued) :
    (b.act a).2.table.outcomes
      = b.table.outcomes.filter (fun e => !a.collects e.1.toNat)
        ++ b.table.calls.filterMap
            (fun c => (a.settles c.serial.toNat c.id).map (c.serial, ·)) := by
  rcases b.act_cases a with ⟨hidle, hact⟩ | ⟨id, o, hsettle, hact⟩ | ⟨rfl, hact⟩
    | ⟨n, w, hn, rfl, hact⟩ | ⟨n, w, hn, rfl, hact⟩ | ⟨id, method, rfl, -, hact⟩
  · have hkeep : b.table.outcomes.filter (fun e => !a.collects e.1.toNat) = b.table.outcomes := by
      rw [List.filter_eq_self]
      intro e he
      rw [hidle.collects_eq_false hb he]
      rfl
    have hnone : b.table.calls.filterMap
        (fun c => (a.settles c.serial.toNat c.id).map (c.serial, ·)) = [] := by
      rw [List.filterMap_eq_nil_iff]
      intro c hc
      rw [settles_eq_none_of_decides (hidle.decides_eq_none hb hc), Option.map_none]
    rw [hact, hkeep, hnone, List.append_nil]
  · have hcollects : ∀ n, a.collects n = false := by
      intro n
      cases a <;> simp_all [CallAction.settlement?, CallAction.collects]
    have hsettles : ∀ n i, a.settles n i = if i = id then some o else none := by
      intro n i
      unfold CallAction.settles
      rw [CallAction.decides_of_settlement hsettle]
      by_cases heq : i = id <;> simp [heq]
    simp only [hact, PendingCalls.settle_outcomes hb.table, hcollects, hsettles]
    congr 1
    · simp
    · induction b.table.calls with
      | nil => rfl
      | cons c cs ih => by_cases heq : c.id = id <;> simp [heq, ih]
  · simp [hact, PendingCalls.close, CallAction.settles, CallAction.decides, CallAction.collects]
  · have hsettles : ∀ m id, (CallAction.poll n).settles m id = none := fun _ _ => rfl
    simp only [hact, hb.outcomes_without hn, CallAction.collects, hsettles]
    simp
  · have hsettles : ∀ m id, (CallAction.drop n).settles m id = none := by
      intro m id
      by_cases heq : n = m <;> simp [CallAction.settles, CallAction.decides, heq]
    simp only [hact, PendingCalls.abandon, hb.outcomes_without hn, CallAction.collects, hsettles]
    simp
  · simp [hact, enter] at ha

theorem act_nextSerial (ha : (b.act a).2.issued = b.issued) :
    (b.act a).2.table.nextSerial = b.table.nextSerial := by
  rcases b.act_cases a with ⟨-, hact⟩ | ⟨id, o, -, hact⟩ | ⟨-, hact⟩ | ⟨n, w, -, -, hact⟩
    | ⟨n, w, -, -, hact⟩ | ⟨id, method, -, -, hact⟩
  · rw [hact]
  · rw [hact, PendingCalls.settle_nextSerial]
  · rw [hact]
    rfl
  · rw [hact]
  · rw [hact]
    rfl
  · simp [hact, enter] at ha

theorem act_closed (b : CallBook) (a : CallAction) :
    (b.act a).2.table.closed = true ↔ b.table.closed = true ∨ a = .close := by
  rcases b.act_cases a with ⟨hidle, hact⟩ | ⟨id, o, hsettle, hact⟩ | ⟨rfl, hact⟩
    | ⟨n, w, -, rfl, hact⟩ | ⟨n, w, -, rfl, hact⟩ | ⟨id, method, rfl, -, hact⟩
  · cases hidle <;> simp [hact]
  · have hne : a ≠ .close := by
      rintro rfl
      simp [CallAction.settlement?] at hsettle
    simp [hact, hne]
  · simp [hact, PendingCalls.close]
  · simp [hact]
  · simp [hact, PendingCalls.abandon]
  · simp [hact, enter]

/-- Only a registration that is taken hands out a waiter. -/
theorem act_issued (b : CallBook) (a : CallAction) :
    (b.act a).2.issued = b.issued ∨
      ∃ id method, a = .register id method ∧ (∀ c ∈ b.table.calls, c.id ≠ id)
        ∧ b.act a = (.registered (.ok ⟨id, b.table.nextSerial⟩), b.enter id method) := by
  rcases b.act_cases a with ⟨-, hact⟩ | ⟨id, o, -, hact⟩ | ⟨-, hact⟩ | ⟨n, w, -, -, hact⟩
    | ⟨n, w, -, -, hact⟩ | htaken
  · exact .inl (by rw [hact])
  · exact .inl (by rw [hact])
  · exact .inl (by rw [hact])
  · exact .inl (by rw [hact])
  · exact .inl (by rw [hact])
  · exact .inr htaken

/-! ## A book stays sound -/

theorem sound_empty : ({} : CallBook).Sound where
  table := PendingCalls.sound_empty
  serials := by simp
  calls := by simp
  outcomes := by simp
  next := rfl

/-- The outcomes after an action were there before, or are those of calls that have left. -/
theorem mem_act_outcomes (hb : b.Sound) (ha : (b.act a).2.issued = b.issued)
    {e : UInt64 × Outcome} (he : e ∈ (b.act a).2.table.outcomes) :
    e ∈ b.table.outcomes
      ∨ ∃ c ∈ b.table.calls, c.serial = e.1 ∧ c ∉ (b.act a).2.table.calls := by
  rw [act_outcomes hb ha, List.mem_append, List.mem_filterMap] at he
  rcases he with he | ⟨c, hc, hsome⟩
  · exact .inl (List.mem_of_mem_filter he)
  · obtain ⟨o, ho, rfl⟩ := Option.map_eq_some_iff.mp hsome
    refine .inr ⟨c, hc, rfl, ?_⟩
    rw [act_calls hb ha, List.mem_filter]
    rintro ⟨-, hnone⟩
    rw [settles_eq_none_of_decides (Option.isNone_iff_eq_none.mp hnone)] at ho
    exact Option.some_ne_none _ ho.symm

theorem Sound.act (hb : b.Sound) (ha : (b.act a).2.issued = b.issued) : (b.act a).2.Sound := by
  have hsub : (b.act a).2.table.calls.Sublist b.table.calls := by
    rw [act_calls hb ha]
    exact List.filter_sublist
  constructor
  case table =>
    refine hb.table.of_sublist hsub fun c hc e he => ?_
    refine (mem_act_outcomes hb ha he).imp_right ?_
    -- an outcome that came in belongs to a call that has left, and serial numbers tell calls apart
    rintro ⟨d, hd, hserial, hleft⟩ heq
    have hdc : d = c := (hb.table.serial_eq_iff hd (hsub.subset hc)).mp (hserial.trans heq)
    exact hleft (hdc ▸ hc)
  case serials =>
    rw [ha]
    exact hb.serials
  case calls =>
    rw [ha]
    exact fun c hc => hb.calls c (hsub.subset hc)
  case outcomes =>
    intro e he
    rw [ha]
    rcases mem_act_outcomes hb ha he with he | ⟨c, hc, hserial, -⟩
    · exact hb.outcomes e he
    · rw [← hserial]
      exact (List.getElem?_eq_some_iff.mp (hb.issued_of_call hc)).1
  case next =>
    rw [ha, act_nextSerial ha]
    exact hb.next

/-- A call that is taken has a serial number of its own as long as the numbers have not run round. -/
theorem Sound.enter (hb : b.Sound) (hlt : b.issued.length < 2 ^ 64) {id : Id}
    (hid : ∀ c ∈ b.table.calls, c.id ≠ id) (method : String) : (b.enter id method).Sound := by
  have hnext : b.table.nextSerial.toNat = b.issued.length := by
    rw [hb.next]
    exact UInt64.toNat_ofNat_of_lt' hlt
  have hfresh : ∀ c ∈ b.table.calls, c.serial ≠ b.table.nextSerial := by
    intro c hc heq
    have hlt' := (List.getElem?_eq_some_iff.mp (hb.issued_of_call hc)).1
    rw [heq] at hlt'
    omega
  constructor
  case table =>
    constructor
    case ids =>
      simp only [CallBook.enter, List.map_append, List.map_cons, List.map_nil]
      refine List.Nodup.append hb.table.ids (List.nodup_singleton _) ?_
      simpa [List.disjoint_singleton] using hid
    case serials =>
      simp only [CallBook.enter, List.map_append, List.map_cons, List.map_nil]
      refine List.Nodup.append hb.table.serials (List.nodup_singleton _) ?_
      simpa [List.disjoint_singleton] using hfresh
    case unsettled =>
      intro c hc e he heq
      rcases List.mem_append.mp hc with hc | hc
      · exact hb.table.unsettled c hc e he heq
      · -- the number of the new call is the place of the next waiter, and outcomes have earlier ones
        obtain rfl := List.mem_singleton.mp hc
        have hlt' := hb.outcomes e he
        rw [heq] at hlt'
        simp only at hlt'
        omega
  case serials =>
    intro n w hw
    simp only [CallBook.enter] at hw
    rcases Nat.lt_or_ge n b.issued.length with hn | hn
    · rw [List.getElem?_append_left hn] at hw
      exact hb.serials n w hw
    · rw [List.getElem?_append_right hn] at hw
      obtain ⟨hzero, rfl⟩ := by simpa [List.getElem?_singleton] using hw
      simp only
      omega
  case calls =>
    intro c hc
    rcases List.mem_append.mp hc with hc | hc
    · exact List.mem_append_left _ (hb.calls c hc)
    · obtain rfl := List.mem_singleton.mp hc
      exact List.mem_append_right _ (List.mem_singleton.mpr rfl)
  case outcomes =>
    intro e he
    have hlt' := hb.outcomes e he
    simp only [CallBook.enter, List.length_append, List.length_singleton]
    omega
  case next => simp [CallBook.enter, hb.next, UInt64.ofNat_add]

end CallBook

end LanguageClient
