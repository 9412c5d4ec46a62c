import LanguageClient.PendingCalls
import Mathlib.Data.List.Nodup

/-!
# LanguageClient.Proofs.Calls.Table -- what the operations do to the table of calls

A call is settled by its id, and only its id is looked at; that this settles one call and no other
rests on `PendingCalls.Sound`, by which no two calls of the table share an id or a serial number and no
call of the table has an outcome yet. Settling then is a filter on the calls, whether or not the id is
found, and every operation but registering keeps the table sound.
-/

namespace LanguageClient

/-- The claim that was handed out for a call. -/
def PendingCall.waiter (c : PendingCall) : Waiter := ⟨c.id, c.serial⟩

namespace PendingCalls

/-- The calls of a table can be told apart, by their ids and by their serial numbers, and none of them
has an outcome. -/
structure Sound (t : PendingCalls) : Prop where
  ids : (t.calls.map (·.id)).Nodup
  serials : (t.calls.map (·.serial)).Nodup
  unsettled : ∀ c ∈ t.calls, ∀ e ∈ t.outcomes, e.1 ≠ c.serial

theorem Sound.id_eq_iff {t : PendingCalls} (h : t.Sound) {c d : PendingCall} (hc : c ∈ t.calls)
    (hd : d ∈ t.calls) : c.id = d.id ↔ c = d :=
  ⟨List.inj_on_of_nodup_map h.ids hc hd, congrArg _⟩

theorem Sound.serial_eq_iff {t : PendingCalls} (h : t.Sound) {c d : PendingCall}
    (hc : c ∈ t.calls) (hd : d ∈ t.calls) : c.serial = d.serial ↔ c = d :=
  ⟨List.inj_on_of_nodup_map h.serials hc hd, congrArg _⟩

/-! ## Looking an id up -/

theorem find?_eq_none_iff {t : PendingCalls} {id : Id} :
    t.find? id = none ↔ ∀ c ∈ t.calls, c.id ≠ id := by
  simp [find?, List.find?_eq_none]

theorem find?_isSome_iff {t : PendingCalls} {id : Id} :
    (t.find? id).isSome = true ↔ ∃ c ∈ t.calls, c.id = id := by
  simp [find?, List.find?_isSome]

theorem mem_of_find? {t : PendingCalls} {id : Id} {c : PendingCall} (h : t.find? id = some c) :
    c ∈ t.calls ∧ c.id = id :=
  ⟨List.mem_of_find?_eq_some h, by simpa using List.find?_some h⟩

/-! ## Settling -/

/-- Settling takes the calls of the id out, of which there is one at most. -/
theorem settle_calls {t : PendingCalls} (h : t.Sound) (id : Id) (o : Outcome) :
    (t.settle id o).2.calls = t.calls.filter (fun c => c.id ≠ id) := by
  unfold settle
  split
  · next hfind =>
    -- no call has the id, and none is taken out
    symm
    rw [List.filter_eq_self]
    simpa using find?_eq_none_iff.mp hfind
  · next call hfind =>
    -- the call that is found is the only one of its id, so taking it out is taking the id out
    obtain ⟨hmem, rfl⟩ := mem_of_find? hfind
    simp only
    rw [(List.Nodup.of_map _ h.ids).erase_eq_filter]
    apply List.filter_congr
    intro c hc
    simp [h.id_eq_iff hc hmem, bne, BEq.beq]

/-- The calls of the id get the outcome. -/
theorem settle_outcomes {t : PendingCalls} (h : t.Sound) (id : Id) (o : Outcome) :
    (t.settle id o).2.outcomes
      = t.outcomes ++ (t.calls.filter (fun c => c.id = id)).map (fun c => (c.serial, o)) := by
  unfold settle
  split
  · next hfind =>
    have hnone : t.calls.filter (fun c => c.id = id) = [] := by
      rw [List.filter_eq_nil_iff]
      simpa using find?_eq_none_iff.mp hfind
    simp [hnone]
  · next call hfind =>
    obtain ⟨hmem, rfl⟩ := mem_of_find? hfind
    have hone : t.calls.filter (fun c => c.id = call.id) = [call] := by
      have hcongr : t.calls.filter (fun c => c.id = call.id) = t.calls.filter (· = call) := by
        apply List.filter_congr
        intro c hc
        simp [h.id_eq_iff hc hmem]
      rw [hcongr, List.filter_eq, List.count_eq_one_of_mem (List.Nodup.of_map _ h.ids) hmem]
      rfl
    simp [hone]

/-- Settling tells whether a call has the id. -/
theorem settle_found (t : PendingCalls) (id : Id) (o : Outcome) :
    (t.settle id o).1 = decide (∃ c ∈ t.calls, c.id = id) := by
  rw [Bool.eq_iff_iff, decide_eq_true_iff, ← find?_isSome_iff]
  unfold settle
  split <;> simp_all

/-- An id that no call has leaves the table as it is. -/
theorem settle_of_gone {t : PendingCalls} {id : Id} (h : ¬ ∃ c ∈ t.calls, c.id = id) (o : Outcome) :
    t.settle id o = (false, t) := by
  have hnone : t.find? id = none := find?_eq_none_iff.mpr fun c hc heq => h ⟨c, hc, heq⟩
  unfold settle
  rw [hnone]

@[simp] theorem settle_closed (t : PendingCalls) (id : Id) (o : Outcome) :
    (t.settle id o).2.closed = t.closed := by
  unfold settle
  split <;> rfl

@[simp] theorem settle_nextSerial (t : PendingCalls) (id : Id) (o : Outcome) :
    (t.settle id o).2.nextSerial = t.nextSerial := by
  unfold settle
  split <;> rfl

theorem mem_settle_calls {t : PendingCalls} (h : t.Sound) {id : Id} {o : Outcome} {c : PendingCall} :
    c ∈ (t.settle id o).2.calls ↔ c ∈ t.calls ∧ c.id ≠ id := by
  simp [settle_calls h]

/-! ## Taking a call -/

/-- A table that takes a call is open, hands out a waiter for the id and has one call more. -/
theorem of_register {t t' : PendingCalls} {id : Id} {method : String} {w : Waiter}
    (h : t.register id method = .ok (w, t')) : t.closed = false ∧ w = ⟨id, t.nextSerial⟩
      ∧ t' = { t with calls := t.calls ++ [⟨id, method, t.nextSerial⟩], nextSerial := t.nextSerial + 1 } := by
  unfold register at h
  split at h
  · cases h
  · next hclosed =>
    split at h <;> cases h
    exact ⟨Bool.eq_false_iff.mpr hclosed, rfl, rfl⟩

/-! ## Taking an outcome -/

theorem outcome?_eq_head? (t : PendingCalls) (w : Waiter) :
    t.outcome? w = ((t.outcomes.filter (·.1 = w.serial)).head?).map Prod.snd := by
  unfold outcome?
  induction t.outcomes with
  | nil => rfl
  | cons e rest ih =>
    obtain ⟨s, o⟩ := e
    by_cases heq : w.serial = s
    · simp [heq]
    · simp [List.lookup_cons, beq_false_of_ne heq, ih, Ne.symm heq]

theorem outcome?_eq_none_iff {t : PendingCalls} {w : Waiter} :
    t.outcome? w = none ↔ ∀ e ∈ t.outcomes, e.1 ≠ w.serial := by
  simp [outcome?_eq_head?]

/-- A poll returns the outcome that is there, and leaves none. -/
theorem poll_eq (t : PendingCalls) (w : Waiter) :
    (t.poll w).map Prod.fst = t.outcome? w
      ∧ ((t.poll w).map Prod.snd).getD t
        = { t with outcomes := t.outcomes.filter (·.1 ≠ w.serial) } := by
  unfold poll
  cases h : t.outcome? w with
  | some o => exact ⟨rfl, rfl⟩
  | none =>
    have hkeep : t.outcomes.filter (·.1 ≠ w.serial) = t.outcomes := by
      rw [List.filter_eq_self]
      simpa using outcome?_eq_none_iff.mp h
    refine ⟨rfl, ?_⟩
    rw [hkeep]
    rfl

/-- Giving a waiter up takes out its own call, whatever calls have its id. -/
theorem mem_abandon_waiters {t : PendingCalls} {v w : Waiter} :
    v ∈ (t.abandon w).calls.map PendingCall.waiter
      ↔ v ∈ t.calls.map PendingCall.waiter ∧ v ≠ w := by
  have hown : ∀ c : PendingCall, (c.id = w.id ∧ c.serial = w.serial) ↔ c.waiter = w := by
    intro c
    obtain ⟨id, serial⟩ := w
    simp [PendingCall.waiter]
  simp only [PendingCalls.abandon, List.mem_map, List.mem_filter, decide_eq_true_eq, hown]
  constructor
  · rintro ⟨c, ⟨hc, hne⟩, rfl⟩
    exact ⟨⟨c, hc, rfl⟩, hne⟩
  · rintro ⟨⟨c, hc, rfl⟩, hne⟩
    exact ⟨c, ⟨hc, hne⟩, rfl⟩

/-! ## What a waiter finds -/

theorem lookup_serial (cs : List PendingCall) (o : Outcome) (s : UInt64) :
    (cs.map (fun c => (c.serial, o))).lookup s
      = if ∃ c ∈ cs, c.serial = s then some o else none := by
  induction cs with
  | nil => simp
  | cons c cs ih =>
    by_cases heq : s = c.serial
    · simp [heq]
    · simp [List.lookup_cons, beq_false_of_ne heq, ih, Ne.symm heq]

/-- A call that is there is not settled. -/
theorem Sound.outcome?_waiter {t : PendingCalls} (h : t.Sound) {c : PendingCall} (hc : c ∈ t.calls) :
    t.outcome? c.waiter = none :=
  outcome?_eq_none_iff.mpr (h.unsettled c hc)

/-- The waiters of the calls of the id find the outcome, and the others what they found before. -/
theorem outcome?_settle {t : PendingCalls} (h : t.Sound) (id : Id) (o : Outcome) (w : Waiter) :
    (t.settle id o).2.outcome? w
      = (t.outcome? w).or
          (if ∃ c ∈ t.calls, c.id = id ∧ c.serial = w.serial then some o else none) := by
  unfold outcome?
  rw [settle_outcomes h, List.lookup_append, lookup_serial]
  simp [and_assoc]

theorem outcome?_close (t : PendingCalls) (w : Waiter) :
    t.close.outcome? w
      = (t.outcome? w).or
          (if ∃ c ∈ t.calls, c.serial = w.serial then some (.error .connectionClosed) else none) := by
  unfold outcome?
  rw [← lookup_serial, ← List.lookup_append]
  rfl

/-! ## Soundness is kept -/

theorem sound_empty : ({} : PendingCalls).Sound where
  ids := List.nodup_nil
  serials := List.nodup_nil
  unsettled := by simp

/-- A table stays sound when calls leave it, outcomes leave it, and outcomes come only for calls that
have left. -/
theorem Sound.of_sublist {t u : PendingCalls} (h : t.Sound) (hcalls : u.calls.Sublist t.calls)
    (hnew : ∀ c ∈ u.calls, ∀ e ∈ u.outcomes, e ∈ t.outcomes ∨ e.1 ≠ c.serial) : u.Sound where
  ids := h.ids.sublist (hcalls.map _)
  serials := h.serials.sublist (hcalls.map _)
  unsettled c hc e he := (hnew c hc e he).elim (h.unsettled c (hcalls.subset hc) e) id

theorem Sound.settle {t : PendingCalls} (h : t.Sound) (id : Id) (o : Outcome) :
    (t.settle id o).2.Sound := by
  refine h.of_sublist ?_ ?_
  · rw [settle_calls h]
    exact List.filter_sublist
  · intro c hc e he
    obtain ⟨hct, hid⟩ := (mem_settle_calls h).mp hc
    rw [settle_outcomes h, List.mem_append, List.mem_map] at he
    refine he.imp_right ?_
    rintro ⟨d, hd, rfl⟩ hserial
    obtain ⟨hdt, hdid⟩ := by simpa using hd
    exact hid ((h.serial_eq_iff hdt hct).mp hserial ▸ hdid)

theorem Sound.close {t : PendingCalls} (h : t.Sound) : t.close.Sound :=
  h.of_sublist (List.nil_sublist _) (by simp [PendingCalls.close])

end PendingCalls

end LanguageClient
