import LanguageClient.Proofs.Calls.Book

/-!
# LanguageClient.Proofs.Calls.Owners -- waiters that somebody has

Waiters are in the hands of owners, each of whom has at most one. `CallBook.Passes` says how a book and the
waiter of one owner change together. If every owner gives a waiter up, or takes its outcome, as he parts from
it, then each waiter that somebody has is waited for or fulfilled, and each entry of the table belongs to a
waiter that somebody has (`CallBook.Owned`): no waiter is lost, and no entry is left behind.
-/

namespace LanguageClient

/-- Whether an action settles calls, whoever waits for them. -/
def CallAction.isSettling : CallAction → Bool
  | .resolve _ | .reject _ _ | .cancel _ | .close => true
  | .register _ _ | .poll _ | .drop _ => false

namespace CallBook

/-- How a book changes, and the waiter of an owner: the one that he had, and the one that he has. -/
inductive Passes (b : CallBook) : CallBook → Option Waiter → Option Waiter → Prop
  /-- Nothing changes. -/
  | keeps {had : Option Waiter} : Passes b b had had
  /-- Calls are settled, and the owner has his waiter still. -/
  | settles {a : CallAction} {had : Option Waiter} (h : a.isSettling = true) :
      Passes b (b.act a).2 had had
  /-- The owner has got the outcome, or gives the waiter up. -/
  | ends {a : CallAction} {w : Waiter} (issued : b.issued[w.serial.toNat]? = some w)
      (h : a = .drop w.serial.toNat ∨ a = .poll w.serial.toNat ∧ b.table.outcome? w ≠ none) :
      Passes b (b.act a).2 (some w) none
  /-- A request enters, and the owner has its waiter from now on. -/
  | enters {id : Id} {method : String} (isOpen : b.table.closed = false)
      (fresh : ∀ c ∈ b.table.calls, c.id ≠ id) :
      Passes b (b.enter id method) none (some ⟨id, b.table.nextSerial⟩)

/-- The call of a waiter is in the table, or its outcome is there. -/
def Minds (b : CallBook) (w : Waiter) : Prop :=
  (∃ c ∈ b.table.calls, c.waiter = w) ∨ b.table.outcome? w ≠ none

/-- Some waiters are all that anybody has. -/
structure Owned (b : CallBook) (ws : List Waiter) : Prop where
  nodup : ws.Nodup
  issued : ∀ w ∈ ws, w ∈ b.issued
  minded : ∀ w ∈ ws, b.Minds w
  entries : ∀ c ∈ b.table.calls, c.waiter ∈ ws

variable {b b' : CallBook} {a : CallAction} {had has : Option Waiter} {w : Waiter} {ws others : List Waiter}

/-! ## Actions -/

theorem Sound.serial_of_issued (hb : b.Sound) (h : w ∈ b.issued) : b.issued[w.serial.toNat]? = some w := by
  obtain ⟨n, hn⟩ := List.mem_iff_getElem?.mp h
  rw [hb.serials n w hn, hn]

/-- Waiters have serial numbers of their own. -/
theorem Sound.waiter_eq (hb : b.Sound) {v : Waiter} (hv : v ∈ b.issued) (hw : w ∈ b.issued)
    (h : v.serial = w.serial) : v = w := by
  have hv' := hb.serial_of_issued hv
  rw [h, hb.serial_of_issued hw] at hv'
  exact (Option.some.inj hv').symm

theorem issued_of_isSettling (h : a.isSettling = true) : (b.act a).2.issued = b.issued := by
  cases a <;> first | rfl | cases h

theorem issued_drop (n : Nat) : (b.act (.drop n)).2.issued = b.issued := by
  rcases b.act_issued (.drop n) with h | ⟨id, method, heq, -⟩
  · exact h
  · cases heq

theorem issued_poll (n : Nat) : (b.act (.poll n)).2.issued = b.issued := by
  rcases b.act_issued (.poll n) with h | ⟨id, method, heq, -⟩
  · exact h
  · cases heq

/-- An action that hands out no waiter takes no call in. -/
theorem Sound.calls_act (hb : b.Sound) (ha : (b.act a).2.issued = b.issued) {c : PendingCall}
    (hc : c ∈ (b.act a).2.table.calls) : c ∈ b.table.calls := by
  rw [act_calls hb ha] at hc
  exact List.mem_of_mem_filter hc

/-- A waiter is minded after an action, unless it is the one that the action is about. -/
theorem Minds.act (h : b.Minds w) (hb : b.Sound) (hw : w ∈ b.issued)
    (hspared : a.collects w.serial.toNat = false) (ha : (b.act a).2.issued = b.issued) :
    (b.act a).2.Minds w := by
  have hserial := hb.serial_of_issued hw
  rcases h with ⟨c, hc, rfl⟩ | houtcome
  · by_cases hstays : (a.decides c.serial.toNat c.id).isNone = true
    · refine .inl ⟨c, ?_, rfl⟩
      rw [act_calls hb ha]
      exact List.mem_filter.mpr ⟨hc, hstays⟩
    · -- the call is settled, and by no drop
      right
      obtain ⟨o, ho⟩ : ∃ o, a.settles c.serial.toNat c.id = some o := by
        unfold CallAction.settles
        cases hdecides : a.decides c.serial.toNat c.id with
        | none => simp [hdecides] at hstays
        | some d =>
          cases d with
          | settled o => exact ⟨o, rfl⟩
          | dropped =>
            cases a <;> simp_all [CallAction.decides, CallAction.collects, PendingCall.waiter]
      intro hnone
      rw [PendingCalls.outcome?_eq_none_iff] at hnone
      apply hnone (c.serial, o) _ rfl
      rw [act_outcomes hb ha]
      exact List.mem_append_right _ (List.mem_filterMap.mpr ⟨c, hc, by rw [ho]; rfl⟩)
  · right
    intro hnone
    rw [PendingCalls.outcome?_eq_none_iff] at hnone
    apply houtcome
    rw [PendingCalls.outcome?_eq_none_iff]
    intro e he heq
    apply hnone e _ heq
    rw [act_outcomes hb ha]
    refine List.mem_append_left _ (List.mem_filter.mpr ⟨he, ?_⟩)
    rw [heq, hspared]
    rfl

/-! ## Owners -/

theorem Owned.perm (h : b.Owned ws) (hperm : ws.Perm others) : b.Owned others where
  nodup := hperm.nodup_iff.mp h.nodup
  issued w hw := h.issued w (hperm.mem_iff.mpr hw)
  minded w hw := h.minded w (hperm.mem_iff.mpr hw)
  entries c hc := hperm.mem_iff.mp (h.entries c hc)

theorem owned_empty : ({} : CallBook).Owned [] where
  nodup := List.nodup_nil
  issued := nofun
  minded := nofun
  entries := nofun

/-- What is handed out was not handed out before. -/
theorem Sound.fresh_waiter (hb : b.Sound) (few : b.issued.length < 2 ^ 64) {id : Id} :
    (⟨id, b.table.nextSerial⟩ : Waiter) ∉ b.issued := by
  intro hmem
  have hnext : b.table.nextSerial.toNat = b.issued.length := by
    rw [hb.next]
    exact UInt64.toNat_ofNat_of_lt' few
  have hlt := (List.getElem?_eq_some_iff.mp (hb.serial_of_issued hmem)).1
  simp only at hlt
  omega

theorem Owned.enter (h : b.Owned ws) (hb : b.Sound) (few : b.issued.length < 2 ^ 64) {id : Id}
    (method : String) : (b.enter id method).Owned (⟨id, b.table.nextSerial⟩ :: ws) where
  nodup := List.nodup_cons.mpr ⟨fun hmem => hb.fresh_waiter few (h.issued _ hmem), h.nodup⟩
  issued w hw := by
    rcases List.mem_cons.mp hw with rfl | hw
    · exact List.mem_append_right _ List.mem_cons_self
    · exact List.mem_append_left _ (h.issued w hw)
  minded w hw := by
    rcases List.mem_cons.mp hw with rfl | hw
    · exact .inl ⟨_, List.mem_append_right _ List.mem_cons_self, rfl⟩
    · rcases h.minded w hw with ⟨c, hc, heq⟩ | houtcome
      · exact .inl ⟨c, List.mem_append_left _ hc, heq⟩
      · exact .inr houtcome
  entries c hc := by
    rcases List.mem_append.mp hc with hc | hc
    · exact List.mem_cons_of_mem _ (h.entries c hc)
    · obtain rfl := List.mem_singleton.mp hc
      exact List.mem_cons_self

/-- An owner who parts from his waiter leaves no entry behind. -/
theorem Owned.ends (h : b.Owned (w :: others)) (hb : b.Sound)
    (ha : a = .drop w.serial.toNat ∨ a = .poll w.serial.toNat ∧ b.table.outcome? w ≠ none) :
    (b.act a).2.Owned others := by
  obtain ⟨hfree, hnodup⟩ := List.nodup_cons.mp h.nodup
  have hw := h.issued w List.mem_cons_self
  have hissued : (b.act a).2.issued = b.issued := by
    rcases ha with rfl | ⟨rfl, -⟩
    · exact issued_drop _
    · exact issued_poll _
  have hspared : ∀ v ∈ others, a.collects v.serial.toNat = false := by
    intro v hv
    have hne : w.serial.toNat ≠ v.serial.toNat := by
      intro heq
      have hsame := hb.waiter_eq hw (h.issued v (List.mem_cons_of_mem _ hv)) (UInt64.toNat_inj.mp heq)
      exact hfree (hsame ▸ hv)
    rcases ha with rfl | ⟨rfl, -⟩ <;> exact decide_eq_false hne
  refine ⟨hnodup, fun v hv => ?_, fun v hv => ?_, fun c hc => ?_⟩
  · rw [hissued]
    exact h.issued v (List.mem_cons_of_mem _ hv)
  · exact (h.minded v (List.mem_cons_of_mem _ hv)).act hb (h.issued v (List.mem_cons_of_mem _ hv))
      (hspared v hv) hissued
  · have hbefore := hb.calls_act hissued hc
    rcases List.mem_cons.mp (h.entries c hbefore) with heq | hother
    · -- the entry of the waiter itself is taken out, or was not there
      exfalso
      rcases ha with rfl | ⟨rfl, houtcome⟩
      · rw [act_calls hb hissued] at hc
        have hstays := (List.mem_filter.mp hc).2
        rw [← heq] at hstays
        simp [CallAction.decides, PendingCall.waiter] at hstays
      · rw [← heq] at houtcome
        exact houtcome (hb.table.outcome?_waiter hbefore)
    · exact hother

/-- **What one owner does with his waiter keeps all waiters minded, and all entries owned.** -/
theorem Owned.passes (howned : b.Owned (had.toList ++ others)) (hb : b.Sound)
    (few : b.issued.length < 2 ^ 64) (h : b.Passes b' had has) : b'.Owned (has.toList ++ others) := by
  cases h with
  | keeps => exact howned
  | ends issued h => exact howned.ends hb h
  | enters isOpen fresh => exact howned.enter hb few _
  | @settles a _ h =>
    have hissued : (b.act a).2.issued = b.issued := issued_of_isSettling h
    have hspared : ∀ n, a.collects n = false := by
      intro n
      cases a <;> first | rfl | cases h
    refine ⟨howned.nodup, fun w hw => ?_, fun w hw => ?_, fun c hc => ?_⟩
    · rw [hissued]
      exact howned.issued w hw
    · exact (howned.minded w hw).act hb (howned.issued w hw) (hspared _) hissued
    · exact howned.entries c (hb.calls_act hissued hc)

/-- The book is the same, or an action is done that hands out no waiter, or a request enters. -/
theorem Passes.book (h : b.Passes b' had has) : b' = b
    ∨ (∃ a, b' = (b.act a).2 ∧ (b.act a).2.issued = b.issued)
    ∨ ∃ id method, b' = b.enter id method ∧ has = some ⟨id, b.table.nextSerial⟩
        ∧ b.table.closed = false ∧ ∀ c ∈ b.table.calls, c.id ≠ id := by
  cases h with
  | keeps => exact .inl rfl
  | settles h => exact .inr (.inl ⟨_, rfl, issued_of_isSettling h⟩)
  | ends issued h =>
    rcases h with rfl | ⟨rfl, -⟩
    · exact .inr (.inl ⟨_, rfl, issued_drop _⟩)
    · exact .inr (.inl ⟨_, rfl, issued_poll _⟩)
  | enters isOpen fresh => exact .inr (.inr ⟨_, _, rfl, rfl, isOpen, fresh⟩)

theorem Passes.sound (h : b.Passes b' had has) (hb : b.Sound) (few : b.issued.length < 2 ^ 64) :
    b'.Sound := by
  rcases h.book with rfl | ⟨a, rfl, hissued⟩ | ⟨id, method, rfl, -, -, hfresh⟩
  · exact hb
  · exact hb.act hissued
  · exact hb.enter few hfresh method

/-- A table that is closed has no calls. -/
theorem Passes.emptied (h : b.Passes b' had has) (hb : b.Sound)
    (hempty : b.table.closed = true → b.table.calls = []) (hclosed : b'.table.closed = true) :
    b'.table.calls = [] := by
  rcases h.book with rfl | ⟨a, rfl, hissued⟩ | ⟨id, method, rfl, -, hopen, -⟩
  · exact hempty hclosed
  · rcases (act_closed b a).mp hclosed with hbefore | rfl
    · rw [act_calls hb hissued, hempty hbefore]
      rfl
    · rfl
  · exact absurd (hopen.symm.trans hclosed) Bool.false_ne_true

end CallBook

end LanguageClient
