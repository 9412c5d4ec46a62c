import LanguageClient.Proofs.Calls.Accounts
import LanguageClient.Proofs.Session.Bookings
import LanguageClient.Proofs.Session.Sealing
import Mathlib.Data.List.Perm.Subperm

/-!
# LanguageClient.Proofs.Session.Requests -- the way of a request through a session

A request takes an id of its own, enters the table, and only then is written. `Session.Booked` is what all
interleavings keep: the ids of the requests that have entered or are about to are distinct, the waiters that
were handed out are owned by the tasks that have them, every request on the wire has entered the table, and a
session that has terminated closes the table.
-/

namespace LanguageClient

/-! ## Ids that were taken -/

/-- The id that is taken after so many others. -/
def Id.nth (k : Nat) : Id := .number (Int64.ofNat (k + 1))

theorem Id.nth_injective {j k : Nat} (hjk : j < k) (hk : k + 1 < 2 ^ 64) : Id.nth j ≠ Id.nth k := by
  intro heq
  have hbits := congrArg Int64.toBitVec (Id.number.inj heq)
  have hnat := congrArg BitVec.toNat hbits
  simp only [Int64.toBitVec_ofNat', BitVec.toNat_ofNat] at hnat
  omega

/-- The id is among those that were taken first. -/
def Id.IsTaken (k : Nat) (id : Id) : Prop := ∃ j < k, id = .nth j

theorem Id.IsTaken.succ {k : Nat} {id : Id} (h : id.IsTaken k) : id.IsTaken (k + 1) := by
  obtain ⟨j, hj, rfl⟩ := h
  exact ⟨j, Nat.lt_succ_of_lt hj, rfl⟩

namespace Task

/-- The id of a request that is about to enter the table. -/
def entering? : Task → Option Id
  | .registering id _ _ _ => some id
  | _ => none

/-- An id is about to be taken. -/
def isNumbering : Task → Bool
  | .numbering _ _ _ => true
  | _ => false

end Task

namespace Session

/-- Whether an action takes an id. -/
def takesId (s : Session) : Action → Bool
  | .turn t => (s.task? t).any Task.isNumbering
  | _ => false

/-- How many ids some actions take. -/
def idsTaken (s : Session) : List Action → Nat
  | [] => 0
  | a :: rest => (s.takesId a).toNat + (s.act a).idsTaken rest

theorem idsTaken_cons (k : Nat) (s : Session) (a : Action) (rest : List Action) :
    k + s.idsTaken (a :: rest) = k + (s.takesId a).toNat + (s.act a).idsTaken rest :=
  (Nat.add_assoc _ _ _).symm

theorem idsTaken_append (s : Session) (before later : List Action) :
    s.idsTaken (before ++ later) = s.idsTaken before + (s.run before).idsTaken later := by
  induction before generalizing s with
  | nil => exact (Nat.zero_add _).symm
  | cons a before ih =>
    have hrun : s.run (a :: before) = (s.act a).run before := rfl
    rw [List.cons_append, idsTaken, idsTaken, ih, hrun, Nat.add_assoc]

end Session

/-! ## Steps -/

namespace Task

variable {me : TaskId} {s : Shared} {task : Task} {p : Progress}

theorem IsSequel.not_request {next : Task} (h : next.IsSequel) (r : Request) (d : Sending) :
    next ≠ .writing (.request r) d := by
  cases h <;> nofun

/-- A request is about to be written because it has just entered the table. -/
theorem Steps.requests (h : Steps me s task p) {r : Request} {d : Sending}
    (hnext : p.next = some (.writing (.request r) d)) :
    ∃ method params purpose w pending, task = .registering r.id method params purpose
      ∧ s.pending.register r.id method = .ok (w, pending) ∧ d = .request w purpose := by
  cases h with
  | registered hregister =>
    cases hnext
    exact ⟨_, _, _, _, _, rfl, hregister, rfl⟩
  | taken hentry hready =>
    rename_i c first
    cases hnext
    cases c <;> cases hentry
  | unregistered hregister | left | settled hpoll =>
    exact absurd (Option.some.inj hnext) ((Purpose.sequel_settled _ _).not_request r d)
  | notFound hcancel | unnoticed hphase =>
    exact absurd (Option.some.inj hnext) ((sequel_cancelled _).not_request r d)
  | written hflow => exact absurd rfl ((Sending.sequel_done hnext).not_request r d)
  | closed => exact absurd rfl ((Aftermath.sequel_done hnext).not_request r d)
  | _ => cases hnext

/-- A request is about to enter the table because its id has just been taken. -/
theorem Steps.entering (h : Steps me s task p) :
    p.next.bind entering? = if task.isNumbering then some s.pending.allocate.1 else none := by
  cases hnext : p.next.bind entering? with
  | some id =>
    obtain ⟨next, hsome, hid⟩ := Option.bind_eq_some_iff.mp hnext
    cases next with
    | registering id' method params purpose =>
      obtain ⟨rfl, hallocate, -⟩ := h.leads hsome
      rw [← Option.some.inj hid]
      exact congrArg some (congrArg Prod.fst hallocate)
    | _ => cases hid
  | none =>
    split
    · next hnumbering =>
      cases h with
      | numbered => cases hnext
      | _ => cases hnumbering
    · rfl

theorem booking?_register {s : Shared} {task : Task} {id : Id} {method : String}
    (h : task.booking? s = some (.register id method)) : task.entering? = some id := by
  unfold booking? at h
  split at h <;> first | (cases h; rfl) | cases h | skip
  split at h <;> cases h

/-! ## Calls that are begun, awaited, dropped and collected -/

variable {old new : List Task}

theorem entering_afterWrite (d : Sending) : (afterWrite d).filterMap entering? = [] := by
  cases d with
  | cancellation after => cases after <;> rfl
  | _ => rfl

/-- Callers take no ids, and no request enters for what they do. -/
theorem Recasts.entering (h : Recasts old new) : new.filterMap entering? = old.filterMap entering? := by
  cases h with
  | same | called _ | awaited _ | collected _ => rfl
  | left h =>
    cases h with
    | writing _ | terminating _ | closing _ => exact entering_afterWrite _
    | _ => rfl

/-- A request is being written although its caller is gone. -/
theorem Recasts.requests (h : Recasts old new) {r : Request} {d : Sending}
    (hmem : .writing (.request r) d ∈ new) : d = .loose ∧ ∃ d', .writing (.request r) d' ∈ old := by
  have hwrite : ∀ {first : Task} {d' : Sending}, .writing (.request r) d ∈ first :: afterWrite d' →
      .writing (.request r) d = first := by
    intro first d' hmem
    rcases List.mem_cons.mp hmem with heq | hmem
    · exact heq
    · rcases mem_afterWrite hmem with ⟨w, p, heq, -⟩ | ⟨result, heq, -⟩ <;> cases heq
  cases h with
  | same | collected _ => cases hmem
  | called _ | awaited _ => cases List.mem_singleton.mp hmem
  | left h =>
    cases h with
    | called | locking | closingOutflow | finished _ => cases hmem
    | waiting | started => cases List.mem_singleton.mp hmem
    | writing _ =>
      cases hwrite hmem
      exact ⟨rfl, _, List.mem_cons_self⟩
    | terminating _ | closing _ => cases hwrite hmem

end Task

/-! ## What is kept -/

namespace CallBook

/-- A book hands out a waiter where a registration is taken, and nowhere else. -/
theorem book_issued (b : CallBook) (a? : Option CallAction) : (b.book a?).issued = b.issued ∨
    ∃ id method, a? = some (.register id method)
      ∧ (b.book a?).issued = b.issued ++ [⟨id, b.table.nextSerial⟩] := by
  cases a? with
  | none => exact .inl rfl
  | some a =>
    rcases b.act_issued a with hsame | ⟨id, method, rfl, -, hact⟩
    · exact .inl hsame
    · refine .inr ⟨id, method, rfl, ?_⟩
      show (b.act (.register id method)).2.issued = _
      rw [hact]
      rfl

theorem mem_book_issued {b : CallBook} {a? : Option CallAction} {w : Waiter} (h : w ∈ b.issued) :
    w ∈ (b.book a?).issued := by
  rcases b.book_issued a? with hsame | ⟨id, method, -, hissued⟩
  · rwa [hsame]
  · rw [hissued]
    exact List.mem_append_left _ h

/-- A request with an id has entered the table. -/
def Knows (b : CallBook) (id : Id) : Prop := ∃ w ∈ b.issued, w.id = id

theorem Knows.book {b : CallBook} {id : Id} (h : b.Knows id) (a? : Option CallAction) :
    (b.book a?).Knows id := by
  obtain ⟨w, hw, hid⟩ := h
  exact ⟨w, mem_book_issued hw, hid⟩

end CallBook

namespace Session

/-- The ids of the requests that are about to enter the table, and of those that have entered. -/
def ids (s : Session) (b : CallBook) : List Id :=
  s.places.filterMap Task.entering? ++ b.issued.map Waiter.id

/-- What all interleavings keep: so many ids were taken, and the table of calls is as the book says. -/
structure Booked (k : Nat) (b : CallBook) (s : Session) : Prop where
  named : s.Named
  sealed : s.Sealed
  sound : b.Sound
  table : b.Holds s.shared.pending
  emptied : b.table.closed = true → b.table.calls = []
  plain : ∀ task ∈ s.places, task.Plain
  owned : b.Owned (s.places.filterMap Task.waiter?)
  number : s.shared.pending.nextNumber = Int64.ofNat (k + 1)
  distinct : (s.ids b).Nodup
  taken : ∀ id ∈ s.ids b, id.IsTaken k
  sent : ∀ r, .request r ∈ s.shared.wire → b.Knows r.id
  writing : ∀ r d, .writing (.request r) d ∈ s.places →
    b.Knows r.id ∧ ∀ w p, d = .request w p → w.id = r.id
  ending : s.shared.lifecycle.phase = .terminated →
    s.shared.pending.closed = true ∨ ∃ a, .closing a ∈ s.places

variable {k : Nat} {b : CallBook} {s s' : Session}

theorem booked_create (options : SessionOptions) : (create options).Booked 0 {} where
  named := named_create options
  sealed := sealed_create options
  sound := CallBook.sound_empty
  table := ⟨1, rfl⟩
  emptied := nofun
  plain task hmem := by
    cases List.mem_singleton.mp hmem
    trivial
  owned := CallBook.owned_empty
  number := rfl
  distinct := List.nodup_nil
  taken := nofun
  sent := nofun
  writing r d hmem := nomatch List.mem_singleton.mp hmem
  ending := nofun

namespace Booked

/-- A waiter was handed out for an id that was taken, so there are not more of them. -/
theorem length_issued_le (h : s.Booked k b) : b.issued.length ≤ k := by
  have hsub : b.issued.map Waiter.id ⊆ (List.range k).map Id.nth := by
    intro id hid
    obtain ⟨j, hj, rfl⟩ := h.taken id (List.mem_append_right _ hid)
    exact List.mem_map.mpr ⟨j, List.mem_range.mpr hj, rfl⟩
  have hnodup : (b.issued.map Waiter.id).Nodup := (List.nodup_append.mp h.distinct).2.1
  have hle := (List.subperm_of_subset hnodup hsub).length_le
  rwa [List.length_map, List.length_map, List.length_range] at hle

theorem closed_iff (h : s.Booked k b) : s.shared.pending.closed = b.table.closed := by
  obtain ⟨n, hn⟩ := h.table
  rw [hn]
  rfl

theorem calls_eq (h : s.Booked k b) : s.shared.pending.calls = b.table.calls := by
  obtain ⟨n, hn⟩ := h.table
  rw [hn]
  rfl

/-- Waiters that were handed out have ids of their own. -/
theorem waiter_eq (h : s.Booked k b) {v w : Waiter} (hv : v ∈ b.issued) (hw : w ∈ b.issued)
    (hid : v.id = w.id) : v = w :=
  List.inj_on_of_nodup_map (List.nodup_append.mp h.distinct).2.1 hv hw hid

/-- No waiter was handed out for an id that is about to enter. -/
theorem not_entering (h : s.Booked k b) {id : Id} {method : String} {params : Option Json} {p : Purpose}
    (hmem : .registering id method params p ∈ s.places) : ∀ w ∈ b.issued, w.id ≠ id := by
  intro w hw heq
  have hentering : id ∈ s.places.filterMap Task.entering? := List.mem_filterMap.mpr ⟨_, hmem, rfl⟩
  have hissued : id ∈ b.issued.map Waiter.id := List.mem_map.mpr ⟨w, hw, heq⟩
  exact (List.nodup_append.mp h.distinct).2.2 id hentering id hissued rfl

/-- A waiter that a task has was handed out, and stands at the place of its serial number. -/
theorem issued_of_waiter (h : s.Booked k b) {task : Task} (hmem : task ∈ s.places) {w : Waiter}
    (hw : task.waiter? = some w) : b.issued[w.serial.toNat]? = some w :=
  h.sound.serial_of_issued (h.owned.issued w (List.mem_filterMap.mpr ⟨task, hmem, hw⟩))

end Booked

/-! ## A task takes a step -/

section Turn

variable {t : TaskId} {task : Task} {p : Progress} {others : List Task}
  (step : task.Steps t s.shared p) (before : s.places.Perm (task :: others))
  (after : s'.places.Perm (p.next.toList ++ (p.asked.toList.map .answering ++ others)))
  (agrees : Agrees p.shared s'.shared)

include step before after in
/-- Beside the ids that were there before there is the one that was taken, if one was. -/
theorem ids_turn (b : CallBook) : List.Subperm (s'.ids (b.book (task.booking? s.shared)))
    ((if task.isNumbering then [s.shared.pending.allocate.1] else []) ++ s.ids b) := by
  obtain ⟨hbefore, hafter⟩ := filterMap_turn Task.entering? (fun _ => rfl) before after
  have hids : (s.ids b).Perm (task.entering?.toList ++ (others.filterMap Task.entering?
      ++ b.issued.map Waiter.id)) := by
    rw [← List.append_assoc]
    exact hbefore.append_right _
  have hnew : (p.next.bind Task.entering?).toList
      = if task.isNumbering then [s.shared.pending.allocate.1] else [] := by
    rw [step.entering]
    split <;> rfl
  have hrest : List.Subperm (others.filterMap Task.entering?
      ++ (b.book (task.booking? s.shared)).issued.map Waiter.id) (s.ids b) := by
    refine List.Subperm.trans ?_ hids.symm.subperm
    rcases b.book_issued (task.booking? s.shared) with hsame | ⟨id, method, hregister, hissued⟩
    · rw [hsame]
      exact (List.sublist_append_right _ _).subperm
    · -- the request that has entered was about to
      rw [hissued, Task.booking?_register hregister, List.map_append, ← List.append_assoc]
      exact List.perm_append_comm.subperm
  refine (hafter.append_right _).subperm.trans ?_
  rw [hnew, List.append_assoc]
  exact (List.subperm_append_left _).mpr hrest

variable (h : s.Booked k b)

include h step before

theorem Booked.books : (b.book (task.booking? s.shared)).Holds p.shared.pending
    ∧ b.Passes (b.book (task.booking? s.shared)) task.waiter? (p.next.bind Task.waiter?) := by
  have hmem : task ∈ s.places := before.mem_iff.mpr List.mem_cons_self
  exact step.books (h.plain task hmem) h.table fun w hw => h.issued_of_waiter hmem hw

include after

/-- The waiters of all tasks are minded after a step. -/
theorem Booked.owned_turn (few : k < 2 ^ 64) :
    (b.book (task.booking? s.shared)).Owned (s'.places.filterMap Task.waiter?) := by
  obtain ⟨hbefore, hafter⟩ := filterMap_turn Task.waiter? (fun _ => rfl) before after
  have hpasses := (h.books step before).2
  have hfew : b.issued.length < 2 ^ 64 := Nat.lt_of_le_of_lt h.length_issued_le few
  exact ((h.owned.perm hbefore).passes h.sound hfew hpasses).perm hafter.symm

/-- What is being written is a request that has entered the table. -/
theorem Booked.writing_turn (few : k < 2 ^ 64) {r : Request} {d : Sending}
    (hmem : .writing (.request r) d ∈ s'.places) :
    (b.book (task.booking? s.shared)).Knows r.id ∧ ∀ w p, d = .request w p → w.id = r.id := by
  rcases mem_places_turn after hmem with hnext | ⟨_, heq⟩ | hother
  · obtain ⟨method, params, purpose, w, pending, -, hregister, rfl⟩ := step.requests hnext
    have hid : w.id = r.id := by
      obtain ⟨-, rfl, -⟩ := PendingCalls.of_register hregister
      rfl
    refine ⟨⟨w, (h.owned_turn step before after few).issued w ?_, hid⟩, fun v p heq => ?_⟩
    · exact List.mem_filterMap.mpr ⟨_, hmem, rfl⟩
    · cases heq
      exact hid
  · cases heq
  · obtain ⟨hknown, hsame⟩ := h.writing r d (before.mem_iff.mpr (List.mem_cons_of_mem _ hother))
    exact ⟨hknown.book _, hsame⟩

/-- The id that is taken in a step is not among those that were taken before. -/
theorem Booked.distinct_turn (few : k + 1 < 2 ^ 64) :
    (s'.ids (b.book (task.booking? s.shared))).Nodup
      ∧ ∀ id ∈ s'.ids (b.book (task.booking? s.shared)), id.IsTaken (k + task.isNumbering.toNat) := by
  have hsub := ids_turn step before after b
  have hid : s.shared.pending.allocate.1 = .nth k := congrArg Id.number h.number
  rw [hid] at hsub
  have hfresh : Id.nth k ∉ s.ids b := by
    intro hmem
    obtain ⟨j, hj, heq⟩ := h.taken _ hmem
    exact Id.nth_injective hj few heq.symm
  cases hnumbering : task.isNumbering with
  | false =>
    rw [hnumbering, if_neg Bool.false_ne_true, List.nil_append] at hsub
    obtain ⟨ids, hperm, hsublist⟩ := id hsub
    exact ⟨hperm.nodup_iff.mp (h.distinct.sublist hsublist), fun i hi => h.taken i (hsub.subset hi)⟩
  | true =>
    rw [hnumbering, if_pos rfl, List.singleton_append] at hsub
    obtain ⟨ids, hperm, hsublist⟩ := id hsub
    have hnodup : (Id.nth k :: s.ids b).Nodup := List.nodup_cons.mpr ⟨hfresh, h.distinct⟩
    refine ⟨hperm.nodup_iff.mp (hnodup.sublist hsublist), fun i hi => ?_⟩
    rcases List.mem_cons.mp (hsub.subset hi) with rfl | hold
    · exact ⟨k, Nat.lt_succ_self k, rfl⟩
    · exact (h.taken i hold).succ

include agrees

omit after in
theorem Booked.sent_turn {r : Request} (hmem : .request r ∈ s'.shared.wire) :
    (b.book (task.booking? s.shared)).Knows r.id := by
  rw [agrees.wire] at hmem
  rcases step.writes with hsame | ⟨m, d, rfl, hwire⟩
  · rw [hsame] at hmem
    exact (h.sent r hmem).book _
  · rw [hwire] at hmem
    rcases List.mem_append.mp hmem with hmem | hmem
    · exact (h.sent r hmem).book _
    · obtain rfl := List.mem_singleton.mp hmem
      exact (h.writing r d (before.mem_iff.mpr List.mem_cons_self)).1.book _

omit before after in
theorem Booked.number_turn : s'.shared.pending.nextNumber
    = Int64.ofNat (k + task.isNumbering.toNat + 1) := by
  rw [agrees.pending]
  have hother : task.isNumbering = false → p.shared.pending.nextNumber = s.shared.pending.nextNumber := by
    intro hfalse
    rcases step.tabled.number with hsame | ⟨⟨method, params, purpose, rfl⟩, -⟩
    · exact hsame
    · cases hfalse
  cases hnumbering : task.isNumbering with
  | false => exact (hother hnumbering).trans h.number
  | true =>
    cases task with
    | numbering method params purpose =>
      cases step
      show s.shared.pending.nextNumber + 1 = Int64.ofNat (k + 1 + 1)
      rw [h.number, Int64.ofNat_add (k + 1)]
      rfl
    | _ => cases hnumbering

end Turn

/-! ## Whatever happens -/

theorem booking?_of_idle {a : Action}
    (idle : ∀ t, a = .turn t → (s.task? t).bind (Task.step t s.shared) = none) :
    s.booking? a = none ∧ s.takesId a = false := by
  cases a with
  | turn t =>
    have hidle := idle t rfl
    rw [show s.booking? (.turn t) = (s.task? t).bind fun task =>
        (task.step t s.shared).bind fun _ => task.booking? s.shared from rfl,
      show s.takesId (.turn t) = (s.task? t).any Task.isNumbering from rfl]
    cases htask : s.task? t with
    | none => exact ⟨rfl, rfl⟩
    | some task =>
      rw [htask, Option.bind_some] at hidle
      rw [Option.bind_some, Option.any_some, hidle]
      refine ⟨rfl, ?_⟩
      cases task with
      | numbering method params p => cases hidle
      | _ => rfl
  | _ => exact ⟨rfl, rfl⟩

/-- What callers do, and what comes in, leaves the table as it is. -/
theorem Booked.still (h : s.Booked k b) (named : s'.Named) (sealed : s'.Sealed) {old new others : List Task}
    (recasts : Task.Recasts old new) (before : s.places.Perm (old ++ others))
    (after : s'.places.Perm (new ++ others)) (agrees : Agrees s.shared s'.shared) : s'.Booked k b := by
  have hcarried : ∀ {α : Type} (f : Task → Option α), new.filterMap f = old.filterMap f →
      (s.places.filterMap f).Perm (s'.places.filterMap f) := by
    intro α f hsame
    refine (before.filterMap f).trans (List.Perm.trans ?_ (after.filterMap f).symm)
    rw [List.filterMap_append, List.filterMap_append, hsame]
  have hids : (s.ids b).Perm (s'.ids b) := (hcarried _ recasts.entering).append_right _
  have hold : ∀ {x}, x ∈ others → x ∈ s.places :=
    fun hmem => before.mem_iff.mpr (List.mem_append_right _ hmem)
  exact {
    named, sealed
    sound := h.sound
    table := agrees.pending ▸ h.table
    emptied := h.emptied
    plain := by
      intro x hmem
      rcases List.mem_append.mp (after.mem_iff.mp hmem) with hnew | hother
      · exact recasts.plain x hnew
      · exact h.plain x (hold hother)
    owned := h.owned.perm (hcarried _ recasts.waiters)
    number := agrees.pending ▸ h.number
    distinct := hids.nodup_iff.mp h.distinct
    taken := fun id hid => h.taken id (hids.mem_iff.mpr hid)
    sent := agrees.wire ▸ h.sent
    writing := by
      intro r d hmem
      rcases List.mem_append.mp (after.mem_iff.mp hmem) with hnew | hother
      · obtain ⟨rfl, d', hwriting⟩ := recasts.requests hnew
        exact ⟨(h.writing r d' (before.mem_iff.mpr (List.mem_append_left _ hwriting))).1, nofun⟩
      · exact h.writing r d (hold hother)
    ending := Ending.still h.ending recasts before after agrees }

/-- **Whatever happens, the requests of a session go their way.** -/
theorem Booked.act (h : s.Booked k b) (few : k + 1 < 2 ^ 64) (a : Action) :
    (s.act a).Booked (k + (s.takesId a).toNat) (b.book (s.booking? a)) := by
  have hnamed := h.named.act a
  have hsealed := h.sealed.happens (h.named.happens_act a)
  have hmoves := h.named.moves_act a
  generalize s.act a = s' at *
  cases hmoves with
  | still recasts before after agrees idle =>
    obtain ⟨hbooking, htakes⟩ := booking?_of_idle idle
    rw [hbooking, htakes]
    exact h.still hnamed hsealed recasts before after agrees
  | turn htask takes before after agrees =>
    rename_i t task p others
    have step : task.Steps t s.shared p := .of_step takes
    have hbooking : s.booking? (.turn t) = task.booking? s.shared := by
      simp only [booking?, htask, Option.bind_some, takes]
    have htakes : s.takesId (.turn t) = task.isNumbering := by
      rw [takesId, htask, Option.any_some]
    have hless : k < 2 ^ 64 := Nat.lt_of_succ_lt few
    obtain ⟨hholds, hpasses⟩ := h.books step before
    obtain ⟨hdistinct, htaken⟩ := h.distinct_turn step before after few
    rw [hbooking, htakes]
    exact {
      named := hnamed
      sealed := hsealed
      sound := hpasses.sound h.sound (Nat.lt_of_le_of_lt h.length_issued_le hless)
      table := agrees.pending ▸ hholds
      emptied := hpasses.emptied h.sound h.emptied
      plain := by
        intro x hmem
        rcases mem_places_turn after hmem with hnext | ⟨r, rfl⟩ | hother
        · exact step.plain (h.plain task (before.mem_iff.mpr List.mem_cons_self)) hnext
        · trivial
        · exact h.plain x (before.mem_iff.mpr (List.mem_cons_of_mem _ hother))
      owned := h.owned_turn step before after hless
      number := h.number_turn step agrees
      distinct := hdistinct
      taken := htaken
      sent := fun r => h.sent_turn step before agrees
      writing := fun r d => h.writing_turn step before after hless
      ending := Ending.turn step agrees h.ending before after }

/-- The first of some actions goes first in the book. -/
theorem run_bookings_cons (b : CallBook) (s : Session) (a : Action) (rest : List Action) :
    b.run (s.bookings (a :: rest)) = (b.book (s.booking? a)).run ((s.act a).bookings rest) :=
  CallBook.run_append _ _ _

/-- The calls of a session after some actions, whose book is that of what they did to the table. -/
theorem Booked.run (h : s.Booked k b) (actions : List Action)
    (few : k + s.idsTaken actions + 1 < 2 ^ 64) :
    (s.run actions).Booked (k + s.idsTaken actions) (b.run (s.bookings actions)) := by
  induction actions generalizing s k b with
  | nil => exact h
  | cons a rest ih =>
    rw [idsTaken_cons] at few ⊢
    rw [run_bookings_cons]
    exact ih (h.act (by omega) a) few

/-- What every action keeps of the book and the session is kept in a run. -/
theorem Booked.keeps {P : CallBook → Session → Prop}
    (act : ∀ {k b s}, s.Booked k b → k + 1 < 2 ^ 64 → P b s → ∀ a, P (b.book (s.booking? a)) (s.act a))
    (h : s.Booked k b) (hP : P b s) (actions : List Action) (few : k + s.idsTaken actions + 1 < 2 ^ 64) :
    P (b.run (s.bookings actions)) (s.run actions) := by
  induction actions generalizing s k b with
  | nil => exact hP
  | cons a rest ih =>
    rw [idsTaken_cons] at few
    rw [run_bookings_cons]
    have hless : k + 1 < 2 ^ 64 := by omega
    exact ih (h.act hless a) (act h hless hP a) few

end Session

end LanguageClient
