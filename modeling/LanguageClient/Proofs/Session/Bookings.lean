import LanguageClient.Proofs.Calls.Owners
import LanguageClient.Proofs.Session.Waiters

/-!
# LanguageClient.Proofs.Session.Bookings -- the table of calls in a session, as a book

Whatever a session does to its table of calls is an action on a book of calls (`Session.booking?`), so that a
run of the session is a run of the book (`Session.bookings`), and what is known of such runs holds of the
table. Only the number of the next id is not part of the book. `Task.Steps.books` says how the book and the
waiter of a task change together in a step.
-/

namespace LanguageClient

/-! ## The number of the next id -/

namespace PendingCalls

/-- The table with another number for the next id. -/
def renumber (t : PendingCalls) (n : Int64) : PendingCalls := { t with nextNumber := n }

variable (t : PendingCalls) (n : Int64)

theorem settle_renumber (id : Id) (o : Outcome) :
    (t.renumber n).settle id o = ((t.settle id o).1, (t.settle id o).2.renumber n) := by
  have hfind : (t.renumber n).find? id = t.find? id := rfl
  unfold settle
  rw [hfind]
  cases t.find? id <;> rfl

theorem resolve_renumber (r : Response) :
    (t.renumber n).resolve r = ((t.resolve r).1, (t.resolve r).2.renumber n) := by
  unfold resolve
  cases r.id with
  | none => rfl
  | some id => exact t.settle_renumber n id _

theorem register_renumber (id : Id) (method : String) :
    (t.renumber n).register id method
      = (t.register id method).map (fun (w, u) => (w, u.renumber n)) := by
  have hfind : (t.renumber n).find? id = t.find? id := rfl
  have hclosed : (t.renumber n).closed = t.closed := rfl
  unfold register
  rw [hfind, hclosed]
  split
  · rfl
  · split <;> rfl

theorem poll_renumber (w : Waiter) :
    (t.renumber n).poll w = (t.poll w).map (fun (o, u) => (o, u.renumber n)) := by
  have houtcome : (t.renumber n).outcome? w = t.outcome? w := rfl
  unfold poll
  rw [houtcome]
  cases t.outcome? w <;> rfl

end PendingCalls

/-! ## What a step is for the book -/

namespace Task

/-- What the next step of a task does to the table of calls. -/
def booking? (s : Shared) : Task → Option CallAction
  | .registering id method _ _ => some (.register id method)
  | .rejecting w _ _ => some (.reject w.id .connectionClosed)
  | .leaving w _ _ | .abandoning w _ => some (.drop w.serial.toNat)
  | .waiting w _ _ => some (.poll w.serial.toNat)
  | .cancelling id _ => some (.cancel id)
  | .closing _ => some .close
  | .reading =>
    match s.next? with
    | some (.ok (.response r), _) => some (.resolve r)
    | some (.error (.protocol (some id) cause), _) => some (.reject id (.protocol (some id) cause))
    | _ => none
  | _ => none

end Task

namespace Session

/-- What an action does to the table of calls. -/
def booking? (s : Session) : Action → Option CallAction
  | .turn t => (s.task? t).bind fun task => (task.step t s.shared).bind fun _ => task.booking? s.shared
  | _ => none

/-- What some actions do to the table of calls. -/
def bookings (s : Session) : List Action → List CallAction
  | [] => []
  | a :: rest => (s.booking? a).toList ++ (s.act a).bookings rest

theorem bookings_append (s : Session) (before later : List Action) :
    s.bookings (before ++ later) = s.bookings before ++ (s.run before).bookings later := by
  induction before generalizing s with
  | nil => rfl
  | cons a before ih => rw [List.cons_append, bookings, bookings, ih, List.append_assoc]; rfl

end Session

namespace CallBook

/-- The book after an action, if there is one. -/
def book (b : CallBook) (a : Option CallAction) : CallBook := b.run a.toList

/-- A table of calls is that of the book, but for the number of the next id. -/
def Holds (b : CallBook) (t : PendingCalls) : Prop := ∃ n, t = b.table.renumber n

/-- A registration that is taken is entered in the book, and one that is not leaves no trace. -/
theorem register_cases (b : CallBook) (id : Id) (method : String) :
    (∃ f, b.table.register id method = .error f ∧ b.book (some (.register id method)) = b) ∨
      b.table.closed = false ∧ (∀ c ∈ b.table.calls, c.id ≠ id)
        ∧ b.table.register id method = .ok (⟨id, b.table.nextSerial⟩, (b.enter id method).table)
        ∧ b.book (some (.register id method)) = b.enter id method := by
  have hbook : b.book (some (.register id method)) = (b.act (.register id method)).2 := rfl
  rw [hbook, act_register]
  unfold PendingCalls.register
  cases hclosed : b.table.closed with
  | true => exact .inl ⟨_, rfl, rfl⟩
  | false =>
    by_cases hfree : ∃ c ∈ b.table.calls, c.id = id
    · have hfound : (b.table.find? id).isSome = true := PendingCalls.find?_isSome_iff.mpr hfree
      rw [if_pos hfound, if_pos hfree]
      exact .inl ⟨_, rfl, rfl⟩
    · have hfound : ¬ (b.table.find? id).isSome = true := fun h => hfree (PendingCalls.find?_isSome_iff.mp h)
      rw [if_neg hfound, if_neg hfree]
      have hfresh : ∀ c ∈ b.table.calls, c.id ≠ id := fun c hc heq => hfree ⟨c, hc, heq⟩
      refine .inr ⟨rfl, hfresh, ?_, rfl⟩
      simp [enter, hclosed]

/-! ### A table that a book holds -/

variable {b : CallBook} {t : PendingCalls}

section Holds

variable (h : b.Holds t)

include h

/-- A registration that is taken hands a waiter out. -/
theorem Holds.registered {id : Id} {method : String} {w : Waiter} {t' : PendingCalls}
    (hregister : t.register id method = .ok (w, t')) :
    (b.book (some (.register id method))).Holds t'
      ∧ b.Passes (b.book (some (.register id method))) none (some w) := by
  obtain ⟨n, rfl⟩ := h
  rw [PendingCalls.register_renumber] at hregister
  rcases b.register_cases id method with ⟨f, herror, -⟩ | ⟨hopen, hfresh, hok, hbook⟩
  · rw [herror] at hregister
    cases hregister
  · rw [hok] at hregister
    cases hregister
    rw [hbook]
    exact ⟨⟨n, rfl⟩, .enters hopen hfresh⟩

theorem Holds.unregistered {id : Id} {method : String} {f : Fault} (hregister : t.register id method = .error f) :
    b.book (some (.register id method)) = b := by
  obtain ⟨n, rfl⟩ := h
  rw [PendingCalls.register_renumber] at hregister
  rcases b.register_cases id method with ⟨f, -, hbook⟩ | ⟨-, -, hok, -⟩
  · exact hbook
  · rw [hok] at hregister
    cases hregister

theorem Holds.settle (id : Id) (f : Fault) : (b.book (some (.reject id f))).Holds (t.settle id (.error f)).2 := by
  obtain ⟨n, rfl⟩ := h
  rw [PendingCalls.settle_renumber]
  exact ⟨n, rfl⟩

theorem Holds.resolve (r : Response) : (b.book (some (.resolve r))).Holds (t.resolve r).2 := by
  obtain ⟨n, rfl⟩ := h
  rw [PendingCalls.resolve_renumber]
  exact ⟨n, rfl⟩

/-- A cancellation that finds no call leaves no trace. -/
theorem Holds.not_cancelled {id : Id} (hcancel : (t.cancel id).1 = false) : b.book (some (.cancel id)) = b := by
  obtain ⟨n, rfl⟩ := h
  have htable : (b.table.cancel id).2 = b.table := by
    unfold PendingCalls.cancel PendingCalls.reject at hcancel ⊢
    rw [PendingCalls.settle_renumber] at hcancel
    unfold PendingCalls.settle at hcancel ⊢
    cases hfind : b.table.find? id with
    | none => rfl
    | some call => simp [hfind] at hcancel
  show { b with table := (b.table.cancel id).2 } = b
  rw [htable]

variable {w : Waiter} (hw : b.issued[w.serial.toNat]? = some w)

include hw

theorem Holds.abandon : (b.book (some (.drop w.serial.toNat))).Holds (t.abandon w) := by
  obtain ⟨n, rfl⟩ := h
  show (b.act (.drop w.serial.toNat)).2.Holds _
  rw [act_drop hw]
  exact ⟨n, rfl⟩

/-- An outcome that is there is taken by the waiter. -/
theorem Holds.polled {o : Outcome} {t' : PendingCalls} (hpoll : t.poll w = some (o, t')) :
    (b.book (some (.poll w.serial.toNat))).Holds t'
      ∧ b.Passes (b.book (some (.poll w.serial.toNat))) (some w) none := by
  obtain ⟨n, rfl⟩ := h
  rw [PendingCalls.poll_renumber] at hpoll
  obtain ⟨⟨o, u⟩, hfound, heq⟩ := Option.map_eq_some_iff.mp hpoll
  obtain ⟨rfl, rfl⟩ := Prod.mk.inj heq
  have hact : (b.act (.poll w.serial.toNat)).2 = { b with table := u } := by
    simp only [act, hw, Option.bind_some, hfound]
  have houtcome : b.table.outcome? w ≠ none := by
    obtain ⟨o', ho', -⟩ := Option.map_eq_some_iff.mp hfound
    exact fun hnone => Option.some_ne_none _ (ho'.symm.trans hnone)
  refine ⟨?_, .ends hw (.inr ⟨rfl, houtcome⟩)⟩
  show (b.act (.poll w.serial.toNat)).2.Holds _
  rw [hact]
  exact ⟨n, rfl⟩

theorem Holds.not_polled (hpoll : t.poll w = none) : b.book (some (.poll w.serial.toNat)) = b := by
  obtain ⟨n, rfl⟩ := h
  rw [PendingCalls.poll_renumber] at hpoll
  show (b.act (.poll w.serial.toNat)).2 = b
  simp only [act, hw, Option.bind_some, Option.map_eq_none_iff.mp hpoll]

end Holds

end CallBook

namespace Task

variable {me : TaskId} {s : Shared} {task : Task} {p : Progress} {b : CallBook}

/-- What a step does to the table of calls, it does to the book, and the waiter of the task with it. -/
theorem Steps.books (h : Steps me s task p) (hplain : task.Plain) (htable : b.Holds s.pending)
    (hissued : ∀ w, task.waiter? = some w → b.issued[w.serial.toNat]? = some w) :
    (b.book (task.booking? s)).Holds p.shared.pending
      ∧ b.Passes (b.book (task.booking? s)) task.waiter? (p.next.bind waiter?) := by
  cases h with
  | taken hentry hready =>
    rename_i c first
    cases c <;> cases hentry <;> exact ⟨htable, .keeps⟩
  | numbered =>
    obtain ⟨n, hn⟩ := htable
    exact ⟨⟨_, by rw [hn]; rfl⟩, .keeps⟩
  | registered hregister => exact htable.registered hregister
  | unregistered hregister =>
    rename_i id method params purpose f
    have hbook : b.book (booking? s (.registering id method params purpose)) = b := htable.unregistered hregister
    rw [hbook]
    refine ⟨htable, ?_⟩
    show b.Passes b none (purpose.failed _).waiter?
    rw [Purpose.failed, Purpose.waiter?_settled]
    exact .keeps
  | written _ =>
    refine ⟨htable, ?_⟩
    rw [Sending.waiter?_done hplain]
    exact .keeps
  | rejected => exact ⟨htable.settle _ _, .settles rfl⟩
  | left =>
    rename_i w f purpose
    have hw := hissued w rfl
    refine ⟨htable.abandon hw, ?_⟩
    show b.Passes (b.act (.drop w.serial.toNat)).2 (some w) (purpose.failed f).waiter?
    rw [Purpose.failed, Purpose.waiter?_settled]
    exact .ends hw (.inl rfl)
  | abandonedHandshake | abandoned _ =>
    have hw := hissued _ rfl
    exact ⟨htable.abandon hw, .ends hw (.inl rfl)⟩
  | settled hpoll =>
    rename_i w purpose deadline outcome pending
    obtain ⟨hholds, hpasses⟩ := htable.polled (hissued w rfl) hpoll
    refine ⟨hholds, ?_⟩
    show b.Passes _ (some w) (purpose.settled outcome).waiter?
    rw [Purpose.waiter?_settled]
    exact hpasses
  | timedOut hpoll htime =>
    rename_i w purpose time
    have hbook : b.book (booking? s (.waiting w purpose (some time))) = b := htable.not_polled (hissued w rfl) hpoll
    rw [hbook]
    exact ⟨htable, .keeps⟩
  | cancelled _ => exact ⟨htable.settle _ _, .settles rfl⟩
  | notFound hcancel =>
    rename_i id after
    have hbook : b.book (booking? s (.cancelling id after)) = b := htable.not_cancelled hcancel
    rw [hbook]
    refine ⟨htable, ?_⟩
    show b.Passes b (after.map (·.1)) (Task.cancelled after).waiter?
    rw [waiter?_cancelled]
    exact .keeps
  | unnoticed hphase =>
    rename_i id after
    refine ⟨htable, ?_⟩
    show b.Passes b (after.map (·.1)) (Task.cancelled after).waiter?
    rw [waiter?_cancelled]
    exact .keeps
  | closed =>
    rename_i a
    obtain ⟨n, hn⟩ := htable
    refine ⟨⟨n, by rw [hn]; rfl⟩, ?_⟩
    rw [Aftermath.waiter?_done hplain]
    exact .settles rfl
  | readRequest hnext | readNotification hnext _ | readStray hnext =>
    simp only [booking?, hnext]
    exact ⟨htable, .keeps⟩
  | readResponse hnext =>
    simp only [booking?, hnext]
    exact ⟨htable.resolve _, .settles rfl⟩
  | readBadResponse hnext =>
    simp only [booking?, hnext]
    exact ⟨htable.settle _ _, .settles rfl⟩
  | readEnd hnext hfatal =>
    rename_i f rest
    have hbooking : booking? s .reading = none := by
      simp only [booking?, hnext]
      split
      · next heq => cases heq
      · next id cause _ heq =>
        cases heq
        exact absurd rfl (hfatal _ _)
      · rfl
    rw [hbooking]
    exact ⟨htable, .keeps⟩
  | _ => exact ⟨htable, .keeps⟩

end Task

end LanguageClient
