import LanguageClient.Proofs.Documents.Order
import LanguageClient.Proofs.Session.Places

/-!
# LanguageClient.Proofs.Session.Notices -- what the wire says of documents

A notification of one of four methods says which document was opened, changed, saved or closed, and in which
version (`Message.mark?`). What the operations of a store tell the server can be read off the wire so
(`mark?_message`), and `Task.Tells` says what a step has to do with it: the documents are locked, worked on,
told of, or not touched.
-/

namespace LanguageClient

/-! ## Marks -/

/-- The methods of the notifications about documents. -/
def documentMethods : List String :=
  [Method.didOpen.name, Method.didChange.name, Method.didSave.name, Method.didClose.name]

/-- The member of an object. -/
def Json.at? (j : Json) (key : String) : Option Json :=
  match j with
  | .object members => members.lookup key
  | _ => none

/-- What a notification says of a document. -/
structure DocumentMark where
  method : String
  uri : DocumentUri
  version : Option Int
  deriving DecidableEq

namespace Message

/-- A notification about a document. -/
def isDocument : Message → Bool
  | .notification n => decide (n.method ∈ documentMethods)
  | _ => false

/-- What a notification about a document says of it. -/
def mark? (m : Message) : Option DocumentMark :=
  match m with
  | .notification n =>
    if n.method ∈ documentMethods then
      match n.params.bind (·.at? "textDocument") with
      | some document =>
        match document.at? "uri", document.at? "version" with
        | some (.str uri), some (.int version) => some ⟨n.method, uri, some version⟩
        | some (.str uri), _ => some ⟨n.method, uri, none⟩
        | _, _ => none
      | none => none
    else none
  | _ => none

theorem mark?_of_not_document {m : Message} (h : m.isDocument = false) : m.mark? = none := by
  cases m with
  | notification n => exact if_neg (of_decide_eq_false h)
  | request r | response r => rfl

end Message

namespace DocumentNotice

/-- The message that tells the server of an operation on a document. -/
def message (n : DocumentNotice) : Message := .notification n.notification

/-- What a notice says of its document. -/
def mark (n : DocumentNotice) : DocumentMark := ⟨n.notification.method, n.uri, n.version?.map Int32.toInt⟩

theorem isDocument_message (n : DocumentNotice) : n.message.isDocument = true := by
  cases n <;> rfl

theorem mark?_message (n : DocumentNotice) : n.message.mark? = some n.mark := by
  cases n with
  | saved params =>
    obtain ⟨document, text⟩ := params
    cases text <;> rfl
  | opened _ | changed _ | closed _ => rfl

end DocumentNotice

/-! ## Places -/

namespace Task

/-- The documents are held at these places. -/
def holdsDocuments : Task → Bool
  | .editing _ | .writing _ (.document _) | .terminating (.write _ (.document _))
  | .closing (.write _ (.document _)) => true
  | _ => false

/-- An operation is done, and whether the server is told of it is not decided. -/
def isTelling : Task → Bool
  | .writing _ (.document _) | .terminating (.write _ (.document _)) => true
  | _ => false

/-- What a task is about to tell the server of a document. -/
def due? : Task → Option Message
  | .writing m (.document _) => some m
  | _ => none

/-- Nothing is told of documents but by the operations on them. -/
def Discreet : Task → Prop
  | .called (.notify method _) => method ∉ documentMethods
  | .writing m d => m.isDocument = true → ∃ answer, d = .document answer
  | _ => True

/-- A place where nothing is done with documents. -/
structure Aloof (task : Task) : Prop where
  free : task.holdsDocuments = false
  discreet : task.Discreet

variable {task : Task}

theorem holds_of_telling (h : task.isTelling = true) : task.holdsDocuments = true := by
  unfold isTelling at h
  split at h
  · rfl
  · rfl
  · cases h

theorem telling_of_due {m : Message} (h : task.due? = some m) : task.isTelling = true := by
  unfold due? at h
  split at h
  · rfl
  · cases h

theorem Aloof.not_telling (h : task.Aloof) : task.isTelling = false := by
  by_contra htelling
  have hfree := h.free
  rw [holds_of_telling (Bool.of_not_eq_false htelling)] at hfree
  cases hfree

theorem not_over_of_holds (h : task.holdsDocuments = true) : task.isOver = false := by
  cases task with
  | finished answer => cases h
  | _ => rfl

end Task

theorem Purpose.aloof_settled (p : Purpose) (outcome : Outcome) : (p.settled outcome).Aloof := by
  have hsettles := p.settles outcome
  generalize p.settled outcome = next at hsettles
  cases hsettles with
  | refused | unreadable | result | waiter => exact ⟨rfl, trivial⟩
  | accepted | shutdown => exact ⟨rfl, nofun⟩

theorem Task.aloof_cancelled (after : AfterCancel) : (Task.cancelled after).Aloof := by
  cases after <;> exact ⟨rfl, trivial⟩

theorem Sending.aloof_done {d : Sending} {s : Shared} {r : Except Fault Unit} {next : Task}
    (h : d.done s r = some next) : next.Aloof := by
  cases d with
  | request w p =>
    rcases r with f | _ <;> cases h
    · exact ⟨rfl, trivial⟩
    · cases p <;> exact ⟨rfl, trivial⟩
  | initialized result => rcases r with f | _ <;> cases h <;> exact ⟨rfl, trivial⟩
  | exit answer | notification | document answer =>
    cases h
    exact ⟨rfl, trivial⟩
  | cancellation after =>
    cases h
    exact Task.aloof_cancelled after
  | loose => cases h

theorem Aftermath.aloof_done {a : Aftermath} {s : Shared} {next : Task} (h : a.done s = some next) :
    next.Aloof := by
  cases a with
  | write f d => exact Sending.aloof_done h
  | handshake f | exit answer =>
    cases h
    exact ⟨rfl, trivial⟩
  | abandoned | ended => cases h

/-! ## Steps -/

namespace Task

/-- What a step has to do with documents. -/
inductive Tells (me : TaskId) (s : Shared) : Task → Progress → Prop
  /-- The documents are held from now on. -/
  | locks {operation : DocumentOperation} (free : s.documentsHolder = none) :
      Tells me s (.locking operation)
        ⟨{ s with documentsHolder := some me }, some (.editing operation), none⟩
  /-- An operation is done, and the server is to be told of it. -/
  | edits {operation : DocumentOperation} {n : DocumentNotice} {documents : DocumentStore}
      (done : s.documents.apply operation = .ok (n, documents)) :
      Tells me s (.editing operation)
        ⟨{ s with documents }, some (.writing n.message (.document n.answer)), none⟩
  /-- The server is told of it. -/
  | writes {m : Message} {answer : Answer} (flows : s.outflow = .flowing) :
      Tells me s (.writing m (.document answer))
        ⟨{ s with wire := s.wire ++ [m] }, some (.finished (.ok answer)), none⟩
  /-- The server cannot be told of it, which ends the session. -/
  | fails {m : Message} {answer : Answer} (stuck : s.outflow ≠ .flowing) :
      Tells me s (.writing m (.document answer))
        ⟨s, some (.terminating (.write (.io .brokenPipe) (.document answer))), none⟩
  | ends {f : Fault} {answer : Answer} :
      Tells me s (.terminating (.write f (.document answer)))
        ⟨{ s with lifecycle := s.lifecycle.terminate }, some (.closing (.write f (.document answer))), none⟩
  /-- Nothing is done with documents, or the operation was refused, or the end of the session is over. -/
  | other {task : Task} {p : Progress} (documents : p.shared.documents = s.documents)
      (holder : p.shared.documentsHolder = s.documentsHolder)
      (wire : p.shared.wire = s.wire ∨ ∃ m, m.isDocument = false ∧ p.shared.wire = s.wire ++ [m])
      (told : task.isTelling = false) (next : ∀ next, p.next = some next → next.Aloof) : Tells me s task p

variable {me : TaskId} {s : Shared} {task : Task} {p : Progress}

theorem Steps.tells (h : Steps me s task p) (hdiscreet : task.Discreet) : Tells me s task p := by
  cases h with
  | locked hfree => exact .locks hfree
  | edited happly => exact .edits happly
  | written hflow =>
    rename_i m d
    by_cases hdocument : ∃ answer, d = .document answer
    · obtain ⟨answer, rfl⟩ := hdocument
      exact .writes hflow
    · have hm : m.isDocument = false := by
        by_contra htrue
        exact hdocument (hdiscreet (Bool.of_not_eq_false htrue))
      refine .other rfl rfl (.inr ⟨m, hm, rfl⟩) ?_ fun next hnext => Sending.aloof_done hnext
      cases d with
      | document answer => exact absurd ⟨answer, rfl⟩ hdocument
      | _ => rfl
  | unwritten hflow =>
    rename_i m d
    cases d with
    | document answer => exact .fails hflow
    | _ => exact .other rfl rfl (.inl rfl) rfl fun next hnext => by cases hnext; exact ⟨rfl, trivial⟩
  | terminated =>
    rename_i a
    cases a with
    | write f d =>
      cases d with
      | document answer => exact .ends
      | _ => exact .other rfl rfl (.inl rfl) rfl fun next hnext => by cases hnext; exact ⟨rfl, trivial⟩
    | _ => exact .other rfl rfl (.inl rfl) rfl fun next hnext => by cases hnext; exact ⟨rfl, trivial⟩
  | closed => exact .other rfl rfl (.inl rfl) rfl fun next hnext => Aftermath.aloof_done hnext
  | taken hentry hready =>
    rename_i c first
    refine .other rfl rfl (.inl rfl) rfl fun next hnext => ?_
    cases hnext
    cases c with
    | notify method params =>
      cases hentry
      exact ⟨rfl, fun htrue => absurd (of_decide_eq_true htrue) hdiscreet⟩
    | _ => cases hentry <;> exact ⟨rfl, trivial⟩
  | unregistered _ | left | settled _ =>
    refine .other rfl rfl (.inl rfl) rfl fun next hnext => ?_
    cases hnext
    exact Purpose.aloof_settled _ _
  | notFound _ | unnoticed _ =>
    refine .other rfl rfl (.inl rfl) rfl fun next hnext => ?_
    cases hnext
    exact aloof_cancelled _
  | exitBegun _ | registered _ | noticed _ | answered _ =>
    refine .other rfl rfl (.inl rfl) rfl fun next hnext => ?_
    cases hnext
    exact ⟨rfl, nofun⟩
  | _ =>
    refine .other rfl rfl (.inl rfl) rfl fun next hnext => ?_
    cases hnext
    try exact ⟨rfl, trivial⟩

/-- The lock is left as it is, or taken by who begins to work on the documents. -/
theorem Steps.holder (h : Steps me s task p) : p.shared.documentsHolder = s.documentsHolder ∨
    p.shared.documentsHolder = some me ∧ ∃ operation, p.next = some (.editing operation) := by
  cases h with
  | locked _ => exact .inr ⟨rfl, _, rfl⟩
  | _ => exact .inl rfl

/-- Who holds the documents goes on holding them, or is over. -/
theorem Steps.holds (h : Steps me s task p) (hholds : task.holdsDocuments = true) {next : Task}
    (hnext : p.next = some next) : next.holdsDocuments = true ∨ next.isOver = true := by
  cases h with
  | edited _ | notEdited _ =>
    cases hnext
    first | exact .inl rfl | exact .inr rfl
  | written _ | unwritten _ =>
    rename_i m d _
    cases d with
    | document answer =>
      cases hnext
      first | exact .inl rfl | exact .inr rfl
    | _ => cases hholds
  | terminated | closed =>
    rename_i a
    cases a with
    | write f d =>
      cases d with
      | document answer =>
        cases hnext
        first | exact .inl rfl | exact .inr rfl
      | _ => cases hholds
    | _ => cases hholds
  | _ => cases hholds

end Task

/-! ## The lock -/

theorem Shared.holder_of_after {s : Shared} {t u : TaskId} {next : Option Task}
    (h : (s.after t next).documentsHolder = some u) : s.documentsHolder = some u ∧
      (u = t → ∃ task, next = some task ∧ task.isOver = false) := by
  unfold after releaseDocuments at h
  split at h
  · split at h
    · cases h
    · next hother =>
      refine ⟨h, ?_⟩
      rintro rfl
      exact absurd h hother
  · next hover =>
    refine ⟨h, fun _ => ?_⟩
    cases next with
    | none => exact absurd rfl hover
    | some task => exact ⟨task, rfl, Bool.of_not_eq_true hover⟩

namespace Session

/-- Who has the lock on the documents is at a place where they are held. -/
def Locked (s : Session) : Prop :=
  ∀ t, s.shared.documentsHolder = some t → ∃ task, (t, task) ∈ s.tasks ∧ task.holdsDocuments = true

variable {s s' : Session} {t : TaskId}

theorem locked_create (options : SessionOptions) : (create options).Locked := nofun

/-- A task that holds the documents stays, if it is not the one to which something happens. -/
theorem Locked.beside (h : s.Locked) (hs : s.Named) {task : Task} {stay : Option Task} {new : List Task}
    {shared : Shared} (moved : Replaced s t task stay new shared s') {u : TaskId}
    (hu : s.shared.documentsHolder = some u) (hother : u = t → task.holdsDocuments = false) :
    ∃ task, (u, task) ∈ s'.tasks ∧ task.holdsDocuments = true := by
  obtain ⟨x, hmem, hx⟩ := h u hu
  refine ⟨x, moved.mem_other hmem ?_, hx⟩
  rintro rfl
  rw [hs.unique hmem moved.here, hother rfl] at hx
  cases hx

theorem Locked.happens (h : s.Locked) (hs : s.Named) {a : Action} (happened : Happens s a s') : s'.Locked := by
  intro u hu
  cases happened with
  | nothing | arrive _ | endInput _ | breakOutflow _ | pass _ => exact h u hu
  | call c =>
    obtain ⟨x, hmem, hx⟩ := h u hu
    exact ⟨x, List.mem_append_left _ hmem, hx⟩
  | turn step moved =>
    rename_i t task p
    rw [moved.shared] at hu
    obtain ⟨hholder, hgoes⟩ := Shared.holder_of_after hu
    by_cases hut : u = t
    · subst hut
      obtain ⟨next, hnext, hover⟩ := hgoes rfl
      have hmem : (u, next) ∈ s'.tasks := (hnext ▸ moved).mem_stay
      refine ⟨next, hmem, ?_⟩
      rcases step.holder with hsame | ⟨-, operation, hediting⟩
      · obtain ⟨x, hx, hholds⟩ := h u (hsame.symm.trans hholder)
        obtain rfl := hs.unique hx moved.here
        exact (step.holds hholds hnext).resolve_right (by rw [hover]; decide)
      · cases hediting.symm.trans hnext
        rfl
    · have hsame : p.shared.documentsHolder = s.shared.documentsHolder := by
        rcases step.holder with hsame | ⟨hme, -⟩
        · exact hsame
        · exact absurd (Option.some.inj (hholder.symm.trans hme)) hut
      exact h.beside hs moved (hsame.symm.trans hholder) (absurd · hut)
  | drop leaves moved =>
    rename_i t task rest
    rw [moved.shared] at hu
    obtain ⟨hholder, hgoes⟩ := Shared.holder_of_after hu
    refine h.beside hs moved hholder fun heq => ?_
    obtain ⟨next, hnone, -⟩ := hgoes heq
    cases hnone
  | await moved | collect _ moved =>
    rw [moved.shared] at hu
    exact h.beside hs moved hu fun _ => rfl

variable {task : Task}

theorem Locked.run (h : s.Locked) (hs : s.Named) (actions : List Action) : (s.run actions).Locked := by
  induction actions generalizing s with
  | nil => exact h
  | cons a rest ih => exact ih (h.happens hs (hs.happens_act a)) (hs.act a)

theorem Locked.free (h : s.Locked) (hs : s.Named) (here : s.task? t = some task)
    (hfree : task.holdsDocuments = false) : s.shared.documentsHolder ≠ some t := by
  intro hholder
  obtain ⟨other, there, hholds⟩ := h t hholder
  rw [hs.unique there (hs.task?_eq_some_iff.mp here), hfree] at hholds
  cases hholds

/-- A turn of a task that does not hold the documents. -/
theorem Locked.act_turn (h : s.Locked) (hs : s.Named) (here : s.task? t = some task)
    (hfree : task.holdsDocuments = false) {shared : Shared} {next : Task}
    (step : task.Steps t s.shared ⟨shared, some next, none⟩)
    (hholder : shared.documentsHolder = s.shared.documentsHolder) :
    s.act (.turn t) = { s.replace t (some next) with shared } := by
  have hrelease : shared.releaseDocuments t = shared := if_neg (hholder ▸ h.free hs here hfree)
  simp only [Session.act, step?, here, step.step_eq, Option.getD_some, release]
  split
  · exact congrArg (fun shared => { s.replace t (some next) with shared }) hrelease
  · rfl

/-- A turn of the task that was begun last. -/
theorem Locked.act_begun (h : s.Locked) (hs : s.Named) (hfree : task.holdsDocuments = false) {shared : Shared}
    {next : Task} (step : task.Steps s.nextTask s.shared ⟨shared, some next, none⟩)
    (hholder : shared.documentsHolder = s.shared.documentsHolder) :
    (s.spawn task).act (.turn s.nextTask) = { s with shared }.spawn next := by
  have hlocked : (s.spawn task).Locked := by
    intro t hholder
    obtain ⟨other, there, hholds⟩ := h t hholder
    exact ⟨other, List.mem_append_left _ there, hholds⟩
  rw [hlocked.act_turn (named_spawn hs task) (task?_spawn_self hs task) hfree step hholder,
    hs.replace_spawn task next]
  rfl

/-- The first turn of a task that was just begun, when nothing that is shared is touched. -/
theorem Locked.act_spawned (h : s.Locked) (hs : s.Named) (hfree : task.holdsDocuments = false) {next : Task}
    (step : task.Steps s.nextTask s.shared ⟨s.shared, some next, none⟩) :
    (s.spawn task).act (.turn s.nextTask) = s.spawn next :=
  h.act_begun hs hfree step rfl

theorem locked_run (options : SessionOptions) (actions : List Action) :
    ((create options).run actions).Locked :=
  (locked_create options).run (named_create options) actions

end Session

end LanguageClient
