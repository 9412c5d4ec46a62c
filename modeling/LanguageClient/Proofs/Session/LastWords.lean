import LanguageClient.Proofs.Session.DocumentOrder
import LanguageClient.Proofs.Session.Farewell

/-!
# LanguageClient.Proofs.Session.LastWords -- nothing is said after the farewell

Once a session is past its readiness, it says nothing but what was owed by calls that had passed their checks,
and a document changes only by an operation whose call found the session ready. In a considerate run nothing
but `exit` comes after `shutdown`, nothing after `exit`, and no document changes while the session is shut
down (`nothing_after_farewell`). A call that has passed its check may be overtaken (`farewell_overtaken`).
-/

namespace LanguageClient

/-! ## Operations on documents -/

namespace Task

/-- The operation that a task has to do, once its call was let in. -/
def operation? : Task → Option DocumentOperation
  | .locking operation | .editing operation => some operation
  | _ => none

variable {me : TaskId} {s : Shared} {task next : Task} {p : Progress} {o : DocumentOperation}

theorem IsSequel.no_operation (h : next.IsSequel) : next.operation? = none := by
  cases h <;> rfl

/-- Operations are let in only while the session is ready. -/
theorem Steps.operation (h : Steps me s task p) (hnext : p.next = some next) (ho : next.operation? = some o) :
    task.operation? = some o ∨ task = .called (.edit o) ∧ s.lifecycle.phase = .ready := by
  have sequel : next.IsSequel → False := fun hsequel => nomatch hsequel.no_operation.symm.trans ho
  cases h with
  | taken hentry hready =>
    rename_i c first
    cases hnext
    cases c with
    | edit operation =>
      cases hentry
      cases ho
      exact .inr ⟨rfl, hready⟩
    | _ => cases hentry <;> cases ho
  | locked _ =>
    cases hnext
    exact .inl ho
  | unregistered _ | left | settled _ =>
    cases hnext
    exact (sequel (Purpose.sequel_settled _ _)).elim
  | notFound _ | unnoticed _ =>
    cases hnext
    exact (sequel (sequel_cancelled _)).elim
  | written _ => exact (sequel (Sending.sequel_done hnext)).elim
  | closed => exact (sequel (Aftermath.sequel_done hnext)).elim
  | _ =>
    cases hnext
    try cases ho

theorem Leaves.no_operation {rest : List Task} (h : task.Leaves rest) {x : Task} (hx : x ∈ rest) :
    x.operation? = none := by
  cases h.remnant hx <;> rfl

/-- Documents change only where an operation is done. -/
theorem Steps.documents (h : Steps me s task p) :
    p.shared.documents = s.documents ∨ ∃ operation, task = .editing operation := by
  cases h with
  | edited _ => exact .inr ⟨_, rfl⟩
  | _ => exact .inl rfl

end Task

namespace Session

variable {s s' : Session} {t : TaskId} {task : Task} {a : Action} {o : DocumentOperation}

theorem Happens.documents (h : Happens s a s') : s'.shared.documents = s.shared.documents ∨
    ∃ t operation, a = .turn t ∧ (t, .editing operation) ∈ s.tasks := by
  have after : ∀ (shared : Shared) (t : TaskId) (next : Option Task),
      (shared.after t next).documents = shared.documents := by
    intro shared t next
    obtain ⟨holder, hafter⟩ := shared.after_eq t next
    rw [hafter]
  cases h with
  | nothing | call _ | arrive _ | endInput _ | breakOutflow _ | pass _ => exact .inl rfl
  | turn step moved =>
    rcases step.documents with hsame | ⟨operation, rfl⟩
    · exact .inl (moved.shared ▸ (after _ _ _).trans hsame)
    · exact .inr ⟨_, operation, rfl, moved.here⟩
  | drop leaves moved => exact .inl (moved.shared ▸ after _ _ _)
  | await moved | collect _ moved => exact .inl (congrArg Shared.documents moved.shared)

/-- The call of an operation was let in when the session was ready. -/
def LetIn (options : SessionOptions) (actions : List Action) (t : TaskId) (o : DocumentOperation) : Prop :=
  ∃ before after, actions = before ++ .turn t :: after
    ∧ ((create options).run before).task? t = some (.called (.edit o))
    ∧ ((create options).run before).shared.lifecycle.phase = .ready

theorem LetIn.append {options : SessionOptions} {actions : List Action} (h : LetIn options actions t o)
    (later : List Action) : LetIn options (actions ++ later) t o := by
  obtain ⟨before, after, rfl, hcalled⟩ := h
  exact ⟨before, after ++ later, by simp, hcalled⟩

theorem letIn_of_operation (options : SessionOptions) (actions : List Action)
    (here : (t, task) ∈ ((create options).run actions).tasks) (ho : task.operation? = some o) :
    LetIn options actions t o := by
  induction actions using List.reverseRecOn generalizing t task with
  | nil =>
    cases List.mem_singleton.mp here
    cases ho
  | append_singleton actions a ih =>
    have hnamed := (named_create options).run actions
    have hact : (create options).run (actions ++ [a]) = ((create options).run actions).act a :=
      run_append _ _ _
    rw [hact] at here
    cases (hnamed.happens_act a).arises here with
    | stays here => exact (ih here ho).append [a]
    | steps action here step next =>
      rcases step.operation next ho with ho | ⟨rfl, hready⟩
      · exact (ih here ho).append [a]
      · exact ⟨actions, [], by rw [action], hnamed.task?_eq_some_iff.mpr here, hready⟩
    | called action new | asked new | awaited action here => cases ho
    | left action here leaves mem new => cases (leaves.no_operation mem).symm.trans ho

/-- While the session leaves, no operation is done any more. -/
theorem Leaving.no_operation (h : s.Leaving t) (hs : s.Named) {u : TaskId} (here : (u, task) ∈ s.tasks) :
    task.operation? = none := by
  cases ho : task.operation? with
  | none => rfl
  | some o =>
    have howed : task.owed = [.notification o.method] := by
      unfold Task.operation? at ho
      split at ho <;> cases ho <;> rfl
    by_cases hu : u = t
    · subst hu
      obtain ⟨said, last, -, -, hwords⟩ := h.sent
      rw [hs.owes_eq here, howed] at hwords
      have hmem : Part.notification o.method ∈ Role.closing.words :=
        hwords.subset (List.mem_append_right _ List.mem_cons_self)
      exact absurd hmem o.not_farewell
    · cases howed.symm.trans (h.alone u task here hu)

theorem Leaving.documents (h : s.Leaving t) (hs : s.Named) (hsealed : s.Sealed) {later : List Action}
    (considerate : s.Considerate later) : (s.run later).shared.documents = s.shared.documents := by
  induction later generalizing s t with
  | nil => rfl
  | cons a rest ih =>
    obtain ⟨minds, considerate⟩ := considerate
    have happened := hs.happens_act a
    obtain ⟨u, hleaving⟩ := h.happens hs hsealed happened minds
    have hrest := ih hleaving (hs.act a) (hsealed.happens happened) considerate
    rcases happened.documents with hsame | ⟨v, operation, -, here⟩
    · exact hrest.trans hsame
    · cases h.no_operation hs here

/-! ## Whole runs -/

theorem considerate_append {before later : List Action} :
    s.Considerate (before ++ later) ↔ s.Considerate before ∧ (s.run before).Considerate later := by
  induction before generalizing s with
  | nil => exact (and_iff_right trivial).symm
  | cons a rest ih => exact (and_congr_right fun _ => ih).trans and_assoc.symm

/-- What holds of the last words of a session. -/
structure SaysFarewell (options : SessionOptions) (actions : List Action) : Prop where
  /-- A session past its readiness says nothing but what its tasks owe, whatever happens. -/
  past : ((create options).run actions).shared.IsPast → ∀ later, ∃ said,
    ((create options).run (actions ++ later)).shared.sent = ((create options).run actions).shared.sent ++ said
      ∧ (said ++ ((create options).run (actions ++ later)).owed).Subperm ((create options).run actions).owed
  /-- Documents change only by operations whose calls were let in when the session was ready. -/
  edits : ∀ a, (((create options).run actions).act a).shared.documents
      ≠ ((create options).run actions).shared.documents →
    ∃ t o, a = .turn t ∧ ((create options).run actions).task? t = some (.editing o) ∧ LetIn options actions t o
  /-- In a considerate run nothing but `exit` comes after `shutdown`. -/
  shutdown : (create options).Considerate actions → ∀ before after,
    ((create options).run actions).shared.sent = before ++ .shutdown :: after → after <+: [.exit]
  /-- Nothing comes after `exit`. -/
  exit : (create options).Considerate actions → ∀ before after,
    ((create options).run actions).shared.sent = before ++ .exit :: after → after = []
  once : (create options).Considerate actions → ((create options).run actions).shared.sent.count .exit ≤ 1
  /-- No document changes any more when the session is being shut down. -/
  documents : (create options).Considerate actions → ∀ before later, actions = before ++ later →
    ((create options).run before).shared.lifecycle.phase = .shuttingDown →
    ((create options).run actions).shared.documents = ((create options).run before).shared.documents

/-- **Nothing is said after the farewell**, unless it was owed before. -/
theorem nothing_after_farewell (options : SessionOptions) (actions : List Action) :
    SaysFarewell options actions := by
  have hproper : ∀ actions, ((create options).run actions).Proper := (proper_create options).run
  have hnamed := (hproper actions).named
  have hpolite : ∀ {actions}, (create options).Considerate actions → ((create options).run actions).Polite :=
    Polite.run (.inl (speaking_create options)) (named_create options) (sealed_create options)
  -- a session that still speaks has said no last words
  have hends : (create options).Considerate actions → ∀ {p : Part} {before after : List Part}, p.IsFarewell →
      ((create options).run actions).shared.sent = before ++ p :: after →
      ∃ owed, EndsBy ((create options).run actions).shared.sent owed := by
    intro considerate p before after hp hsent
    rcases hpolite considerate with hspeaking | ⟨t, hleaving⟩
    · exact absurd hp (hspeaking.sent p (hsent ▸ List.mem_append_right _ List.mem_cons_self))
    · exact ⟨_, hleaving.sent⟩
  exact {
    past := by
      intro hpast later
      rw [run_append]
      exact said_of_past hnamed hpast later
    edits := by
      intro a hchanged
      rcases (hnamed.happens_act a).documents with hsame | ⟨t, o, action, here⟩
      · exact absurd hsame hchanged
      · exact ⟨t, o, action, hnamed.task?_eq_some_iff.mpr here, letIn_of_operation options actions here rfl⟩
    shutdown := by
      intro considerate before after hsent
      obtain ⟨owed, h⟩ := hends considerate (by decide) hsent
      exact h.after_shutdown hsent
    exit := by
      intro considerate before after hsent
      obtain ⟨owed, h⟩ := hends considerate (by decide) hsent
      exact h.after_exit hsent
    once := by
      intro considerate
      rcases hpolite considerate with hspeaking | ⟨t, hleaving⟩
      · have hnone := List.count_eq_zero.mpr fun hmem => hspeaking.sent .exit hmem (by decide)
        exact hnone ▸ Nat.zero_le 1
      · exact hleaving.sent.exit_once
    documents := by
      rintro considerate before later rfl hphase
      obtain ⟨hbefore, hlater⟩ := considerate_append.mp considerate
      rw [run_append]
      rcases hpolite hbefore with hspeaking | ⟨t, hleaving⟩
      · exact absurd hphase hspeaking.phase
      · exact hleaving.documents (hproper before).named (hproper before).sealed hlater }

/-- Documents are worked on from two sides, and then the session is shut down. -/
def contendedFarewell : List Action :=
  contended ++ .call .shutdown :: List.replicate 5 (.turn 4) ++
    .arrive (Frame.bodyBytes (Message.encode (.response (.success (.number 2) .null)))) :: .turn readLoop ::
    List.replicate 5 (.turn 4)

theorem nothing_after_farewell_contended :
    (create {}).Considerate contendedFarewell
      ∧ ((create {}).run contendedFarewell).shared.sent = [.handshake, .initialized,
        .notification "textDocument/didOpen", .notification "textDocument/didChange", .shutdown, .exit]
      ∧ SaysFarewell {} contendedFarewell := by
  have hrun : (create {}).Considerate contendedFarewell
      ∧ ((create {}).run contendedFarewell).shared.sent = [.handshake, .initialized,
        .notification "textDocument/didOpen", .notification "textDocument/didChange", .shutdown, .exit] := by
    decide +kernel
  exact ⟨hrun.1, hrun.2, nothing_after_farewell {} contendedFarewell⟩

/-- A notification passes its check, and is written when `shutdown` was. -/
def overtaken : List Action :=
  handshaken ++ [.call (.notify "workspace/ping" none), .turn 2, .call .shutdown] ++
    List.replicate 5 (.turn 3) ++ [.turn 2]

/-- Two callers close a session that was never opened. -/
def closedTwice : List Action := [.call .shutdown, .call .shutdown, .turn 1, .turn 2, .turn 1, .turn 2]

/-- The call of an operation is let in, and the session is shut down. -/
def letInBefore : List Action :=
  handshaken ++ [.call (.edit (.opening "file:///a" "text" none "one")), .turn 2, .call .shutdown, .turn 3,
    .turn 3]

/-- A caller asks the server by himself to shut down, and another tells it something. -/
def askedByHand : List Action :=
  handshaken ++ .call (.request "shutdown" none none) :: List.replicate 4 (.turn 2) ++
    .call (.notify "workspace/ping" none) :: List.replicate 2 (.turn 3)

/-- The caller that closes a session that was never opened leaves, and then it is opened. -/
def openedAfterLeaving : List Action :=
  [.call .shutdown, .turn 1, .turn 1, .drop 1] ++ .call .handshake :: List.replicate 4 (.turn 2)

/-- A call that has passed its check may be overtaken by one that closes the session, and calls that close a
session that was never opened by each other. Callers can also say the last words by themselves, or leave when
they were said. -/
theorem farewell_overtaken :
    ¬ (∀ actions before after, ((create {}).run actions).shared.sent = before ++ .shutdown :: after →
        after <+: [.exit])
      ∧ ¬ (∀ actions before after, ((create {}).run actions).shared.sent = before ++ .exit :: after → after = [])
      ∧ ¬ (∀ actions, ((create {}).run actions).shared.sent.count .exit ≤ 1)
      ∧ ¬ (∀ before later, ((create {}).run before).shared.lifecycle.phase = .shuttingDown →
        ((create {}).run (before ++ later)).shared.documents = ((create {}).run before).shared.documents)
      ∧ ((create {}).run askedByHand).shared.sent
        = [.handshake, .initialized, .shutdown, .notification "workspace/ping"]
      ∧ ((create {}).run openedAfterLeaving).shared.sent = [.exit, .handshake] := by
  refine ⟨fun h => ?_, fun h => ?_, fun h => ?_, fun h => ?_, by decide +kernel, by decide +kernel⟩
  · have hsent : ((create {}).run overtaken).shared.sent
        = [.handshake, .initialized] ++ .shutdown :: [.notification "workspace/ping"] := by decide +kernel
    exact absurd (h overtaken _ _ hsent) (by decide)
  · have hsent : ((create {}).run closedTwice).shared.sent = [] ++ .exit :: [.exit] := by decide +kernel
    cases h closedTwice _ _ hsent
  · exact absurd (h closedTwice) (by decide +kernel)
  · have hrun : ((create {}).run letInBefore).shared.lifecycle.phase = .shuttingDown
        ∧ ((create {}).run letInBefore).shared.documents.isOpen "file:///a" = false
        ∧ ((create {}).run (letInBefore ++ [.turn 2, .turn 2])).shared.documents.isOpen "file:///a" = true := by
      decide +kernel
    obtain ⟨hphase, hclosed, hopen⟩ := hrun
    rw [h letInBefore [.turn 2, .turn 2] hphase, hclosed] at hopen
    cases hopen

end Session

end LanguageClient
