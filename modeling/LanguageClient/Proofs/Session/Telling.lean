import LanguageClient.Proofs.Session.Notices
import LanguageClient.Proofs.Session.Sealing

/-!
# LanguageClient.Proofs.Session.Telling -- operations on documents, and what the server is told of them

Operations on documents may be called from many sides at once, and an operation is done before the server is
told of it. As the documents are held from one to the other, the operations of a session have an order, and
what the server was told, with what is still due, is what the operations tell in this order
(`Session.Telling`). Whatever happens keeps this, unless a call is dropped while it holds the documents, or a
caller tells the server of documents by himself (`Session.Undisturbed`).
-/

namespace LanguageClient

/-! ## Sessions whose documents are not disturbed -/

namespace Session

/-- No call is dropped while it holds the documents, and no caller tells the server of them by himself. -/
def Spares (s : Session) : Action → Prop
  | .drop t => s.shared.documentsHolder ≠ some t
  | .call (.notify method _) => method ∉ documentMethods
  | _ => True

instance (s : Session) : (a : Action) → Decidable (s.Spares a)
  | .drop t => inferInstanceAs (Decidable (s.shared.documentsHolder ≠ some t))
  | .call (.notify method _) => inferInstanceAs (Decidable (method ∉ documentMethods))
  | .call .handshake | .call .shutdown | .call (.request ..) | .call (.start ..) | .call (.cancel _)
  | .call (.edit _) | .call (.lookUp _) | .call .closed | .turn _ | .await _ | .collect _ | .arrive _
  | .endInput _ | .breakOutflow | .pass _ => .isTrue trivial

/-- The documents are not disturbed in a run. -/
def Undisturbed (s : Session) : List Action → Prop
  | [] => True
  | a :: rest => s.Spares a ∧ (s.act a).Undisturbed rest

instance Undisturbed.decide (s : Session) : (actions : List Action) → Decidable (s.Undisturbed actions)
  | [] => .isTrue trivial
  | a :: rest => @instDecidableAnd _ _ inferInstance (Undisturbed.decide (s.act a) rest)

end Session

/-! ## Who holds the documents -/

theorem Shared.holder_after {s : Shared} {t u : TaskId} {next : Option Task} (hu : u ≠ t)
    (h : s.documentsHolder = some u) : (s.after t next).documentsHolder = some u := by
  have hother : s.documentsHolder ≠ some t := fun heq => hu (Option.some.inj (h.symm.trans heq))
  unfold after releaseDocuments
  rw [if_neg hother]
  split <;> exact h

theorem Shared.after_of_going_on {s : Shared} {t : TaskId} {next : Task} (h : next.isOver = false) :
    s.after t (some next) = s := by
  unfold after
  rw [Option.all_some, h]
  rfl

namespace Task

variable {me : TaskId} {s : Shared} {task : Task} {p : Progress}

theorem Tells.discreet (h : Tells me s task p) {next : Task} (hnext : p.next = some next) :
    next.Discreet := by
  cases h with
  | other documents holder wire told aloof => exact (aloof next hnext).discreet
  | edits done =>
    cases hnext
    exact fun _ => ⟨_, rfl⟩
  | locks free | writes flows | fails stuck | ends =>
    cases hnext
    trivial

/-- Where the documents are held after a step, they were held before, or are locked in it. -/
theorem Tells.holds (h : Tells me s task p) (hheld : task.holdsDocuments = true → s.documentsHolder = some me)
    {next : Task} (hnext : p.next = some next) (hholds : next.holdsDocuments = true) :
    p.shared.documentsHolder = some me := by
  cases h with
  | locks free => rfl
  | edits done | fails stuck | ends => exact hheld rfl
  | writes flows =>
    cases hnext
    cases hholds
  | other documents holder wire told aloof =>
    have hfree := (aloof next hnext).free
    rw [hholds] at hfree
    cases hfree

/-- A step does not take the documents from another task. -/
theorem Tells.holder (h : Tells me s task p) {u : TaskId} (hu : s.documentsHolder = some u) :
    p.shared.documentsHolder = some u := by
  cases h with
  | locks free =>
    rw [free] at hu
    cases hu
  | other documents holder wire told aloof => exact holder.trans hu
  | _ => exact hu

theorem aloof_afterWrite {d : Sending} (h : task ∈ afterWrite d) : task.Aloof := by
  rcases mem_afterWrite h with ⟨w, p, rfl, -⟩ | ⟨result, rfl, -⟩ <;> exact ⟨rfl, trivial⟩

/-- What is left of a call does nothing with documents, if the call did not hold them. -/
theorem Leaves.aloof {rest : List Task} (h : task.Leaves rest) (haloof : task.Aloof) :
    ∀ x ∈ rest, x.Aloof := by
  intro x hmem
  cases h with
  | called | locking | closingOutflow | finished _ => cases hmem
  | waiting | started =>
    cases List.mem_singleton.mp hmem
    exact ⟨rfl, trivial⟩
  | writing _ =>
    rcases List.mem_cons.mp hmem with rfl | hmem
    · refine ⟨rfl, fun hdocument => ?_⟩
      obtain ⟨answer, rfl⟩ := haloof.discreet hdocument
      cases haloof.free
    · exact aloof_afterWrite hmem
  | terminating _ | closing _ =>
    rcases List.mem_cons.mp hmem with rfl | hmem
    · exact ⟨rfl, trivial⟩
    · exact aloof_afterWrite hmem

end Task

namespace Session

/-- Who holds the documents holds them alone, and nobody else tells the server of them. -/
structure Held (s : Session) : Prop where
  named : s.Named
  discreet : ∀ t task, (t, task) ∈ s.tasks → task.Discreet
  holding : ∀ t task, (t, task) ∈ s.tasks → task.holdsDocuments = true → s.shared.documentsHolder = some t

variable {s s' : Session} {t : TaskId} {task : Task} {p : Progress}

theorem held_create (options : SessionOptions) : (create options).Held where
  named := named_create options
  discreet t task hmem := by
    cases List.mem_singleton.mp hmem
    trivial
  holding t task hmem hholds := by
    cases List.mem_singleton.mp hmem
    cases hholds

/-- Who holds the documents is one task. -/
theorem Held.alone (h : s.Held) (here : (t, task) ∈ s.tasks) (hholds : task.holdsDocuments = true)
    {u : TaskId} {x : Task} (hmem : (u, x) ∈ s.tasks) (hx : x.holdsDocuments = true) : u = t ∧ x = task := by
  have hname : u = t :=
    Option.some.inj ((h.holding u x hmem hx).symm.trans (h.holding t task here hholds))
  subst hname
  exact ⟨rfl, h.named.unique hmem here⟩

theorem Held.turn (h : s.Held) (tells : task.Tells t s.shared p)
    (moved : Replaced s t task p.next (p.asked.toList.map .answering) (p.shared.after t p.next) s') :
    s'.Held where
  named := moved.named h.named
  discreet := by
    refine moved.forall_tasks (fun next => tells.discreet) (fun u asked hmem _ => ?_)
      (fun u other hmem _ => h.discreet u other hmem)
    obtain ⟨r, -, rfl⟩ := List.mem_map.mp hmem
    trivial
  holding := by
    rw [moved.shared]
    refine moved.forall_tasks (fun next hnext hholds => ?_) (fun u asked hmem _ hholds => ?_)
      (fun u other hmem hu hholds => ?_)
    · rw [hnext, Shared.after_of_going_on (Task.not_over_of_holds hholds)]
      exact tells.holds (h.holding t task moved.here) hnext hholds
    · obtain ⟨r, -, rfl⟩ := List.mem_map.mp hmem
      cases hholds
    · exact Shared.holder_after hu (tells.holder (h.holding u other hmem hholds))

/-- A new task does nothing with documents, unless it takes a step to them. -/
theorem Held.new_aloof (h : s.Held) {a : Action} (spares : s.Spares a) {u : TaskId} {x : Task}
    (arises : Arises s a u x) :
    (u, x) ∈ s.tasks ∨ x.Aloof ∨ ∃ before p, a = .turn u ∧ (u, before) ∈ s.tasks
      ∧ before.Tells u s.shared p ∧ p.next = some x := by
  cases arises with
  | stays here => exact .inl here
  | steps action here step next =>
    exact .inr (.inr ⟨_, _, action, here, step.tells (h.discreet _ _ here), next⟩)
  | asked new | awaited action here => exact .inr (.inl ⟨rfl, trivial⟩)
  | called action new =>
    rename_i c
    subst action
    cases c with
    | notify method params => exact .inr (.inl ⟨rfl, spares⟩)
    | _ => exact .inr (.inl ⟨rfl, trivial⟩)
  | left action here leaves mem new =>
    rename_i t before rest
    subst action
    have hfree : before.holdsDocuments = false := by
      by_contra hholds
      exact spares (h.holding t before here (Bool.of_not_eq_false hholds))
    exact .inr (.inl (leaves.aloof ⟨hfree, h.discreet t before here⟩ x mem))

theorem Held.happens (h : s.Held) {a : Action} (happened : Happens s a s') (spares : s.Spares a) :
    s'.Held := by
  have hnew : ∀ u x, (u, x) ∈ s'.tasks → _ := fun u x hmem => h.new_aloof spares (happened.arises hmem)
  have hstill : (∀ t, a ≠ .turn t) → (∀ u x, (u, x) ∈ s'.tasks → (u, x) ∈ s.tasks →
      s.shared.documentsHolder = some u → s'.shared.documentsHolder = some u) → s'.Held := by
    intro hturn hkept
    refine ⟨happened.named h.named, fun u x hmem => ?_, fun u x hmem hholds => ?_⟩
    · rcases hnew u x hmem with hold | haloof | ⟨_, _, heq, -⟩
      · exact h.discreet u x hold
      · exact haloof.discreet
      · exact absurd heq (hturn u)
    · rcases hnew u x hmem with hold | haloof | ⟨_, _, heq, -⟩
      · exact hkept u x hmem hold (h.holding u x hold hholds)
      · rw [haloof.free] at hholds
        cases hholds
      · exact absurd heq (hturn u)
  cases happened with
  | nothing => exact h
  | turn step moved => exact h.turn (step.tells (h.discreet _ _ moved.here)) moved
  | drop leaves moved =>
    rename_i t task rest
    refine hstill nofun fun u x hmem hold hholder => ?_
    have hu : u ≠ t := fun heq => spares (heq ▸ hholder)
    rw [moved.shared]
    exact Shared.holder_after hu hholder
  | await moved | collect _ moved =>
    refine hstill nofun fun u x hmem hold hholder => ?_
    rw [moved.shared]
    exact hholder
  | call _ | arrive _ | endInput _ | breakOutflow _ | pass _ =>
    exact hstill nofun fun u x hmem hold hholder => hholder

/-! ## What the server is told -/

/-- What a session has told of documents, and what is still due: the operations that were done, in order. -/
structure Telling (s : Session) (os : List DocumentOperation) (told due : List DocumentNotice) : Prop where
  held : s.Held
  done : s.shared.documents = DocumentStore.after os
  notices : DocumentStore.notices {} os = told ++ due
  wire : s.shared.wire.filter Message.isDocument = told.map DocumentNotice.message
  /-- As long as messages can be written, what is due is about to be written. -/
  owed : s.shared.outflow = .flowing → ∀ t task m, (t, task) ∈ s.tasks → task.due? = some m →
    due.map DocumentNotice.message = [m]
  idle : s.shared.outflow = .flowing → due ≠ [] → ∃ t task m, (t, task) ∈ s.tasks ∧ task.due? = some m
  /-- What cannot be written ends the session. -/
  late : due ≠ [] → s.shared.lifecycle.phase = .terminated ∨
    ∃ t task, (t, task) ∈ s.tasks ∧ task.isTelling = true

variable {os : List DocumentOperation} {told due : List DocumentNotice}

theorem telling_create (options : SessionOptions) : (create options).Telling [] [] [] where
  held := held_create options
  done := rfl
  notices := rfl
  wire := rfl
  owed _ t task m hmem hdue := by
    cases List.mem_singleton.mp hmem
    cases hdue
  idle _ hne := absurd rfl hne
  late hne := absurd rfl hne

/-- Nothing is done with documents, and the server is told nothing of them. -/
structure Untold (s s' : Shared) : Prop where
  documents : s'.documents = s.documents
  wire : s'.wire.filter Message.isDocument = s.wire.filter Message.isDocument
  flowing : s'.outflow = .flowing → s.outflow = .flowing
  phase : s.lifecycle.phase = .terminated → s'.lifecycle.phase = .terminated

theorem Untold.trans {s s' s'' : Shared} (h : Untold s s') (h' : Untold s' s'') : Untold s s'' where
  documents := h'.documents.trans h.documents
  wire := h'.wire.trans h.wire
  flowing := h.flowing ∘ h'.flowing
  phase := h'.phase ∘ h.phase

theorem untold_after (s : Shared) (t : TaskId) (next : Option Task) : Untold s (s.after t next) := by
  obtain ⟨holder, hafter⟩ := s.after_eq t next
  rw [hafter]
  exact ⟨rfl, rfl, id, id⟩

/-- Who is about to tell something goes on to be. -/
theorem Telling.still (h : s.Telling os told due) (held : s'.Held) (untold : Untold s.shared s'.shared)
    (old : ∀ t task, (t, task) ∈ s'.tasks → task.isTelling = true → (t, task) ∈ s.tasks)
    (kept : ∀ t task, (t, task) ∈ s.tasks → task.isTelling = true → (t, task) ∈ s'.tasks) :
    s'.Telling os told due where
  held := held
  done := untold.documents.trans h.done
  notices := h.notices
  wire := untold.wire.trans h.wire
  owed hflow t task m hmem hdue :=
    h.owed (untold.flowing hflow) t task m (old t task hmem (Task.telling_of_due hdue)) hdue
  idle hflow hne := by
    obtain ⟨t, task, m, hmem, hdue⟩ := h.idle (untold.flowing hflow) hne
    exact ⟨t, task, m, kept t task hmem (Task.telling_of_due hdue), hdue⟩
  late hne := by
    rcases h.late hne with hphase | ⟨t, task, hmem, htelling⟩
    · exact .inl (untold.phase hphase)
    · exact .inr ⟨t, task, kept t task hmem htelling, htelling⟩

/-- A task goes on that has nothing to tell. -/
theorem Telling.replaced (h : s.Telling os told due) (held : s'.Held) {stay : Option Task} {new : List Task}
    {shared : Shared} (moved : Replaced s t task stay new shared s') (untold : Untold s.shared shared)
    (before : task.isTelling = false) (stays : ∀ x, stay = some x → x.isTelling = false)
    (fresh : ∀ x ∈ new, x.isTelling = false) : s'.Telling os told due := by
  refine h.still held (moved.shared ▸ untold) (fun u x hmem htelling => ?_) (fun u x hmem htelling => ?_)
  · rcases moved.mem hmem with ⟨-, hstay⟩ | ⟨hnew, -⟩ | ⟨here, -⟩
    · rw [stays x hstay] at htelling
      cases htelling
    · rw [fresh x hnew] at htelling
      cases htelling
    · exact here
  · refine moved.mem_other hmem fun heq => ?_
    subst heq
    rw [h.held.named.unique hmem moved.here, before] at htelling
    cases htelling

/-- As long as messages can be written, nothing is due when an operation begins. -/
theorem Telling.nothing_due (h : s.Telling os told due) (hflow : s.shared.outflow = .flowing)
    (here : (t, task) ∈ s.tasks) (hholds : task.holdsDocuments = true) (hdue : task.due? = none) :
    due = [] := by
  by_contra hne
  obtain ⟨u, x, m, hmem, hx⟩ := h.idle hflow hne
  obtain ⟨-, rfl⟩ := h.held.alone here hholds hmem (Task.holds_of_telling (Task.telling_of_due hx))
  rw [hdue] at hx
  cases hx

/-- Documents, wire, direction and phase are the same. -/
structure SameTold (s s' : Shared) : Prop where
  documents : s'.documents = s.documents
  wire : s'.wire = s.wire
  outflow : s'.outflow = s.outflow
  phase : s'.lifecycle.phase = s.lifecycle.phase

/-- An operation is done. -/
theorem Telling.edits (h : s.Telling os told due) (held : s'.Held) {operation : DocumentOperation}
    {n : DocumentNotice} {documents : DocumentStore} (here : (t, .editing operation) ∈ s.tasks)
    (done : s.shared.documents.apply operation = .ok (n, documents))
    (same : SameTold { s.shared with documents } s'.shared)
    (stay : (t, .writing n.message (.document n.answer)) ∈ s'.tasks)
    (only : ∀ u x, (u, x) ∈ s'.tasks → x.isTelling = true → x = .writing n.message (.document n.answer)) :
    s'.Telling (os ++ [operation]) told (due ++ [n]) where
  held := held
  done := by
    rw [same.documents, DocumentStore.after, DocumentStore.run_append]
    show documents = (DocumentStore.after os).act operation
    rw [← h.done, DocumentStore.act, done]
  notices := by
    rw [DocumentStore.notices_append, h.notices, List.append_assoc]
    show _ = told ++ (due ++ [n])
    have hone : (DocumentStore.after os).notices [operation] = [n] := by
      rw [← h.done, DocumentStore.notices, DocumentStore.notice?, done]
      rfl
    exact congrArg (fun ns => told ++ (due ++ ns)) hone
  wire := by
    rw [same.wire]
    exact h.wire
  owed hflow u x m hmem hdue := by
    obtain rfl := only u x hmem (Task.telling_of_due hdue)
    rw [h.nothing_due (same.outflow ▸ hflow) here rfl rfl]
    exact congrArg (fun m => [m]) (Option.some.inj hdue)
  idle _ _ := ⟨t, _, _, stay, rfl⟩
  late _ := .inr ⟨t, _, stay, rfl⟩

/-- The server is told of an operation. -/
theorem Telling.writes (h : s.Telling os told due) (held : s'.Held) {m : Message} {answer : Answer}
    (here : (t, .writing m (.document answer)) ∈ s.tasks) (flows : s.shared.outflow = .flowing)
    (same : SameTold { s.shared with wire := s.shared.wire ++ [m] } s'.shared)
    (none : ∀ u x, (u, x) ∈ s'.tasks → x.isTelling = false) :
    s'.Telling os (told ++ due) [] where
  held := held
  done := same.documents.trans h.done
  notices := h.notices.trans (List.append_nil _).symm
  wire := by
    have hone := h.owed flows t _ m here rfl
    have hm : m.isDocument = true := by
      have hmem : m ∈ due.map DocumentNotice.message := hone ▸ List.mem_singleton.mpr rfl
      obtain ⟨n, -, rfl⟩ := List.mem_map.mp hmem
      exact n.isDocument_message
    rw [same.wire, List.filter_append, List.filter_singleton, hm, h.wire, List.map_append, hone]
    rfl
  owed _ u x m' hmem hdue := by
    have htelling := Task.telling_of_due hdue
    rw [none u x hmem] at htelling
    cases htelling
  idle _ hne := absurd rfl hne
  late hne := absurd rfl hne

/-- What operations tell is told, or due, after each step. -/
theorem Telling.turn (h : s.Telling os told due) (step : task.Steps t s.shared p)
    (moved : Replaced s t task p.next (p.asked.toList.map .answering) (p.shared.after t p.next) s') :
    ∃ os told due, s'.Telling os told due := by
  have tells := step.tells (h.held.discreet t task moved.here)
  have held := h.held.turn tells moved
  have same : SameTold p.shared s'.shared := by
    obtain ⟨holder, hafter⟩ := p.shared.after_eq t p.next
    rw [moved.shared, hafter]
    exact ⟨rfl, rfl, rfl, rfl⟩
  have fresh : ∀ x ∈ p.asked.toList.map Task.answering, x.isTelling = false := by
    intro x hmem
    obtain ⟨r, -, rfl⟩ := List.mem_map.mp hmem
    rfl
  -- nobody but the task itself has something to tell after the step, if it holds the documents
  have only : task.holdsDocuments = true → ∀ u x, (u, x) ∈ s'.tasks → x.isTelling = true →
      p.next = some x := by
    intro hholds u x hmem htelling
    rcases moved.mem hmem with ⟨-, hnext⟩ | ⟨hnew, -⟩ | ⟨here, hne⟩
    · exact hnext
    · rw [fresh x hnew] at htelling
      cases htelling
    · exact absurd (h.held.alone moved.here hholds here (Task.holds_of_telling htelling)).1 hne
  have stay : ∀ {x : Task}, p.next = some x → (t, x) ∈ s'.tasks := fun hnext => (hnext ▸ moved).mem_stay
  cases tells with
  | locks free =>
    have untold : Untold s.shared { s.shared with documentsHolder := some t } := ⟨rfl, rfl, id, id⟩
    refine ⟨_, _, _, h.replaced held moved (untold.trans (untold_after _ _ _)) rfl ?_ fresh⟩
    intro x hnext
    cases hnext
    rfl
  | other documents holder wire before aloof =>
    have untold : Untold s.shared p.shared := {
      documents
      wire := by
        rcases wire with hsame | ⟨m, hm, hwire⟩
        · rw [hsame]
        · rw [hwire, List.filter_append, List.filter_singleton, hm]
          exact List.append_nil _
      flowing := step.flowing
      phase := fun hphase => step.terminated_iff.mpr (.inl hphase) }
    exact ⟨_, _, _, h.replaced held moved (untold.trans (untold_after _ _ _)) before
      (fun x hnext => (aloof x hnext).not_telling) fresh⟩
  | edits done =>
    exact ⟨_, _, _, h.edits held moved.here done same (stay rfl)
      fun u x hmem htelling => (Option.some.inj (only rfl u x hmem htelling)).symm⟩
  | writes flows =>
    refine ⟨_, _, _, h.writes held moved.here flows same fun u x hmem => ?_⟩
    by_contra htelling
    cases only rfl u x hmem (Bool.of_not_eq_false htelling)
    exact htelling rfl
  | fails stuck =>
    exact ⟨os, told, due, {
      held := held
      done := same.documents.trans h.done
      notices := h.notices
      wire := same.wire ▸ h.wire
      owed := fun hflow => absurd (same.outflow ▸ hflow) stuck
      idle := fun hflow => absurd (same.outflow ▸ hflow) stuck
      late := fun _ => .inr ⟨t, _, stay rfl, rfl⟩ }⟩
  | ends =>
    exact ⟨os, told, due, {
      held := held
      done := same.documents.trans h.done
      notices := h.notices
      wire := same.wire ▸ h.wire
      owed := fun _ u x m hmem hdue => by
        cases only rfl u x hmem (Task.telling_of_due hdue)
        cases hdue
      idle := fun hflow hne => absurd (h.nothing_due (same.outflow ▸ hflow) moved.here rfl rfl) hne
      late := fun _ => .inl same.phase }⟩

/-- Whatever happens, what operations tell is told or due. -/
theorem Telling.happens (h : s.Telling os told due) {a : Action} (happened : Happens s a s')
    (spares : s.Spares a) : ∃ os told due, s'.Telling os told due := by
  have held := h.held.happens happened spares
  cases happened with
  | nothing => exact ⟨_, _, _, h⟩
  | turn step moved => exact h.turn step moved
  | call c =>
    refine ⟨os, told, due, h.still held ⟨rfl, rfl, id, id⟩ (fun u x hmem htelling => ?_)
      fun u x hmem _ => List.mem_append_left _ hmem⟩
    rcases List.mem_append.mp hmem with here | hnew
    · exact here
    · cases List.mem_singleton.mp hnew
      cases htelling
  | drop leaves moved =>
    rename_i t task rest
    have haloof : task.Aloof := by
      refine ⟨?_, h.held.discreet t task moved.here⟩
      by_contra hholds
      exact spares (h.held.holding t task moved.here (Bool.of_not_eq_false hholds))
    exact ⟨_, _, _, h.replaced held moved (untold_after _ _ _) haloof.not_telling
      (fun x hstay => by cases hstay) fun x hmem => (leaves.aloof haloof x hmem).not_telling⟩
  | await moved =>
    refine ⟨_, _, _, h.replaced held moved ⟨rfl, rfl, id, id⟩ rfl (fun x hstay => ?_) (List.forall_mem_nil _)⟩
    cases hstay
    rfl
  | collect taken moved =>
    exact ⟨_, _, _, h.replaced held moved ⟨rfl, rfl, id, id⟩ rfl (fun x hstay => by cases hstay)
      (List.forall_mem_nil _)⟩
  | arrive _ | endInput _ | pass _ =>
    exact ⟨_, _, _, h.still held ⟨rfl, rfl, id, id⟩ (fun _ _ hmem _ => hmem) fun _ _ hmem _ => hmem⟩
  | breakOutflow hflow =>
    exact ⟨_, _, _, h.still held ⟨rfl, rfl, fun _ => hflow, id⟩ (fun _ _ hmem _ => hmem)
      fun _ _ hmem _ => hmem⟩

theorem Telling.run (h : s.Telling os told due) {actions : List Action} (hrun : s.Undisturbed actions) :
    ∃ os told due, (s.run actions).Telling os told due := by
  induction actions generalizing s os told due with
  | nil => exact ⟨_, _, _, h⟩
  | cons a rest ih =>
    obtain ⟨spares, hrest⟩ := hrun
    obtain ⟨_, _, _, hact⟩ := h.happens (h.held.named.happens_act a) spares
    exact ih hact hrest

end Session

end LanguageClient
