import LanguageClient.Proofs.Session.Steps
import Mathlib.Data.List.Nodup

/-!
# LanguageClient.Proofs.Session.Places -- what an action does to the tasks of a session

The tasks of a session have names of their own (`Named`), so that what an action does can be said without
the order of the tasks: one of them goes on or is over, some are new, and the others stay as they are
(`Replaced`). `Happens` lists all that actions do to a session, and `happens_act` says that the list is
complete. What a session keeps is shown by cases on it.
-/

namespace LanguageClient

/-- What is shared after a task went on: the documents are free if it is over. -/
def Shared.after (s : Shared) (t : TaskId) (next : Option Task) : Shared :=
  if next.all Task.isOver then s.releaseDocuments t else s

/-- Nothing but the lock on the documents depends on whether a task is over. -/
theorem Shared.after_eq (s : Shared) (t : TaskId) (next : Option Task) :
    ∃ holder, s.after t next = { s with documentsHolder := holder } := by
  unfold after releaseDocuments
  split
  · split
    · exact ⟨none, rfl⟩
    · exact ⟨s.documentsHolder, rfl⟩
  · exact ⟨s.documentsHolder, rfl⟩

namespace Task

/-- What is left of a task when its caller is gone. -/
inductive Leaves : Task → List Task → Prop
  | called {c : Call} : Leaves (.called c) []
  | locking {operation : DocumentOperation} : Leaves (.locking operation) []
  | closingOutflow {answer : Except Fault Answer} : Leaves (.closingOutflow answer) []
  | writing {m : Message} {d : Sending} (h : d ≠ .loose) :
      Leaves (.writing m d) (.writing m .loose :: afterWrite d)
  | terminating {f : Fault} {d : Sending} (h : d ≠ .loose) :
      Leaves (.terminating (.write f d)) (.terminating (.write f .loose) :: afterWrite d)
  | closing {f : Fault} {d : Sending} (h : d ≠ .loose) :
      Leaves (.closing (.write f d)) (.closing (.write f .loose) :: afterWrite d)
  | waiting {w : Waiter} {p : Purpose} {deadline : Option Nat} :
      Leaves (.waiting w p deadline) [.abandoning w p]
  | started {w : Waiter} : Leaves (.finished (.ok (.waiter w))) [.abandoning w .waiter]
  | finished {answer : Except Fault Answer} (h : ∀ w, answer ≠ .ok (.waiter w)) :
      Leaves (.finished answer) []

theorem Leaves.of_remains {task : Task} {rest : List Task} (h : task.remains = some rest) :
    Leaves task rest := by
  unfold remains at h
  split at h <;> cases h
  · exact .called
  · exact .locking
  · exact .closingOutflow
  · next hloose => exact .writing hloose
  · next hloose => exact .terminating hloose
  · next hloose => exact .closing hloose
  · exact .waiting
  · exact .started
  · next hwaiter => exact .finished hwaiter

/-- What is left of a message that is being written, beside the message. -/
theorem mem_afterWrite {d : Sending} {task : Task} (h : task ∈ afterWrite d) :
    (∃ w p, task = .abandoning w p ∧ (d = .request w p ∨ d = .cancellation (some (w, p)))) ∨
      ∃ result, task = .terminating .abandoned ∧ d = .initialized result := by
  unfold afterWrite at h
  split at h
  · next w p => exact .inl ⟨w, p, List.mem_singleton.mp h, .inl rfl⟩
  · next result => exact .inr ⟨result, List.mem_singleton.mp h, rfl⟩
  · next w p => exact .inl ⟨w, p, List.mem_singleton.mp h, .inr rfl⟩
  · cases h

/-- The places at which calls go on that were dropped. -/
inductive IsRemnant : Task → Prop
  | writing (m : Message) : IsRemnant (.writing m .loose)
  | terminating (f : Fault) : IsRemnant (.terminating (.write f .loose))
  | closing (f : Fault) : IsRemnant (.closing (.write f .loose))
  | abandoning (w : Waiter) (p : Purpose) : IsRemnant (.abandoning w p)
  | failing : IsRemnant (.terminating .abandoned)

theorem Leaves.remnant {task : Task} {rest : List Task} (h : task.Leaves rest) {left : Task}
    (hmem : left ∈ rest) : left.IsRemnant := by
  have hwrite : ∀ {first : Task} {d : Sending}, left ∈ first :: afterWrite d → first.IsRemnant →
      left.IsRemnant := by
    intro first d hmem hfirst
    rcases List.mem_cons.mp hmem with rfl | hmem
    · exact hfirst
    · rcases mem_afterWrite hmem with ⟨w, p, rfl, -⟩ | ⟨result, rfl, -⟩
      · exact .abandoning w p
      · exact .failing
  cases h with
  | called | locking | closingOutflow | finished _ => cases hmem
  | waiting | started => exact List.mem_singleton.mp hmem ▸ .abandoning _ _
  | writing _ => exact hwrite hmem (.writing _)
  | terminating _ => exact hwrite hmem (.terminating _)
  | closing _ => exact hwrite hmem (.closing _)

end Task

namespace Session

/-- The tasks of a session have names of their own, and new ones will have others. -/
structure Named (s : Session) : Prop where
  distinct : (s.tasks.map (·.1)).Nodup
  given : ∀ t task, (t, task) ∈ s.tasks → t < s.nextTask
  loop : readLoop < s.nextTask

/-- The tasks beside one. -/
def others (s : Session) (t : TaskId) : List (TaskId × Task) := s.tasks.filter (·.1 ≠ t)

/-- New tasks, under the names from one on. -/
def underNames (first : TaskId) (new : List Task) : List (TaskId × Task) :=
  (List.range' first new.length).zip new

/-- The places at which the tasks of a session are. -/
def places (s : Session) : List Task := s.tasks.map (·.2)

variable {s s' : Session} {t u : TaskId} {task : Task}

/-! ## Tasks and their names -/

theorem named_create (options : SessionOptions) : (create options).Named where
  distinct := List.nodup_singleton _
  given t task hmem := by
    cases List.mem_singleton.mp hmem
    exact Nat.zero_lt_one
  loop := Nat.zero_lt_one

/-- A task stands among the others, which have other names. -/
theorem Named.split (hs : s.Named) (h : (t, task) ∈ s.tasks) :
    ∃ before after, s.tasks = before ++ (t, task) :: after
      ∧ (∀ x ∈ before, x.1 ≠ t) ∧ ∀ x ∈ after, x.1 ≠ t := by
  obtain ⟨before, after, htasks⟩ := List.append_of_mem h
  have hdistinct := hs.distinct
  rw [htasks, List.map_append, List.map_cons, List.nodup_append] at hdistinct
  obtain ⟨-, hafter, hbefore⟩ := hdistinct
  refine ⟨before, after, htasks, fun x hx => ?_, fun x hx => ?_⟩
  · exact hbefore x.1 (List.mem_map_of_mem hx) t List.mem_cons_self
  · intro heq
    exact (List.nodup_cons.mp hafter).1 (List.mem_map.mpr ⟨x, hx, heq⟩)

theorem Named.task?_eq_some_iff (hs : s.Named) : s.task? t = some task ↔ (t, task) ∈ s.tasks := by
  constructor
  · intro h
    obtain ⟨before, after, htasks, -⟩ := List.lookup_eq_some_iff.mp h
    rw [htasks]
    exact List.mem_append_right _ List.mem_cons_self
  · intro h
    obtain ⟨before, after, htasks, hbefore, -⟩ := hs.split h
    exact List.lookup_eq_some_iff.mpr ⟨before, after, htasks, fun x hx => by simpa using (hbefore x hx).symm⟩

/-- A name is the name of one task. -/
theorem Named.unique (hs : s.Named) {other : Task} (h : (t, task) ∈ s.tasks)
    (hother : (t, other) ∈ s.tasks) : task = other :=
  Option.some.inj ((hs.task?_eq_some_iff.mpr h).symm.trans (hs.task?_eq_some_iff.mpr hother))

theorem mem_others : (u, task) ∈ s.others t ↔ (u, task) ∈ s.tasks ∧ u ≠ t := by
  simp [others, List.mem_filter]

theorem Named.perm_others (hs : s.Named) (h : (t, task) ∈ s.tasks) :
    s.tasks.Perm ((t, task) :: s.others t) := by
  obtain ⟨before, after, htasks, hbefore, hafter⟩ := hs.split h
  have hothers : s.others t = before ++ after := by
    unfold others
    rw [htasks, List.filter_append, List.filter_cons_of_neg (by simp),
      List.filter_eq_self.mpr fun x hx => decide_eq_true (hbefore x hx),
      List.filter_eq_self.mpr fun x hx => decide_eq_true (hafter x hx)]
  rw [hothers, htasks]
  exact List.perm_middle

theorem Named.perm_replace (hs : s.Named) (h : (t, task) ∈ s.tasks) (next : Option Task) :
    (s.replace t next).tasks.Perm (next.toList.map (t, ·) ++ s.others t) := by
  have hothers : ∀ tasks : List (TaskId × Task), (∀ x ∈ tasks, x.1 ≠ t) →
      tasks.filterMap (fun x => if x.1 = t then next.map (x.1, ·) else some x) = tasks := by
    intro tasks htasks
    rw [List.filterMap_congr (g := some) fun x hx => if_neg (htasks x hx), List.filterMap_some]
  obtain ⟨before, after, htasks, hbefore, hafter⟩ := hs.split h
  have hperm : (s.others t).Perm (before ++ after) := by
    have hcons := (hs.perm_others h).symm
    rw [htasks] at hcons
    exact (hcons.trans List.perm_middle).cons_inv
  have hreplace : (s.replace t next).tasks = before ++ (next.toList.map (t, ·) ++ after) := by
    unfold replace
    simp only
    rw [htasks, List.filterMap_append, hothers before hbefore, List.filterMap_cons, hothers after hafter]
    cases next <;> simp
  rw [hreplace]
  refine List.perm_append_comm_assoc _ _ _ |>.trans ?_
  exact List.Perm.append_left _ hperm.symm

theorem mem_underNames {first : TaskId} {new : List Task} (h : (u, task) ∈ underNames first new) :
    task ∈ new ∧ first ≤ u ∧ u < first + new.length := by
  obtain ⟨hname, hnew⟩ := List.of_mem_zip h
  exact ⟨hnew, List.mem_range'_1.mp hname⟩

theorem names_underNames (first : TaskId) (new : List Task) :
    (underNames first new).map (·.1) = List.range' first new.length := by
  unfold underNames
  rw [List.map_fst_zip (by simp)]

theorem places_underNames (first : TaskId) (new : List Task) : (underNames first new).map (·.2) = new := by
  unfold underNames
  rw [List.map_snd_zip (by simp)]

theorem underNames_cons (first : TaskId) (task : Task) (rest : List Task) :
    underNames first (task :: rest) = (first, task) :: underNames (first + 1) rest := by
  unfold underNames
  rw [List.length_cons, List.range'_succ, List.zip_cons_cons]

theorem mem_underNames_concat {first : TaskId} {new : List Task} {last : Task} :
    (u, task) ∈ underNames first (new ++ [last]) ↔
      (u, task) ∈ underNames first new ∨ u = first + new.length ∧ task = last := by
  have hnames : List.range' first (new ++ [last]).length
      = List.range' first new.length ++ [first + new.length] := by
    rw [List.length_append, List.length_singleton, List.range'_concat, Nat.one_mul]
  unfold underNames
  rw [hnames, List.zip_append (by simp)]
  simp

/-- Tasks that are added one after another. -/
theorem foldl_spawn (new : List Task) (s : Session) :
    new.foldl spawn s = { s with
      tasks := s.tasks ++ underNames s.nextTask new, nextTask := s.nextTask + new.length } := by
  induction new generalizing s with
  | nil => simp [underNames]
  | cons task rest ih =>
    rw [List.foldl_cons, ih]
    simp [spawn, underNames, List.range'_succ, Nat.add_assoc, Nat.add_comm 1]

theorem filterMap_cons_toList {α β : Type} (f : α → Option β) (first : α) (rest : List α) :
    (first :: rest).filterMap f = (f first).toList ++ rest.filterMap f := by
  cases hf : f first with
  | none => rw [List.filterMap_cons_none hf, Option.toList_none, List.nil_append]
  | some a => rw [List.filterMap_cons_some hf, Option.toList_some, List.singleton_append]

theorem filterMap_toList {α β : Type} (f : α → Option β) (o : Option α) :
    o.toList.filterMap f = (o.bind f).toList := by
  cases o with
  | none => rfl
  | some a => exact (filterMap_cons_toList f a []).trans (List.append_nil _)

/-! ## One task goes on -/

/-- One task is replaced by another or is over, some tasks are new, and the others stay. -/
structure Replaced (s : Session) (t : TaskId) (task : Task) (stay : Option Task) (new : List Task)
    (shared : Shared) (s' : Session) : Prop where
  here : (t, task) ∈ s.tasks
  tasks : s'.tasks.Perm (stay.toList.map (t, ·) ++ (underNames s.nextTask new ++ s.others t))
  nextTask : s'.nextTask = s.nextTask + new.length
  shared : s'.shared = shared

namespace Replaced

variable {stay : Option Task} {new : List Task} {shared : Shared} {task' : Task}

theorem mem (h : Replaced s t task stay new shared s') (hmem : (u, task') ∈ s'.tasks) :
    u = t ∧ stay = some task' ∨ task' ∈ new ∧ s.nextTask ≤ u ∨ (u, task') ∈ s.tasks ∧ u ≠ t := by
  rcases List.mem_append.mp (h.tasks.mem_iff.mp hmem) with hstay | hmem
  · obtain ⟨stayed, hstayed, heq⟩ := List.mem_map.mp hstay
    cases heq
    exact .inl ⟨rfl, Option.mem_toList.mp hstayed⟩
  · rcases List.mem_append.mp hmem with hnew | hother
    · obtain ⟨hnew, hname, -⟩ := mem_underNames hnew
      exact .inr (.inl ⟨hnew, hname⟩)
    · exact .inr (.inr (mem_others.mp hother))

/-- What holds of the task that went on, of the new ones and of the others holds of all. -/
theorem forall_tasks {P : TaskId → Task → Prop} (h : Replaced s t task stay new shared s')
    (hstay : ∀ next, stay = some next → P t next)
    (hnew : ∀ u, ∀ next ∈ new, s.nextTask ≤ u → P u next)
    (hother : ∀ u other, (u, other) ∈ s.tasks → u ≠ t → P u other) :
    ∀ u other, (u, other) ∈ s'.tasks → P u other := by
  intro u other hmem
  rcases h.mem hmem with ⟨rfl, hnext⟩ | ⟨hmem, hname⟩ | ⟨hmem, hne⟩
  · exact hstay other hnext
  · exact hnew u other hmem hname
  · exact hother u other hmem hne

theorem mem_stay (h : Replaced s t task (some task') new shared s') : (t, task') ∈ s'.tasks :=
  h.tasks.mem_iff.mpr (List.mem_append_left _ List.mem_cons_self)

theorem mem_other (h : Replaced s t task stay new shared s') (hmem : (u, task') ∈ s.tasks) (hu : u ≠ t) :
    (u, task') ∈ s'.tasks :=
  h.tasks.mem_iff.mpr (List.mem_append_right _ (List.mem_append_right _ (mem_others.mpr ⟨hmem, hu⟩)))

/-- The places before and after, but for their order. -/
theorem places (h : Replaced s t task stay new shared s') (hs : s.Named) :
    ∃ others, s.places.Perm (task :: others) ∧ s'.places.Perm (stay.toList ++ (new ++ others)) := by
  refine ⟨(s.others t).map Prod.snd, (hs.perm_others h.here).map Prod.snd, ?_⟩
  have hplaces := h.tasks.map Prod.snd
  have hstay : (stay.toList.map (t, ·)).map Prod.snd = stay.toList := by cases stay <;> rfl
  rwa [List.map_append, List.map_append, places_underNames, hstay] at hplaces

/-- What tasks carry, before and after. -/
theorem filterMap {α : Type} (h : Replaced s t task stay new shared s') (hs : s.Named)
    (f : Task → Option α) : ∃ others : List α,
      (s.places.filterMap f).Perm ((f task).toList ++ others) ∧
      (s'.places.filterMap f).Perm ((stay.bind f).toList ++ (new.filterMap f ++ others)) := by
  obtain ⟨others, hbefore, hafter⟩ := h.places hs
  refine ⟨others.filterMap f, ?_, ?_⟩
  · rw [← filterMap_cons_toList]
    exact hbefore.filterMap f
  · rw [← filterMap_toList, ← List.filterMap_append, ← List.filterMap_append]
    exact hafter.filterMap f

theorem named (h : Replaced s t task stay new shared s') (hs : s.Named) : s'.Named where
  distinct := by
    have hothers : ((t, task) :: s.others t |>.map (·.1)).Nodup :=
      ((hs.perm_others h.here).map _).nodup_iff.mp hs.distinct
    obtain ⟨hfree, hothers⟩ := List.nodup_cons.mp hothers
    have hold : ∀ v ∈ (s.others t).map (·.1), v < s.nextTask := by
      intro v hv
      obtain ⟨⟨v, task'⟩, hmem, rfl⟩ := List.mem_map.mp hv
      exact hs.given v task' (mem_others.mp hmem).1
    have hlater : (List.range' s.nextTask new.length ++ (s.others t).map (·.1)).Nodup := by
      refine List.nodup_append.mpr ⟨List.nodup_range', hothers, fun u hu v hv => ?_⟩
      exact Nat.ne_of_gt (Nat.lt_of_lt_of_le (hold v hv) (List.mem_range'_1.mp hu).1)
    have hname : t ∉ List.range' s.nextTask new.length ++ (s.others t).map (·.1) := by
      intro hmem
      rcases List.mem_append.mp hmem with hnew | hother
      · have hle : s.nextTask ≤ t := (List.mem_range'_1.mp hnew).1
        exact Nat.not_lt_of_le hle (hs.given t task h.here)
      · exact hfree hother
    rw [(h.tasks.map _).nodup_iff, List.map_append, List.map_append, names_underNames]
    cases stay with
    | none => exact hlater
    | some stayed => exact List.nodup_cons.mpr ⟨hname, hlater⟩
  given u task' hmem := by
    have hname : u < s.nextTask + new.length := by
      rcases List.mem_append.mp (h.tasks.mem_iff.mp hmem) with hstay | hmem
      · obtain ⟨stayed, -, heq⟩ := List.mem_map.mp hstay
        cases heq
        exact Nat.lt_add_right _ (hs.given _ task h.here)
      · rcases List.mem_append.mp hmem with hnew | hother
        · exact (mem_underNames hnew).2.2
        · exact Nat.lt_add_right _ (hs.given u task' (mem_others.mp hother).1)
    exact h.nextTask ▸ hname
  loop := h.nextTask ▸ Nat.lt_add_right _ hs.loop

theorem task?_self (h : Replaced s t task stay new shared s') (hs : s.Named) : s'.task? t = stay := by
  refine Option.ext fun task' => ?_
  rw [(h.named hs).task?_eq_some_iff]
  constructor
  · intro hmem
    rcases h.mem hmem with ⟨-, hstay⟩ | ⟨-, hname⟩ | ⟨-, hne⟩
    · exact hstay
    · exact absurd (hs.given t task h.here) (Nat.not_lt_of_le hname)
    · exact absurd rfl hne
  · rintro rfl
    exact h.mem_stay

theorem task?_other (h : Replaced s t task stay new shared s') (hs : s.Named) (hu : u ≠ t)
    (hold : u < s.nextTask) : s'.task? u = s.task? u := by
  refine Option.ext fun task' => ?_
  rw [(h.named hs).task?_eq_some_iff, hs.task?_eq_some_iff]
  constructor
  · intro hmem
    rcases h.mem hmem with ⟨heq, -⟩ | ⟨-, hname⟩ | ⟨hmem, -⟩
    · exact absurd heq hu
    · exact absurd hold (Nat.not_lt_of_le hname)
    · exact hmem
  · exact fun hmem => h.mem_other hmem hu

end Replaced

theorem Named.replaced (hs : s.Named) (h : (t, task) ∈ s.tasks) (stay : Option Task) (new : List Task)
    (shared : Shared) :
    Replaced s t task stay new shared (new.foldl spawn { s.replace t stay with shared }) where
  here := h
  tasks := by
    rw [foldl_spawn]
    show ((s.replace t stay).tasks ++ underNames s.nextTask new).Perm _
    refine ((hs.perm_replace h stay).append_right _).trans ?_
    rw [List.append_assoc]
    exact List.perm_append_comm.append_left _
  nextTask := by
    rw [foldl_spawn]
    rfl
  shared := by rw [foldl_spawn]

/-- A task that goes on where it is stays as it is. -/
theorem Named.replace_self (hs : s.Named) (h : s.task? t = some task) :
    s.replace t (some task) = s := by
  have htasks : s.tasks.filterMap (fun x => if x.1 = t then (some task).map (x.1, ·) else some x)
      = s.tasks := by
    rw [List.filterMap_congr (g := some), List.filterMap_some]
    rintro ⟨u, other⟩ hmem
    by_cases hu : u = t
    · subst hu
      rw [hs.unique hmem (hs.task?_eq_some_iff.mp h)]
      exact if_pos rfl
    · exact if_neg hu
  unfold replace
  exact congrArg (fun tasks => { s with tasks }) htasks

/-- A call that has just begun is replaced. -/
theorem Named.replace_spawn (hs : s.Named) (first next : Task) :
    (s.spawn first).replace s.nextTask (some next) = s.spawn next := by
  have hold : s.tasks.filterMap (fun x => if x.1 = s.nextTask then (some next).map (x.1, ·) else some x)
      = s.tasks := by
    rw [List.filterMap_congr (g := some), List.filterMap_some]
    rintro ⟨u, task⟩ hmem
    exact if_neg (Nat.ne_of_lt (hs.given u task hmem))
  have htasks : ((s.spawn first).replace s.nextTask (some next)).tasks = (s.spawn next).tasks := by
    unfold replace spawn
    simp only [List.filterMap_append]
    rw [hold]
    simp
  exact congrArg (fun tasks => (⟨_, tasks, _⟩ : Session)) htasks

/-! ## All that actions do -/

/-- What actions do to a session. -/
inductive Happens (s : Session) : Action → Session → Prop
  /-- The action finds nothing to do. -/
  | nothing {a : Action} : Happens s a s
  | call (c : Call) : Happens s (.call c) (s.spawn (.called c))
  /-- A task takes one of its steps, and a request that is read gets a task of its own. -/
  | turn {t : TaskId} {task : Task} {p : Progress} {s' : Session} (step : task.Steps t s.shared p)
      (moved : Replaced s t task p.next (p.asked.toList.map .answering) (p.shared.after t p.next) s') :
      Happens s (.turn t) s'
  /-- A call is dropped, and what is left of it goes on under other names. -/
  | drop {t : TaskId} {task : Task} {rest : List Task} {s' : Session} (leaves : task.Leaves rest)
      (moved : Replaced s t task none rest (s.shared.after t none) s') : Happens s (.drop t) s'
  | await {t : TaskId} {w : Waiter} {s' : Session}
      (moved : Replaced s t (.finished (.ok (.waiter w))) (some (.waiting w .waiter none)) [] s.shared s') :
      Happens s (.await t) s'
  | collect {t : TaskId} {answer : Except Fault Answer} {s' : Session}
      (taken : ∀ w, answer ≠ .ok (.waiter w))
      (moved : Replaced s t (.finished answer) none [] s.shared s') : Happens s (.collect t) s'
  | arrive {bytes : List UInt8} (h : s.shared.inflow = .flowing) : Happens s (.arrive bytes)
      { s with shared := { s.shared with input := s.shared.input ++ bytes } }
  | endInput {failure : Option IoFault} (h : s.shared.inflow = .flowing) :
      Happens s (.endInput failure) { s with shared := { s.shared with inflow := .ended failure } }
  | breakOutflow (h : s.shared.outflow = .flowing) :
      Happens s .breakOutflow { s with shared := { s.shared with outflow := .broken } }
  | pass (milliseconds : Nat) : Happens s (.pass milliseconds)
      { s with shared := { s.shared with clock := s.shared.clock + milliseconds } }

theorem Named.replaced_turn (hs : s.Named) (h : (t, task) ∈ s.tasks) {p : Progress}
    (hstep : task.step t s.shared = some p) :
    Replaced s t task p.next (p.asked.toList.map .answering) (p.shared.after t p.next)
      (s.act (.turn t)) := by
  have hact : s.act (.turn t) = (p.asked.toList.map .answering).foldl spawn
      { s.replace t p.next with shared := p.shared.after t p.next } := by
    have hrelease : ({ s with shared := p.shared }.replace t p.next).release t p.next
        = { s.replace t p.next with shared := p.shared.after t p.next } := by
      unfold release Shared.after
      split <;> rfl
    simp only [act, step?, hs.task?_eq_some_iff.mpr h, hstep, hrelease]
    cases p.asked <;> rfl
  rw [hact]
  exact hs.replaced h _ _ _

/-- Where a task goes in its turn, and what becomes of all that is shared, but for the lock. -/
theorem Named.goes_on (hs : s.Named) (here : s.task? t = some task) {p : Progress}
    (step : task.Steps t s.shared p) : (s.act (.turn t)).task? t = p.next ∧
      ∃ holder, (s.act (.turn t)).shared = { p.shared with documentsHolder := holder } := by
  have moved := hs.replaced_turn (hs.task?_eq_some_iff.mp here) step.step_eq
  obtain ⟨holder, hafter⟩ := p.shared.after_eq t p.next
  exact ⟨moved.task?_self hs, holder, moved.shared.trans hafter⟩

theorem Named.replaced_drop (hs : s.Named) (h : (t, task) ∈ s.tasks) {rest : List Task}
    (hremains : task.remains = some rest) :
    Replaced s t task none rest (s.shared.after t none) (s.act (.drop t)) := by
  have hact : s.act (.drop t)
      = rest.foldl spawn { s.replace t none with shared := s.shared.after t none } := by
    simp only [act, Session.drop, hs.task?_eq_some_iff.mpr h, Option.bind_some, hremains]
    rfl
  rw [hact]
  exact hs.replaced h _ _ _

/-- Whatever an action does is on the list. -/
theorem Named.happens_act (hs : s.Named) (a : Action) : Happens s a (s.act a) := by
  cases a with
  | call c => exact .call c
  | turn t =>
    cases htask : s.task? t with
    | none =>
      have hact : s.act (.turn t) = s := by simp [act, step?, htask]
      rw [hact]
      exact .nothing
    | some task =>
      cases hstep : task.step t s.shared with
      | none =>
        have hact : s.act (.turn t) = s := by simp [act, step?, htask, hstep]
        rw [hact]
        exact .nothing
      | some p => exact .turn (.of_step hstep) (hs.replaced_turn (hs.task?_eq_some_iff.mp htask) hstep)
  | drop t =>
    cases hremains : (s.task? t).bind Task.remains with
    | none =>
      have hact : s.act (.drop t) = s := by simp [act, Session.drop, hremains]
      rw [hact]
      exact .nothing
    | some rest =>
      obtain ⟨task, htask, hrest⟩ := Option.bind_eq_some_iff.mp hremains
      exact .drop (.of_remains hrest) (hs.replaced_drop (hs.task?_eq_some_iff.mp htask) hrest)
  | await t =>
    simp only [act, Session.await]
    split
    · next w htask => exact .await (hs.replaced (hs.task?_eq_some_iff.mp htask) _ [] s.shared)
    · exact .nothing
  | collect t =>
    simp only [act, Session.collect]
    split
    · exact .nothing
    · next answer hwaiter htask =>
      exact .collect hwaiter (hs.replaced (hs.task?_eq_some_iff.mp htask) none [] s.shared)
    · exact .nothing
  | arrive bytes =>
    simp only [act]
    split
    · next hflow => exact .arrive hflow
    · exact .nothing
  | endInput failure =>
    simp only [act]
    split
    · next hflow => exact .endInput hflow
    · exact .nothing
  | breakOutflow =>
    simp only [act]
    split
    · next hflow => exact .breakOutflow hflow
    · exact .nothing
  | pass milliseconds => exact .pass milliseconds

theorem named_spawn (hs : s.Named) (task : Task) : (s.spawn task).Named where
  distinct := by
    show ((s.tasks ++ [(s.nextTask, task)]).map (·.1)).Nodup
    rw [List.map_append, List.map_singleton, List.nodup_append]
    refine ⟨hs.distinct, List.nodup_singleton _, fun u hu v hv => ?_⟩
    obtain ⟨⟨u, task'⟩, hmem, rfl⟩ := List.mem_map.mp hu
    exact List.mem_singleton.mp hv ▸ Nat.ne_of_lt (hs.given u task' hmem)
  given u task' hmem := by
    rcases List.mem_append.mp hmem with hmem | hmem
    · exact Nat.lt_succ_of_lt (hs.given u task' hmem)
    · cases List.mem_singleton.mp hmem
      exact Nat.lt_succ_self _
  loop := Nat.lt_succ_of_lt hs.loop

/-- The task that was begun last. -/
theorem task?_spawn_self (hs : s.Named) (task : Task) : (s.spawn task).task? s.nextTask = some task :=
  (named_spawn hs task).task?_eq_some_iff.mpr (List.mem_append_right _ List.mem_cons_self)

theorem Happens.named {a : Action} (h : Happens s a s') (hs : s.Named) : s'.Named := by
  cases h with
  | nothing => exact hs
  | call c => exact named_spawn hs _
  | turn step moved => exact moved.named hs
  | drop leaves moved => exact moved.named hs
  | await moved => exact moved.named hs
  | collect taken moved => exact moved.named hs
  | arrive _ | endInput _ | breakOutflow _ | pass _ => exact ⟨hs.distinct, hs.given, hs.loop⟩

/-- Names are not given up. -/
theorem Happens.nextTask_le {a : Action} (h : Happens s a s') : s.nextTask ≤ s'.nextTask := by
  cases h with
  | nothing | arrive _ | endInput _ | breakOutflow _ | pass _ => exact Nat.le_refl _
  | call c => exact Nat.le_succ _
  | turn step moved => exact moved.nextTask ▸ Nat.le_add_right _ _
  | drop leaves moved => exact moved.nextTask ▸ Nat.le_add_right _ _
  | await moved => exact moved.nextTask ▸ Nat.le_add_right _ _
  | collect taken moved => exact moved.nextTask ▸ Nat.le_add_right _ _

/-- How a task has come to be where it is after an action. -/
inductive Arises (s : Session) (a : Action) : TaskId → Task → Prop
  | stays {t : TaskId} {task : Task} (here : (t, task) ∈ s.tasks) : Arises s a t task
  | called {t : TaskId} {c : Call} (action : a = .call c) (new : s.nextTask ≤ t) :
      Arises s a t (.called c)
  | steps {t : TaskId} {before task : Task} {p : Progress} (action : a = .turn t)
      (here : (t, before) ∈ s.tasks) (step : before.Steps t s.shared p) (next : p.next = some task) :
      Arises s a t task
  | asked {t : TaskId} {r : Request} (new : s.nextTask ≤ t) : Arises s a t (.answering r)
  | left {t u : TaskId} {before task : Task} {rest : List Task} (action : a = .drop u)
      (here : (u, before) ∈ s.tasks) (leaves : before.Leaves rest) (mem : task ∈ rest)
      (new : s.nextTask ≤ t) : Arises s a t task
  | awaited {t : TaskId} {w : Waiter} (action : a = .await t)
      (here : (t, .finished (.ok (.waiter w))) ∈ s.tasks) : Arises s a t (.waiting w .waiter none)

theorem Happens.arises {a : Action} (h : Happens s a s') (hmem : (t, task) ∈ s'.tasks) :
    Arises s a t task := by
  cases h with
  | nothing | arrive _ | endInput _ | breakOutflow _ | pass _ => exact .stays hmem
  | call c =>
    rcases List.mem_append.mp hmem with hmem | hmem
    · exact .stays hmem
    · cases List.mem_singleton.mp hmem
      exact .called rfl (Nat.le_refl _)
  | turn step moved =>
    rcases moved.mem hmem with ⟨rfl, hnext⟩ | ⟨hnew, hname⟩ | ⟨hmem, -⟩
    · exact .steps rfl moved.here step hnext
    · obtain ⟨r, -, rfl⟩ := List.mem_map.mp hnew
      exact .asked hname
    · exact .stays hmem
  | drop leaves moved =>
    rcases moved.mem hmem with ⟨-, hnext⟩ | ⟨hnew, hname⟩ | ⟨hmem, -⟩
    · cases hnext
    · exact .left rfl moved.here leaves hnew hname
    · exact .stays hmem
  | await moved =>
    rcases moved.mem hmem with ⟨rfl, hnext⟩ | ⟨hnew, -⟩ | ⟨hmem, -⟩
    · cases hnext
      exact .awaited rfl moved.here
    · cases hnew
    · exact .stays hmem
  | collect taken moved =>
    rcases moved.mem hmem with ⟨-, hnext⟩ | ⟨hnew, -⟩ | ⟨hmem, -⟩
    · cases hnext
    · cases hnew
    · exact .stays hmem

/-- A task that is not over stays, if it is not the one to which something happens. -/
theorem Happens.stays {a : Action} (h : Happens s a s') (hs : s.Named) (here : (t, task) ∈ s.tasks)
    (hover : task.isOver = false) (hturn : a ≠ .turn t) (hdrop : a ≠ .drop t) : (t, task) ∈ s'.tasks := by
  have hother : ∀ {u : TaskId} {answer : Except Fault Answer}, (u, .finished answer) ∈ s.tasks → t ≠ u := by
    rintro u answer hmem rfl
    rw [hs.unique here hmem] at hover
    cases hover
  cases h with
  | nothing | arrive _ | endInput _ | breakOutflow _ | pass _ => exact here
  | call c => exact List.mem_append_left _ here
  | turn step moved => exact moved.mem_other here fun heq => hturn (heq ▸ rfl)
  | drop leaves moved => exact moved.mem_other here fun heq => hdrop (heq ▸ rfl)
  | await moved | collect _ moved => exact moved.mem_other here (hother moved.here)

/-- The table, the phase and the wire are the same. -/
structure Agrees (s s' : Shared) : Prop where
  pending : s'.pending = s.pending
  lifecycle : s'.lifecycle = s.lifecycle
  wire : s'.wire = s.wire

/-- The table, the phase and the wire change only by steps. -/
theorem Happens.changes {a : Action} (h : Happens s a s') : Agrees s.shared s'.shared ∨
    ∃ t task p, a = .turn t ∧ (t, task) ∈ s.tasks ∧ task.Steps t s.shared p ∧ Agrees p.shared s'.shared := by
  have after : ∀ (shared : Shared) (t : TaskId) (next : Option Task), Agrees shared (shared.after t next) := by
    intro shared t next
    obtain ⟨holder, hafter⟩ := shared.after_eq t next
    rw [hafter]
    exact ⟨rfl, rfl, rfl⟩
  cases h with
  | nothing | call _ | arrive _ | endInput _ | breakOutflow _ | pass _ => exact .inl ⟨rfl, rfl, rfl⟩
  | turn step moved => exact .inr ⟨_, _, _, rfl, moved.here, step, moved.shared ▸ after _ _ _⟩
  | drop leaves moved => exact .inl (moved.shared ▸ after _ _ _)
  | await moved | collect _ moved => exact .inl (moved.shared ▸ ⟨rfl, rfl, rfl⟩)

/-- The direction to the server does not begin to flow again. -/
theorem Happens.flowing {a : Action} (h : Happens s a s') (hflow : s'.shared.outflow = .flowing) :
    s.shared.outflow = .flowing := by
  have after : ∀ {shared : Shared} {t : TaskId} {next : Option Task},
      (shared.after t next).outflow = .flowing → shared.outflow = .flowing := by
    intro shared t next hafter
    obtain ⟨holder, hshared⟩ := shared.after_eq t next
    rwa [hshared] at hafter
  cases h with
  | nothing | call _ | arrive _ | endInput _ | pass _ => exact hflow
  | breakOutflow hbefore => exact hbefore
  | turn step moved => exact step.flowing (after (moved.shared ▸ hflow))
  | drop leaves moved => exact after (moved.shared ▸ hflow)
  | await moved => exact moved.shared ▸ hflow
  | collect taken moved => exact moved.shared ▸ hflow

theorem Named.act (hs : s.Named) (a : Action) : (s.act a).Named := (hs.happens_act a).named hs

theorem run_append (s : Session) (before later : List Action) :
    s.run (before ++ later) = (s.run before).run later := List.foldl_append

theorem Named.run (hs : s.Named) (actions : List Action) : (s.run actions).Named := by
  induction actions generalizing s with
  | nil => exact hs
  | cons a rest ih => exact ih (hs.act a)

end Session

end LanguageClient
