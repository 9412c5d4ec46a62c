import LanguageClient.Proofs.Documents.Order

/-!
# LanguageClient.Proofs.Documents.Isolation -- every document for itself

What comes of an operation hangs on what is known of its own document and on nothing else
(`Alike.outcome`). So a run does to a document what the operations on it alone would do, and what leaves no
trace, an operation that fails or a saving, might as well not have been. `kept_apart` puts this together with
what an open document allows, and with the list of the open documents.
-/

namespace LanguageClient

namespace DocumentStore

/-! ## What comes of an operation -/

/-- What the server is told of an operation, or why it fails. -/
def outcome (s : DocumentStore) (o : DocumentOperation) : Except Fault DocumentNotice :=
  (s.apply o).map (·.1)

/-- What comes of the operations of a run, one after another. -/
def outcomes (s : DocumentStore) :
    List DocumentOperation → List (DocumentOperation × Except Fault DocumentNotice)
  | [] => []
  | o :: rest => (o, s.outcome o) :: (s.act o).outcomes rest

/-- An operation that fails, or saves. -/
def LeavesNoTrace (s : DocumentStore) (o : DocumentOperation) : Prop :=
  (∃ f, s.outcome o = .error f) ∨ ∃ uri text, o = .saving uri text

/-- The notices among the outcomes of operations. -/
def noticesIn (found : List (DocumentOperation × Except Fault DocumentNotice)) : List DocumentNotice :=
  found.filterMap (·.2.toOption)

/-- What holds of a document after some operations on a store that was empty. -/
structure KeptApart (done : List DocumentOperation) (uri : DocumentUri) : Prop where
  /-- What comes of the operations on the document is what comes of them when there are no others. -/
  outcomes : (outcomes {} done).filter (·.1.uri = uri) = DocumentStore.outcomes {} (done.filter (·.uri = uri))
  /-- What is known of it in the end is so too. -/
  document : (after done).get? uri = (after (done.filter (·.uri = uri))).get? uri
  version : (after done).version? uri = (after (done.filter (·.uri = uri))).version? uri
  isOpen : (after done).isOpen uri = (after (done.filter (·.uri = uri))).isOpen uri
  /-- Without an operation that leaves no trace the others come to the same, and the store is the same. -/
  traceless : ∀ before o later, done = before ++ o :: later → (after before).LeavesNoTrace o →
    DocumentStore.outcomes {} (before ++ later) = (DocumentStore.outcomes {} done).eraseIdx before.length ∧
      after (before ++ later) = after done
  /-- The document is open if the last of its openings and closings that succeeded was an opening. -/
  opened : (after done).isOpen uri = isOpenAfter uri (noticesIn (DocumentStore.outcomes {} done))
  /-- An open document can be saved, closed, and changed unless it has the last version of 32 bits. -/
  whileOpen : (after done).isOpen uri = true → ∃ v, (after done).version? uri = some v ∧
    (∀ text, (after done).outcome (.saving uri text) = .ok (.saved ⟨⟨uri⟩, text⟩)) ∧
    (after done).outcome (.closing uri) = .ok (.closed ⟨⟨uri⟩⟩) ∧
    ∀ changes, (after done).outcome (.changing uri changes)
      = if v = Int32.maxValue then .error (.staleVersion uri v v)
        else .ok (.changed ⟨⟨uri, v + 1⟩, changes⟩)
  /-- With one that is not open none of this can be done. -/
  whileClosed : (after done).isOpen uri = false →
    (∀ text, (after done).outcome (.saving uri text) = .error (.notOpen uri)) ∧
    (after done).outcome (.closing uri) = .error (.notOpen uri) ∧
    ∀ changes, (after done).outcome (.changing uri changes) = .error (.notOpen uri)
  /-- The open documents are listed once each, as they are known, and no others are. -/
  listed_once : ((after done).openDocuments.map (·.uri)).Nodup
  listed_iff : ∀ d, d ∈ (after done).openDocuments ↔ (after done).get? d.uri = some d ∧ d.isOpen = true
  listed : uri ∈ (after done).openDocuments.map (·.uri) ↔ (after done).isOpen uri = true

variable {s s' : DocumentStore} {o : DocumentOperation} {uri : DocumentUri} {d : Document}

/-- The notices of a run are those among its outcomes. -/
theorem noticesIn_outcomes (s : DocumentStore) (os : List DocumentOperation) :
    noticesIn (s.outcomes os) = s.notices os := by
  induction os generalizing s with
  | nil => rfl
  | cons o rest ih =>
    have hrest := ih (s.act o)
    unfold noticesIn at hrest ⊢
    have hone : (s.outcome o).toOption = s.notice? o := by
      unfold outcome notice?
      cases s.apply o <;> rfl
    rw [outcomes, notices, List.filterMap_cons, hone, hrest]
    cases s.notice? o <;> rfl

/-! ## An operation minds its own document -/

/-- Two stores that know the same of a document. -/
def Alike (uri : DocumentUri) (s s' : DocumentStore) : Prop := s.get? uri = s'.get? uri

namespace Alike

theorem getOpen (h : Alike uri s s') : s.getOpen uri = s'.getOpen uri := by
  unfold DocumentStore.getOpen
  rw [h]

theorem openingVersion (h : Alike uri s s') (wanted : Option Int32) :
    s.openingVersion uri wanted = s'.openingVersion uri wanted := by
  unfold DocumentStore.openingVersion
  rw [h]

theorem put (d : Document) : Alike d.uri (s.put d) (s'.put d) := by
  show (s.put d).get? d.uri = (s'.put d).get? d.uri
  rw [get?_put, get?_put, if_pos rfl, if_pos rfl]

/-- An operation comes to the same in both, and they still know the same afterwards. -/
theorem apply (h : Alike o.uri s s') :
    s.outcome o = s'.outcome o ∧ Alike o.uri (s.act o) (s'.act o) := by
  unfold outcome act
  cases o with
  | opening uri languageId wanted text =>
    have hversion := h.openingVersion wanted
    simp only [DocumentOperation.uri] at hversion ⊢
    simp only [DocumentStore.apply, openDocument, hversion]
    cases s'.openingVersion uri wanted with
    | error f => exact ⟨rfl, h⟩
    | ok v => exact ⟨rfl, put _⟩
  | changing uri changes =>
    have hget := h.getOpen
    simp only [DocumentOperation.uri] at hget ⊢
    simp only [DocumentStore.apply, changeDocument, hget]
    cases s'.getOpen uri with
    | error f => exact ⟨rfl, h⟩
    | ok d =>
      simp only
      cases nextVersion uri d.version with
      | error f => exact ⟨rfl, h⟩
      | ok v => exact ⟨rfl, put _⟩
  | saving uri text =>
    have hget := h.getOpen
    simp only [DocumentOperation.uri] at hget ⊢
    simp only [DocumentStore.apply, saveDocument, hget]
    cases s'.getOpen uri with
    | error f => exact ⟨rfl, h⟩
    | ok d => exact ⟨rfl, h⟩
  | closing uri =>
    have hget := h.getOpen
    simp only [DocumentOperation.uri] at hget ⊢
    simp only [DocumentStore.apply, closeDocument, hget]
    cases s'.getOpen uri with
    | error f => exact ⟨rfl, h⟩
    | ok d => exact ⟨rfl, put _⟩

/-- An operation on another document changes nothing. -/
theorem act_other (h : Alike uri s s') (ho : o.uri ≠ uri) : Alike uri (s.act o) s' := by
  show (s.act o).get? uri = s'.get? uri
  rcases s.act_cases o with ⟨hact, -⟩ | ⟨n, -, htold⟩
  · rw [hact, h]
  · rw [htold.others uri (Ne.symm ho), h]

/-- A run comes to what the operations on the document come to alone. -/
theorem run (h : Alike uri s s') (os : List DocumentOperation) :
    (s.outcomes os).filter (·.1.uri = uri) = s'.outcomes (os.filter (·.uri = uri)) ∧
      Alike uri (s.run os) (s'.run (os.filter (·.uri = uri))) := by
  induction os generalizing s s' with
  | nil => exact ⟨rfl, h⟩
  | cons o rest ih =>
    by_cases ho : o.uri = uri
    · obtain ⟨hsame, hact⟩ := apply (ho.symm ▸ h)
      obtain ⟨houtcomes, hrun⟩ := ih (ho ▸ hact)
      have hfilter : (o :: rest).filter (·.uri = uri) = o :: rest.filter (·.uri = uri) :=
        List.filter_cons_of_pos (by simpa using ho)
      rw [hfilter]
      refine ⟨?_, hrun⟩
      rw [outcomes, outcomes, List.filter_cons_of_pos (by simpa using ho), houtcomes, hsame]
    · -- only the left store moves, and not at this document
      obtain ⟨houtcomes, hrun⟩ := ih (h.act_other ho)
      have hfilter : (o :: rest).filter (·.uri = uri) = rest.filter (·.uri = uri) :=
        List.filter_cons_of_neg (by simpa using ho)
      rw [hfilter]
      refine ⟨?_, hrun⟩
      rw [outcomes, List.filter_cons_of_neg (by simpa using ho), houtcomes]

end Alike

/-! ## What leaves no trace -/

theorem outcomes_append (s : DocumentStore) (os os' : List DocumentOperation) :
    s.outcomes (os ++ os') = s.outcomes os ++ (s.run os).outcomes os' := by
  induction os generalizing s with
  | nil => rfl
  | cons o rest ih =>
    have hrest := ih (s.act o)
    rw [List.cons_append, outcomes, outcomes, hrest, List.cons_append]
    rfl

theorem length_outcomes (s : DocumentStore) (os : List DocumentOperation) :
    (s.outcomes os).length = os.length := by
  induction os generalizing s with
  | nil => rfl
  | cons o rest ih => rw [outcomes, List.length_cons, List.length_cons, ih]

theorem LeavesNoTrace.act (h : s.LeavesNoTrace o) : s.act o = s := by
  unfold DocumentStore.act
  rcases h with ⟨f, hf⟩ | ⟨uri, text, rfl⟩
  · unfold outcome at hf
    cases happly : s.apply o with
    | error g => rfl
    | ok r =>
      rw [happly] at hf
      cases hf
  · simp only [apply, saveDocument]
    cases s.getOpen uri <;> rfl

/-- An operation that leaves no trace can be left out of a run. -/
theorem LeavesNoTrace.left_out {before later : List DocumentOperation}
    (h : (s.run before).LeavesNoTrace o) :
    s.outcomes (before ++ later) = (s.outcomes (before ++ o :: later)).eraseIdx before.length ∧
      s.run (before ++ later) = s.run (before ++ o :: later) := by
  constructor
  · have hlength : before.length = (s.outcomes before).length := (s.length_outcomes before).symm
    rw [outcomes_append, outcomes_append, outcomes, h.act, hlength,
      List.eraseIdx_append_of_length_le (Nat.le_refl _), Nat.sub_self, List.eraseIdx_zero, List.tail_cons]
  · rw [run_append, run_append]
    show (s.run before).run later = ((s.run before).act o).run later
    rw [h.act]

/-! ## What an open document allows -/

theorem version?_eq_some_iff {v : Int32} :
    s.version? uri = some v ↔ ∃ d, s.get? uri = some d ∧ d.isOpen = true ∧ d.version = v := by
  simp [version?, and_assoc]

theorem exists_of_isOpen (h : s.isOpen uri = true) : ∃ d, s.get? uri = some d ∧ d.isOpen = true := by
  obtain ⟨v, hv⟩ := Option.isSome_iff_exists.mp h
  obtain ⟨d, hget, hopen, -⟩ := version?_eq_some_iff.mp hv
  exact ⟨d, hget, hopen⟩

/-- What an open document allows. -/
theorem outcome_of_open (hget : s.get? uri = some d) (hopen : d.isOpen = true) :
    (∀ text, s.outcome (.saving uri text) = .ok (.saved ⟨⟨uri⟩, text⟩)) ∧
      s.outcome (.closing uri) = .ok (.closed ⟨⟨uri⟩⟩) ∧
      ∀ changes, s.outcome (.changing uri changes)
        = if d.version = Int32.maxValue then .error (.staleVersion uri d.version d.version)
          else .ok (.changed ⟨⟨uri, d.version + 1⟩, changes⟩) := by
  have hgetOpen := getOpen_of_isOpen hget hopen
  refine ⟨?_, ?_, ?_⟩
  · intro text
    simp [outcome, apply, saveDocument, hgetOpen, Except.map]
  · simp [outcome, apply, closeDocument, hgetOpen, Except.map]
  · intro changes
    by_cases hmax : d.version = Int32.maxValue
    · simp [outcome, apply, changeDocument, hgetOpen, nextVersion, hmax, Except.map]
    · simp [outcome, apply, changeDocument, hgetOpen, nextVersion, hmax, Except.map]

theorem getOpen_of_closed (h : s.isOpen uri = false) : s.getOpen uri = .error (.notOpen uri) := by
  cases hgetOpen : s.getOpen uri with
  | ok d =>
    obtain ⟨hget, hopen⟩ := of_getOpen hgetOpen
    simp [isOpen_eq, hget, hopen] at h
  | error f =>
    unfold getOpen at hgetOpen
    split at hgetOpen
    · split at hgetOpen
      · cases hgetOpen
      · exact hgetOpen.symm
    · exact hgetOpen.symm

theorem outcome_of_closed (h : s.isOpen uri = false) :
    (∀ text, s.outcome (.saving uri text) = .error (.notOpen uri)) ∧
      s.outcome (.closing uri) = .error (.notOpen uri) ∧
      ∀ changes, s.outcome (.changing uri changes) = .error (.notOpen uri) := by
  have hgetOpen := getOpen_of_closed h
  refine ⟨?_, ?_, ?_⟩
  · intro text
    simp [outcome, apply, saveDocument, hgetOpen, Except.map]
  · simp [outcome, apply, closeDocument, hgetOpen, Except.map]
  · intro changes
    simp [outcome, apply, changeDocument, hgetOpen, Except.map]

/-! ## The list of the open documents -/

/-- Every document is filed under its own URI. -/
def Filed (s : DocumentStore) : Prop := ∀ p ∈ s.documents.entries, p.2.uri = p.1

/-- An operation leaves the store as it is, or puts one document down. -/
theorem act_eq_put (s : DocumentStore) (o : DocumentOperation) : s.act o = s ∨ ∃ d, s.act o = s.put d := by
  cases o with
  | opening uri languageId wanted text =>
    cases hversion : s.openingVersion uri wanted with
    | error f => left; simp [act, apply, openDocument, hversion, Except.map]
    | ok v => right; simp [act, apply, openDocument, hversion, Except.map]
  | changing uri changes =>
    cases hget : s.getOpen uri with
    | error f => left; simp [act, apply, changeDocument, hget, Except.map]
    | ok d =>
      cases hnext : nextVersion uri d.version with
      | error f => left; simp [act, apply, changeDocument, hget, hnext, Except.map]
      | ok v => right; simp [act, apply, changeDocument, hget, hnext, Except.map]
  | saving uri text =>
    left
    cases hget : s.getOpen uri <;> simp [act, apply, saveDocument, hget, Except.map]
  | closing uri =>
    cases hget : s.getOpen uri with
    | error f => left; simp [act, apply, closeDocument, hget, Except.map]
    | ok d => right; simp [act, apply, closeDocument, hget, Except.map]

theorem Filed.act (h : s.Filed) (o : DocumentOperation) : (s.act o).Filed := by
  rcases s.act_eq_put o with hact | ⟨d, hact⟩
  · rwa [hact]
  · rw [hact]
    intro p hp
    rcases Assoc.mem_insert hp with rfl | hold
    · rfl
    · exact h p hold

theorem Filed.run (h : s.Filed) (os : List DocumentOperation) : (s.run os).Filed := by
  induction os generalizing s with
  | nil => exact h
  | cons o rest ih => exact ih (h.act o)

theorem filed_after (done : List DocumentOperation) : (after done).Filed :=
  Filed.run (by intro p hp; cases hp) done

/-- The documents in a store are those that are found in it. -/
theorem Filed.mem_iff (h : s.Filed) : d ∈ s.documents.entries.map (·.2) ↔ s.get? d.uri = some d := by
  constructor
  · intro hmem
    obtain ⟨⟨key, d'⟩, hp, rfl⟩ := List.mem_map.mp hmem
    have hkey : d'.uri = key := h _ hp
    show s.documents.entries.lookup d'.uri = some d'
    rw [hkey]
    exact Assoc.lookup_of_mem s.documents.sorted hp
  · intro hget
    exact List.mem_map.mpr ⟨_, Assoc.mem_of_lookup hget, rfl⟩

theorem Filed.mem_openDocuments_iff (h : s.Filed) :
    d ∈ s.openDocuments ↔ s.get? d.uri = some d ∧ d.isOpen = true := by
  unfold openDocuments
  rw [List.mem_filter, h.mem_iff]

theorem Filed.nodup_openDocuments (h : s.Filed) : (s.openDocuments.map (·.uri)).Nodup := by
  have huris : (s.documents.entries.map (·.2)).map (·.uri) = s.documents.entries.map (·.1) := by
    rw [List.map_map]
    exact List.map_congr_left h
  have hall : ((s.documents.entries.map (·.2)).map (·.uri)).Nodup := by
    rw [huris]
    exact Assoc.nodup_keys s.documents.sorted
  exact hall.sublist (List.filter_sublist.map _)

theorem Filed.uri_mem_openDocuments_iff (h : s.Filed) :
    uri ∈ s.openDocuments.map (·.uri) ↔ s.isOpen uri = true := by
  constructor
  · intro hmem
    obtain ⟨d, hd, rfl⟩ := List.mem_map.mp hmem
    obtain ⟨hget, hopen⟩ := h.mem_openDocuments_iff.mp hd
    simpa [isOpen_eq, hget] using hopen
  · intro hopen
    obtain ⟨d, hget, hd⟩ := exists_of_isOpen hopen
    -- the document that is found under a URI has that URI
    have huri : d.uri = uri := h _ (Assoc.mem_of_lookup hget)
    exact List.mem_map.mpr ⟨d, h.mem_openDocuments_iff.mpr ⟨huri ▸ hget, hd⟩, huri⟩

/-! ## Whole runs -/

/-- **A document is what the operations on it have made of it, and failures leave no trace.** -/
theorem kept_apart (done : List DocumentOperation) (uri : DocumentUri) : KeptApart done uri := by
  have hstart : Alike uri {} {} := rfl
  obtain ⟨houtcomes, hdocument⟩ := hstart.run done
  have hversion : (after done).version? uri = (after (done.filter (·.uri = uri))).version? uri := by
    unfold version?
    rw [show (after done).get? uri = _ from hdocument]
    rfl
  have hfiled := filed_after done
  constructor
  · exact houtcomes
  · exact hdocument
  · exact hversion
  · exact congrArg Option.isSome hversion
  · intro before o later hdone htraceless
    rw [hdone]
    exact htraceless.left_out
  · rw [noticesIn_outcomes]
    exact (knows_after done).isOpen uri
  · intro hopen
    obtain ⟨d, hget, hd⟩ := exists_of_isOpen hopen
    exact ⟨d.version, version?_eq_some_iff.mpr ⟨d, hget, hd, rfl⟩, outcome_of_open hget hd⟩
  · exact outcome_of_closed
  · exact hfiled.nodup_openDocuments
  · intro d
    exact hfiled.mem_openDocuments_iff
  · exact hfiled.uri_mem_openDocuments_iff

end DocumentStore

end LanguageClient
