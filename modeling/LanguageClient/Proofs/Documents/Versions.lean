import LanguageClient.Proofs.Documents.Told

/-!
# LanguageClient.Proofs.Documents.Versions -- the versions of a document ascend

Whatever is done with a store that began empty, the versions that it issues for a document ascend over
the whole run, across closing and opening again (`ascending_run`): the store knows the last of them, and
what it issues next is above it. So the versions end with the last of 32 bits, and do not wrap
(`versions_ascend`).
-/

namespace LanguageClient

namespace DocumentStore

/-- The version that an operation issues, if it issues one, or why it fails. -/
def issue (s : DocumentStore) (o : DocumentOperation) : Except Fault (Option Int32) :=
  (s.apply o).map (·.1.version?)

/-- The store after operations on one that was empty. -/
def after (done : List DocumentOperation) : DocumentStore := run {} done

/-- The versions of a document that are issued in a run which begins with an empty store. -/
def issued (done : List DocumentOperation) (uri : DocumentUri) : List Int32 :=
  versions uri (notices {} done)

/-- What holds of the versions of a document after some operations on a store that was empty. -/
structure Versioned (done : List DocumentOperation) (uri : DocumentUri) : Prop where
  /-- Each version is above those that were issued before. -/
  ascending : (issued done uri).Pairwise (· < ·)
  /-- The store knows the last of them. -/
  latest : ((after done).get? uri).map (·.version) = (issued done uri).getLast?
  /-- A document is open if the last notice that opens or closes it opens it. -/
  opened : (after done).isOpen uri = isOpenAfter uri (notices {} done)
  /-- The first version is the one that is wanted, or else 1. -/
  first : issued done uri = [] → ∀ languageId wanted text,
    (after done).issue (.opening uri languageId wanted text) = .ok (some (wanted.getD 1))
  /-- A version that is wanted later has to be above the last one. -/
  wanted : ∀ last, (issued done uri).getLast? = some last → (after done).isOpen uri = false →
    ∀ languageId version text, (after done).issue (.opening uri languageId (some version) text)
      = if version ≤ last then .error (.staleVersion uri version last) else .ok (some version)
  /-- A change, and opening again without a version, issue the version that is one more. -/
  next : ∀ last, (issued done uri).getLast? = some last → last ≠ Int32.maxValue →
    ∃ version : Int32, version.toInt = last.toInt + 1 ∧
      ((after done).isOpen uri = true → ∀ changes,
        (after done).issue (.changing uri changes) = .ok (some version)) ∧
      ((after done).isOpen uri = false → ∀ languageId text,
        (after done).issue (.opening uri languageId none text) = .ok (some version))
  /-- After the last version of 32 bits none is issued any more, whatever is done. -/
  exhausted : (issued done uri).getLast? = some Int32.maxValue → ∀ later,
    issued (done ++ later) uri = issued done uri ∧
      ((after (done ++ later)).isOpen uri = true → ∀ changes,
        (after (done ++ later)).issue (.changing uri changes)
          = .error (.staleVersion uri Int32.maxValue Int32.maxValue)) ∧
      ((after (done ++ later)).isOpen uri = false → ∀ languageId wanted text,
        (after (done ++ later)).issue (.opening uri languageId wanted text)
          = .error (.staleVersion uri (wanted.getD Int32.maxValue) Int32.maxValue))

variable {s s' : DocumentStore} {o : DocumentOperation} {n : DocumentNotice} {uri : DocumentUri}
  {done : List DocumentOperation}

/-! ## What is issued -/

theorem issue_opening_first (h : s.get? uri = none) (languageId : String) (wanted : Option Int32)
    (text : String) :
    s.issue (.opening uri languageId wanted text) = .ok (some (wanted.getD 1)) := by
  simp [issue, apply, openDocument, openingVersion, h, Except.map, DocumentNotice.version?,
    initialVersion]

theorem issue_opening_again {d : Document} (hget : s.get? uri = some d) (hclosed : d.isOpen = false)
    (languageId text : String) :
    s.issue (.opening uri languageId none text) = (nextVersion uri d.version).map some := by
  cases hnext : nextVersion uri d.version <;>
    simp [issue, apply, openDocument, openingVersion, hget, hclosed, hnext, Except.map,
      DocumentNotice.version?]

theorem issue_opening_wanted {d : Document} (hget : s.get? uri = some d) (hclosed : d.isOpen = false)
    (languageId : String) (version : Int32) (text : String) :
    s.issue (.opening uri languageId (some version) text)
      = if version ≤ d.version then .error (.staleVersion uri version d.version)
        else .ok (some version) := by
  by_cases hle : version ≤ d.version
  · simp [issue, apply, openDocument, openingVersion, hget, hclosed, hle, Except.map]
  · simp [issue, apply, openDocument, openingVersion, hget, hclosed, hle, Except.map,
      DocumentNotice.version?]

theorem issue_changing {d : Document} (hget : s.get? uri = some d) (hopen : d.isOpen = true)
    (changes : List TextDocumentContentChangeEvent) :
    s.issue (.changing uri changes) = (nextVersion uri d.version).map some := by
  cases hnext : nextVersion uri d.version <;>
    simp [issue, apply, changeDocument, getOpen_of_isOpen hget hopen, hnext, Except.map,
      DocumentNotice.version?]

/-! ## The versions ascend -/

/-- The last of ascending versions is the highest. -/
theorem le_of_getLast? {vs : List Int32} (h : vs.Pairwise (· < ·)) {last : Int32}
    (hlast : vs.getLast? = some last) : ∀ v ∈ vs, v ≤ last := by
  obtain ⟨before, rfl⟩ := List.getLast?_eq_some_iff.mp hlast
  obtain ⟨-, -, hbelow⟩ := List.pairwise_append.mp h
  intro v hv
  rcases List.mem_append.mp hv with hv | hv
  · exact Int32.le_of_lt (hbelow v hv last List.mem_cons_self)
  · rw [List.mem_singleton.mp hv]
    exact Int32.le_rfl

theorem Told.ascending (h : Told s o n s') {told : List DocumentNotice} (hs : s.Knows told)
    (hasc : (versions uri told).Pairwise (· < ·)) :
    (versions uri (told ++ [n])).Pairwise (· < ·) := by
  rw [versions_append, versions_singleton]
  by_cases hu : n.uri = uri
  · rw [if_pos hu]
    cases hversion : n.version? with
    | none => simpa using hasc
    | some v =>
      refine List.pairwise_append.mpr ⟨hasc, List.pairwise_singleton _ _, fun w hw v' hv' => ?_⟩
      rw [List.mem_singleton.mp hv']
      -- the document is known, in the last version that was issued for it
      have hsome : (versions uri told).getLast?.isSome :=
        List.getLast?_isSome.mpr (List.ne_nil_of_mem hw)
      obtain ⟨last, hlast⟩ := Option.isSome_iff_exists.mp hsome
      obtain ⟨d, hget, hd⟩ := Option.map_eq_some_iff.mp ((hs.version uri).trans hlast)
      have huri : o.uri = uri := h.uri.symm.trans hu
      have hbelow : d.version < v := h.rising d (huri ▸ hget) v hversion
      have hle : w ≤ last := le_of_getLast? hasc hlast w hw
      exact Int32.lt_of_le_of_lt hle (hd ▸ hbelow)
  · rw [if_neg hu, List.append_nil]
    exact hasc

theorem ascending_run {told : List DocumentNotice} (hs : s.Knows told)
    (hasc : (versions uri told).Pairwise (· < ·)) (os : List DocumentOperation) :
    (versions uri (told ++ s.notices os)).Pairwise (· < ·) := by
  induction os generalizing s told with
  | nil => simpa [notices] using hasc
  | cons o rest ih =>
    have hact : (versions uri (told ++ (s.notice? o).toList)).Pairwise (· < ·) := by
      rcases s.act_cases o with ⟨-, hnotice⟩ | ⟨n, hnotice, htold⟩
      · simpa [hnotice] using hasc
      · rw [hnotice]
        exact htold.ascending hs hasc
    have hrest := ih (knows_act hs o) hact
    rw [notices, ← List.append_assoc]
    exact hrest

/-! ## Whole runs -/

theorem knows_after (done : List DocumentOperation) : (after done).Knows (notices {} done) :=
  knows_run knows_empty done

theorem ascending_issued (done : List DocumentOperation) (uri : DocumentUri) :
    (issued done uri).Pairwise (· < ·) :=
  ascending_run knows_empty List.Pairwise.nil done

theorem issued_append (done later : List DocumentOperation) (uri : DocumentUri) :
    issued (done ++ later) uri = issued done uri ++ versions uri ((after done).notices later) := by
  unfold issued
  rw [notices_append, versions_append]
  rfl

/-- The document of which a version was issued, as the store knows it. -/
theorem document_of_issued {last : Int32} (h : (issued done uri).getLast? = some last) :
    ∃ d, (after done).get? uri = some d ∧ d.version = last ∧ (after done).isOpen uri = d.isOpen := by
  obtain ⟨d, hget, hd⟩ := Option.map_eq_some_iff.mp (((knows_after done).version uri).trans h)
  refine ⟨d, hget, hd, ?_⟩
  rw [isOpen_eq, hget]
  rfl

/-- Nothing is above the last version of 32 bits. -/
theorem issued_of_maxValue (h : (issued done uri).getLast? = some Int32.maxValue)
    (later : List DocumentOperation) : issued (done ++ later) uri = issued done uri := by
  have hasc := ascending_issued (done ++ later) uri
  rw [issued_append] at hasc ⊢
  obtain ⟨-, -, hbelow⟩ := List.pairwise_append.mp hasc
  have hmem : Int32.maxValue ∈ issued done uri := List.mem_of_getLast? h
  have hnil : versions uri ((after done).notices later) = [] := by
    apply List.eq_nil_iff_forall_not_mem.mpr
    intro v hv
    exact Int32.not_maxValue_lt (hbelow _ hmem v hv)
  rw [hnil, List.append_nil]

theorem issue_of_maxValue (h : (issued done uri).getLast? = some Int32.maxValue) :
    ((after done).isOpen uri = true → ∀ changes,
        (after done).issue (.changing uri changes)
          = .error (.staleVersion uri Int32.maxValue Int32.maxValue)) ∧
      ((after done).isOpen uri = false → ∀ languageId wanted text,
        (after done).issue (.opening uri languageId wanted text)
          = .error (.staleVersion uri (wanted.getD Int32.maxValue) Int32.maxValue)) := by
  obtain ⟨d, hget, hd, hopen⟩ := document_of_issued h
  have hnext : (nextVersion uri d.version).map some
      = (.error (.staleVersion uri Int32.maxValue Int32.maxValue) : Except Fault (Option Int32)) := by
    rw [hd, nextVersion_maxValue]
    rfl
  constructor
  · intro hisOpen changes
    rw [issue_changing hget (hopen.symm.trans hisOpen), hnext]
  · intro hclosed languageId wanted text
    have hdclosed : d.isOpen = false := hopen.symm.trans hclosed
    cases wanted with
    | none => exact (issue_opening_again hget hdclosed languageId text).trans hnext
    | some version =>
      have hle : version ≤ d.version := hd ▸ Int32.le_maxValue version
      rw [issue_opening_wanted hget hdclosed, if_pos hle, hd]
      rfl

/-- **The versions of a document ascend over every run, and end where there is no higher one.** -/
theorem versions_ascend (done : List DocumentOperation) (uri : DocumentUri) : Versioned done uri where
  ascending := ascending_issued done uri
  latest := (knows_after done).version uri
  opened := (knows_after done).isOpen uri
  first hnone languageId wanted text := by
    have hversion := (knows_after done).version uri
    have hget : (after done).get? uri = none := by
      rw [show versions uri (notices {} done) = [] from hnone] at hversion
      exact Option.map_eq_none_iff.mp hversion
    exact issue_opening_first hget languageId wanted text
  wanted last hlast hclosed languageId version text := by
    obtain ⟨d, hget, hd, hopen⟩ := document_of_issued hlast
    rw [issue_opening_wanted hget (hopen.symm.trans hclosed), hd]
  next last hlast hne := by
    obtain ⟨d, hget, hd, hopen⟩ := document_of_issued hlast
    have hnext : (nextVersion uri d.version).map some = .ok (some (last + 1)) := by
      rw [hd, nextVersion_of_ne hne]
      rfl
    refine ⟨last + 1, toInt_add_one hne, fun hisOpen changes => ?_, fun hclosed languageId text => ?_⟩
    · rw [issue_changing hget (hopen.symm.trans hisOpen), hnext]
    · rw [issue_opening_again hget (hopen.symm.trans hclosed), hnext]
  exhausted hlast later := by
    have hsame : issued (done ++ later) uri = issued done uri := issued_of_maxValue hlast later
    exact ⟨hsame, issue_of_maxValue (hsame ▸ hlast)⟩

end DocumentStore

end LanguageClient
