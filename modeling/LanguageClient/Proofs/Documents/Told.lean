import LanguageClient.Documents
import LanguageClient.Proofs.Dict

/-!
# LanguageClient.Proofs.Documents.Told -- a store knows what the server was told

The notices of a run are what the server was told. From them alone follows what is to be said of a
document: the versions that were issued for it (`DocumentStore.versions`), and whether it is open
(`DocumentStore.isOpenAfter`). `knows_run` says that the store knows the same. All of it is read off
`Told.of_apply`, which says once what an operation that succeeds does.
-/

namespace LanguageClient

namespace DocumentNotice

/-- The document that a notice is about. -/
def uri : DocumentNotice → DocumentUri
  | opened params => params.textDocument.uri
  | changed params => params.textDocument.uri
  | saved params => params.textDocument.uri
  | closed params => params.textDocument.uri

/-- Whether the document is open from now on, if the notice decides it. -/
def opens? : DocumentNotice → Option Bool
  | opened _ => some true
  | closed _ => some false
  | changed _ | saved _ => none

end DocumentNotice

namespace DocumentStore

/-! ## Runs -/

/-- The store after an operation, be it one that fails. -/
def act (s : DocumentStore) (o : DocumentOperation) : DocumentStore :=
  match s.apply o with
  | .ok (_, next) => next
  | .error _ => s

/-- The store after a list of operations. -/
def run (s : DocumentStore) (os : List DocumentOperation) : DocumentStore := os.foldl act s

/-- What the server is told of an operation, if it succeeds. -/
def notice? (s : DocumentStore) (o : DocumentOperation) : Option DocumentNotice :=
  (s.apply o).toOption.map (·.1)

/-- What the server is told in a run. -/
def notices (s : DocumentStore) : List DocumentOperation → List DocumentNotice
  | [] => []
  | o :: rest => (s.notice? o).toList ++ (s.act o).notices rest

/-- The versions of a document that notices issue, in order. -/
def versions (uri : DocumentUri) (told : List DocumentNotice) : List Int32 :=
  (told.filter (·.uri = uri)).filterMap (·.version?)

/-- Whether a document is open after some notices: the last that opens or closes it opens it. -/
def isOpenAfter (uri : DocumentUri) (told : List DocumentNotice) : Bool :=
  ((told.filter (·.uri = uri)).filterMap (·.opens?)).getLast?.getD false

theorem run_append (s : DocumentStore) (os os' : List DocumentOperation) :
    s.run (os ++ os') = (s.run os).run os' := List.foldl_append

theorem notices_append (s : DocumentStore) (os os' : List DocumentOperation) :
    s.notices (os ++ os') = s.notices os ++ (s.run os).notices os' := by
  induction os generalizing s with
  | nil => rfl
  | cons o rest ih =>
    have hrest := ih (s.act o)
    rw [List.cons_append, notices, notices, hrest, List.append_assoc]
    rfl

theorem versions_append (uri : DocumentUri) (told told' : List DocumentNotice) :
    versions uri (told ++ told') = versions uri told ++ versions uri told' := by
  rw [versions, List.filter_append, List.filterMap_append]
  rfl

theorem versions_singleton (uri : DocumentUri) (n : DocumentNotice) :
    versions uri [n] = if n.uri = uri then n.version?.toList else [] := by
  by_cases h : n.uri = uri
  · cases hversion : n.version? <;> simp [versions, h, hversion]
  · simp [versions, h]

theorem isOpenAfter_append_singleton (uri : DocumentUri) (told : List DocumentNotice)
    (n : DocumentNotice) :
    isOpenAfter uri (told ++ [n])
      = if n.uri = uri then n.opens?.getD (isOpenAfter uri told) else isOpenAfter uri told := by
  by_cases h : n.uri = uri
  · cases hopens : n.opens? <;> simp [isOpenAfter, h, hopens]
  · simp [isOpenAfter, h]

/-! ## Looking up -/

theorem get?_put (s : DocumentStore) (d : Document) (uri : DocumentUri) :
    (s.put d).get? uri = if uri = d.uri then some d else s.get? uri :=
  Assoc.lookup_insert d.uri d s.documents.entries uri

theorem isOpen_eq (s : DocumentStore) (uri : DocumentUri) :
    s.isOpen uri = ((s.get? uri).map (·.isOpen)).getD false := by
  unfold isOpen version?
  cases s.get? uri with
  | none => rfl
  | some d => cases hopen : d.isOpen <;> simp [hopen]

theorem getOpen_of_isOpen {s : DocumentStore} {uri : DocumentUri} {d : Document}
    (hget : s.get? uri = some d) (hopen : d.isOpen = true) : s.getOpen uri = .ok d := by
  simp [getOpen, hget, hopen]

theorem of_getOpen {s : DocumentStore} {uri : DocumentUri} {d : Document}
    (h : s.getOpen uri = .ok d) : s.get? uri = some d ∧ d.isOpen = true := by
  unfold getOpen at h
  split at h
  · next d' hget =>
    split at h
    · next hopen =>
      obtain rfl := Except.ok.inj h
      exact ⟨hget, hopen⟩
    · cases h
  · cases h

/-! ## The next version -/

/-- A version that is not the last of 32 bits has a next one, and that is one more: it does not wrap. -/
theorem toInt_add_one {v : Int32} (h : v ≠ Int32.maxValue) : (v + 1).toInt = v.toInt + 1 := by
  have hle : v.toInt ≤ Int32.maxValue.toInt := v.toInt_le
  have hne : v.toInt ≠ Int32.maxValue.toInt := fun heq => h (Int32.toInt_inj.mp heq)
  have hlow : -2 ^ 31 ≤ v.toInt := v.le_toInt
  rw [Int32.toInt_maxValue] at hle hne
  rw [Int32.toInt_add, Int32.toInt_one]
  apply Int.bmod_eq_of_le <;> omega

theorem nextVersion_of_ne {v : Int32} (h : v ≠ Int32.maxValue) (uri : DocumentUri) :
    nextVersion uri v = .ok (v + 1) := if_neg h

theorem nextVersion_maxValue (uri : DocumentUri) :
    nextVersion uri Int32.maxValue = .error (.staleVersion uri Int32.maxValue Int32.maxValue) := if_pos rfl

theorem lt_of_nextVersion {uri : DocumentUri} {v next : Int32} (h : nextVersion uri v = .ok next) :
    v < next := by
  by_cases hmax : v = Int32.maxValue
  · rw [hmax, nextVersion_maxValue] at h
    cases h
  · rw [nextVersion_of_ne hmax] at h
    obtain rfl := Except.ok.inj h
    rw [Int32.lt_iff_toInt_lt, toInt_add_one hmax]
    exact Int.lt_add_one_of_le (Int.le_refl _)

/-- A document is opened only if it is closed, and in a version above all before. -/
theorem of_openingVersion {s : DocumentStore} {uri : DocumentUri} {wanted : Option Int32} {v : Int32}
    (h : s.openingVersion uri wanted = .ok v) :
    s.isOpen uri = false ∧ ∀ d, s.get? uri = some d → d.version < v := by
  rw [isOpen_eq]
  cases hget : s.get? uri with
  | none => exact ⟨rfl, fun d hd => by cases hd⟩
  | some d =>
    cases hopen : d.isOpen with
    | true => cases wanted <;> simp [openingVersion, hget, hopen] at h
    | false =>
      refine ⟨by simp [hopen], fun d' hd' => ?_⟩
      obtain rfl := Option.some.inj hd'
      cases wanted with
      | none =>
        simp only [openingVersion, hget, hopen, Bool.false_eq_true, if_false] at h
        exact lt_of_nextVersion h
      | some w =>
        simp only [openingVersion, hget, hopen, Bool.false_eq_true, if_false] at h
        split at h
        · cases h
        · next hnot =>
          obtain rfl := Except.ok.inj h
          exact Int32.not_le.mp hnot

/-! ## What an operation does -/

/-- What an operation that succeeds does to a store, and what the server is told of it. -/
structure Told (s : DocumentStore) (o : DocumentOperation) (n : DocumentNotice)
    (s' : DocumentStore) : Prop where
  uri : n.uri = o.uri
  others : ∀ uri, uri ≠ o.uri → s'.get? uri = s.get? uri
  version : (s'.get? o.uri).map (·.version) = n.version?.or ((s.get? o.uri).map (·.version))
  isOpen : s'.isOpen o.uri = n.opens?.getD (s.isOpen o.uri)
  rising : ∀ d, s.get? o.uri = some d → ∀ v, n.version? = some v → d.version < v

variable {s s' : DocumentStore} {o : DocumentOperation} {n : DocumentNotice}

/-- An operation that fails says what is wrong with its own document. -/
theorem fault_of_apply {f : Fault} (h : s.apply o = .error f) :
    f = .notOpen o.uri ∨ f = .alreadyOpen o.uri ∨ ∃ version last, f = .staleVersion o.uri version last := by
  have hopen : ∀ {uri : DocumentUri}, s.getOpen uri = .error f → f = .notOpen uri := by
    intro uri hget
    unfold getOpen at hget
    split at hget
    · split at hget <;> cases hget
      rfl
    · cases hget
      rfl
  have hnext : ∀ {uri : DocumentUri} {v : Int32}, nextVersion uri v = .error f →
      ∃ version last, f = .staleVersion uri version last := by
    intro uri v hversion
    unfold nextVersion at hversion
    split at hversion <;> cases hversion
    exact ⟨v, v, rfl⟩
  cases o with
  | opening uri languageId wanted text =>
    cases hversion : s.openingVersion uri wanted with
    | ok v => simp [apply, openDocument, hversion, Except.map] at h
    | error g =>
      simp only [apply, openDocument, hversion, Except.map, Except.error.injEq] at h
      subst h
      unfold openingVersion at hversion
      split at hversion
      · cases hversion
      · split at hversion
        · cases hversion
          exact .inr (.inl rfl)
        · split at hversion <;> cases hversion
          exact .inr (.inr ⟨_, _, rfl⟩)
      · split at hversion
        · cases hversion
          exact .inr (.inl rfl)
        · exact .inr (.inr (hnext hversion))
  | changing uri changes =>
    cases hget : s.getOpen uri with
    | error g =>
      simp only [apply, changeDocument, hget, Except.map, Except.error.injEq] at h
      subst h
      exact .inl (hopen hget)
    | ok d =>
      cases hversion : nextVersion uri d.version with
      | ok v => simp [apply, changeDocument, hget, hversion, Except.map] at h
      | error g =>
        simp only [apply, changeDocument, hget, hversion, Except.map, Except.error.injEq] at h
        subst h
        exact .inr (.inr (hnext hversion))
  | saving uri text =>
    cases hget : s.getOpen uri with
    | ok d => simp [apply, saveDocument, hget, Except.map] at h
    | error g =>
      simp only [apply, saveDocument, hget, Except.map, Except.error.injEq] at h
      subst h
      exact .inl (hopen hget)
  | closing uri =>
    cases hget : s.getOpen uri with
    | ok d => simp [apply, closeDocument, hget, Except.map] at h
    | error g =>
      simp only [apply, closeDocument, hget, Except.map, Except.error.injEq] at h
      subst h
      exact .inl (hopen hget)

theorem Told.of_apply (h : s.apply o = .ok (n, s')) : Told s o n s' := by
  cases o with
  | opening uri languageId wanted text =>
    cases hversion : s.openingVersion uri wanted with
    | error f => simp [apply, openDocument, hversion, Except.map] at h
    | ok v =>
      simp only [apply, openDocument, hversion, Except.map, Except.ok.injEq, Prod.mk.injEq] at h
      obtain ⟨rfl, rfl⟩ := h
      obtain ⟨-, hrising⟩ := of_openingVersion hversion
      constructor
      · rfl
      · intro u hu
        exact (get?_put s _ u).trans (if_neg hu)
      · simp [DocumentOperation.uri, get?_put, DocumentNotice.version?]
      · simp [DocumentOperation.uri, isOpen_eq, get?_put, DocumentNotice.opens?]
      · intro d hd w hw
        obtain rfl := Option.some.inj hw
        exact hrising d hd
  | changing uri changes =>
    cases hgetOpen : s.getOpen uri with
    | error f => simp [apply, changeDocument, hgetOpen, Except.map] at h
    | ok d =>
      obtain ⟨hget, hopen⟩ := of_getOpen hgetOpen
      cases hnext : nextVersion uri d.version with
      | error f => simp [apply, changeDocument, hgetOpen, hnext, Except.map] at h
      | ok v =>
        simp only [apply, changeDocument, hgetOpen, hnext, Except.map, Except.ok.injEq,
          Prod.mk.injEq] at h
        obtain ⟨rfl, rfl⟩ := h
        constructor
        · rfl
        · intro u hu
          exact (get?_put s _ u).trans (if_neg hu)
        · simp [DocumentOperation.uri, get?_put, DocumentNotice.version?]
        · simp [DocumentOperation.uri, isOpen_eq, get?_put, DocumentNotice.opens?, hget]
        · intro d' hd' w hw
          obtain rfl := Option.some.inj (hget.symm.trans hd')
          obtain rfl := Option.some.inj hw
          exact lt_of_nextVersion hnext
  | saving uri text =>
    cases hgetOpen : s.getOpen uri with
    | error f => simp [apply, saveDocument, hgetOpen, Except.map] at h
    | ok d =>
      simp only [apply, saveDocument, hgetOpen, Except.map, Except.ok.injEq, Prod.mk.injEq] at h
      obtain ⟨rfl, rfl⟩ := h
      exact ⟨rfl, fun _ _ => rfl, rfl, rfl, fun _ _ v hv => by cases hv⟩
  | closing uri =>
    cases hgetOpen : s.getOpen uri with
    | error f => simp [apply, closeDocument, hgetOpen, Except.map] at h
    | ok d =>
      obtain ⟨hget, -⟩ := of_getOpen hgetOpen
      simp only [apply, closeDocument, hgetOpen, Except.map, Except.ok.injEq, Prod.mk.injEq] at h
      obtain ⟨rfl, rfl⟩ := h
      constructor
      · rfl
      · intro u hu
        exact (get?_put s _ u).trans (if_neg hu)
      · simp [DocumentOperation.uri, get?_put, DocumentNotice.version?, hget]
      · simp [DocumentOperation.uri, isOpen_eq, get?_put, DocumentNotice.opens?]
      · intro _ _ v hv
        cases hv

/-- An operation fails, and then it changes nothing and the server is told nothing, or it succeeds. -/
theorem act_cases (s : DocumentStore) (o : DocumentOperation) :
    (s.act o = s ∧ s.notice? o = none) ∨ ∃ n, s.notice? o = some n ∧ Told s o n (s.act o) := by
  cases h : s.apply o with
  | error f => exact .inl ⟨by simp [act, h], by simp [notice?, h, Except.toOption]⟩
  | ok r =>
    obtain ⟨n, next⟩ := r
    have hact : s.act o = next := by simp [act, h]
    refine .inr ⟨n, by simp [notice?, h, Except.toOption], ?_⟩
    rw [hact]
    exact Told.of_apply h

/-! ## The store knows what the server was told -/

/-- A store knows what the server was told: the last version of every document, and whether it is open. -/
structure Knows (s : DocumentStore) (told : List DocumentNotice) : Prop where
  version : ∀ uri, (s.get? uri).map (·.version) = (versions uri told).getLast?
  isOpen : ∀ uri, s.isOpen uri = isOpenAfter uri told

theorem knows_empty : ({} : DocumentStore).Knows [] where
  version _ := rfl
  isOpen _ := rfl

theorem Told.knows (h : Told s o n s') {told : List DocumentNotice} (hs : s.Knows told) :
    s'.Knows (told ++ [n]) := by
  constructor
  · intro uri
    rw [versions_append, versions_singleton]
    by_cases hu : n.uri = uri
    · have huri : uri = o.uri := hu.symm.trans h.uri
      rw [if_pos hu, huri, h.version, hs.version]
      cases n.version? <;> simp
    · have huri : uri ≠ o.uri := fun heq => hu (h.uri.trans heq.symm)
      rw [if_neg hu, List.append_nil, h.others uri huri, hs.version]
  · intro uri
    rw [isOpenAfter_append_singleton]
    by_cases hu : n.uri = uri
    · have huri : uri = o.uri := hu.symm.trans h.uri
      rw [if_pos hu, huri, h.isOpen, hs.isOpen]
    · have huri : uri ≠ o.uri := fun heq => hu (h.uri.trans heq.symm)
      rw [if_neg hu, isOpen_eq, h.others uri huri, ← isOpen_eq, hs.isOpen]

theorem knows_act {told : List DocumentNotice} (hs : s.Knows told) (o : DocumentOperation) :
    (s.act o).Knows (told ++ (s.notice? o).toList) := by
  rcases s.act_cases o with ⟨hact, hnotice⟩ | ⟨n, hnotice, htold⟩
  · rw [hact, hnotice]
    simpa using hs
  · rw [hnotice]
    exact htold.knows hs

theorem knows_run {told : List DocumentNotice} (hs : s.Knows told) (os : List DocumentOperation) :
    (s.run os).Knows (told ++ s.notices os) := by
  induction os generalizing s told with
  | nil => simpa [run, notices] using hs
  | cons o rest ih =>
    have hrest := ih (knows_act hs o)
    rw [notices, ← List.append_assoc]
    exact hrest

end DocumentStore

end LanguageClient
