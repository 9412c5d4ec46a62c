import LanguageClient.Proofs.Rpc.Faults
import LanguageClient.Proofs.Rpc.RoundTrip

/-!
# LanguageClient.Proofs.Rpc.Grammar -- which bodies are which messages

The messages of the protocol are told without the reader: which members an object must have to be a request,
a notification or a response (`Message.Shows`), and which make a response that breaks the protocol
(`Message.Breaks`). The reader takes for a message what shows that message, refuses with its id what breaks
the protocol, and refuses all else as no message (`Message.classified`).
-/

namespace LanguageClient

namespace Message

/-! ## The grammar -/

/-- A value that is an id: a text, or an integer of 64 bits. -/
inductive IsId : Json → Id → Prop where
  | number (n : Int64) : IsId (.int n.toInt) (.number n)
  | name (s : String) : IsId (.str s) (.name s)

/-- A value that tells what is answered: an id, or null if that could not be read. -/
inductive IsAnsweredId : Json → Option Id → Prop where
  | null : IsAnsweredId .null none
  | given {j : Json} {id : Id} (h : IsId j id) : IsAnsweredId j (some id)

/-- A value that is an error: an object with a code of 32 bits and a message, and with data or none, or the
list of all three. Null data are no data. -/
inductive IsError : Json → ResponseError → Prop where
  | object {members : List (String × Json)} {code : Int32} {message : String}
      (hcode : members.lookup "code" = some (.int code.toInt))
      (hmessage : members.lookup "message" = some (.str message)) :
      IsError (.object members) { code, message, data := (members.lookup "data").filter (· ≠ .null) }
  | list (code : Int32) (message : String) (data : Json) :
      IsError (.list [.int code.toInt, .str message, data])
        { code, message, data := (some data).filter (· ≠ .null) }

/-- A member that holds an error or none. -/
inductive HoldsError : Option Json → Option ResponseError → Prop where
  | absent : HoldsError none none
  | null : HoldsError (some .null) none
  | given {j : Json} {e : ResponseError} (h : IsError j e) : HoldsError (some j) (some e)

/-- Members of an answer, whatever it answers with. -/
structure Answers (members : List (String × Json)) (id : Option Id) (error : Option ResponseError) :
    Prop where
  id : ∃ j, members.lookup "id" = some j ∧ IsAnsweredId j id
  method : members.lookup "method" = none
  error : HoldsError (members.lookup "error") error

/-- The members that a message shows by. -/
inductive Shows (members : List (String × Json)) : Message → Prop where
  | request {j : Json} {id : Id} {method : String} (hid : members.lookup "id" = some j) (h : IsId j id)
      (hmethod : members.lookup "method" = some (.str method)) :
      Shows members (.request { id, method, params := members.lookup "params" })
  | notification {method : String} (hid : members.lookup "id" = none)
      (hmethod : members.lookup "method" = some (.str method)) :
      Shows members (.notification { method, params := members.lookup "params" })
  | response {id : Option Id} {error : Option ResponseError} (h : Answers members id error)
      (hone : (members.lookup "result").isSome ≠ error.isSome) :
      Shows members (.response { id, result := members.lookup "result", error })

/-- The members that make an answer with both or neither of result and error. -/
inductive Breaks (members : List (String × Json)) : Option Id → ProtocolFault → Prop where
  | both {id : Option Id} {e : ResponseError} {result : Json} (h : Answers members id (some e))
      (hresult : members.lookup "result" = some result) : Breaks members id .bothResultAndError
  | neither {id : Option Id} (h : Answers members id none) (hresult : members.lookup "result" = none) :
      Breaks members id .neitherResultNorError

/-- A body that is an object with these members. -/
def IsObject (body : List UInt8) (members : List (String × Json)) : Prop :=
  (Text.ofBytes? body).bind Json.parse? = some (.object members)

/-- Members of an object of the version that is spoken. -/
def IsVersioned (members : List (String × Json)) : Prop :=
  members.lookup "jsonrpc" = some (.str protocolVersion)

/-- Members that are the same for a reader: those that tell the kind of a message, and those that this kind
has. -/
structure Alike (members others : List (String × Json)) : Prop where
  version : others.lookup "jsonrpc" = members.lookup "jsonrpc"
  id : others.lookup "id" = members.lookup "id"
  method : others.lookup "method" = members.lookup "method"
  params : members.lookup "method" ≠ none → others.lookup "params" = members.lookup "params"
  outcome : members.lookup "method" = none →
    others.lookup "result" = members.lookup "result" ∧ others.lookup "error" = members.lookup "error"

/-! ## Reading by the grammar -/

theorem readId_eq_ok_iff {j : Json} {id : Option Id} : readId j = .ok id ↔ IsAnsweredId j id := by
  constructor
  · intro h
    unfold readId at h
    split at h
    · obtain rfl := Except.ok.inj h
      exact .null
    · next s =>
      obtain rfl := Except.ok.inj h
      exact .given (.name s)
    · next n =>
      split at h
      · next hrange =>
        obtain rfl := Except.ok.inj h
        have hn : (Int64.ofInt n).toInt = n := Int64.toInt_ofInt_of_le hrange.1 hrange.2
        have hid := IsId.number (Int64.ofInt n)
        rw [hn] at hid
        exact .given hid
      · cases h
    · cases h
  · rintro (_ | ⟨n | s⟩)
    · rfl
    · have hrange : -2 ^ 63 ≤ n.toInt ∧ n.toInt < 2 ^ 63 := ⟨Int64.le_toInt n, Int64.toInt_lt n⟩
      simp only [readId, if_pos hrange, Int64.ofInt_toInt]
    · rfl

theorem readMethod_eq_ok_iff {j : Json} {method : String} : readMethod j = .ok method ↔ j = .str method := by
  cases j <;> simp [readMethod]

theorem read_int32_iff {j : Json} {code : Int32} :
    Json.Codec.int32.read .document j = .ok code ↔ j = .int code.toInt := by
  constructor
  · intro h
    cases j with
    | int n =>
      simp only [Json.Codec.int32, Json.Codec.integer] at h
      by_cases hrange : -2 ^ 31 ≤ n ∧ n < 2 ^ 31
      · rw [if_pos hrange] at h
        obtain rfl := Except.ok.inj h
        rw [Int32.toInt_ofInt_of_le hrange.1 hrange.2]
      · rw [if_neg hrange] at h
        cases h
    | _ => cases h
  · rintro rfl
    have hrange : -2 ^ 31 ≤ code.toInt ∧ code.toInt < 2 ^ 31 := ⟨Int32.le_toInt code, Int32.toInt_lt code⟩
    simp only [Json.Codec.int32, Json.Codec.integer, if_pos hrange, Int32.ofInt_toInt]

theorem read_string_iff {j : Json} {s : String} :
    Json.Codec.string.read .document j = .ok s ↔ j = .str s := by
  cases j <;> simp [Json.Codec.string]

theorem ofJson_eq_ok_iff {j : Json} {e : ResponseError} :
    ResponseError.codec.ofJson j = .ok e ↔ IsError j e := by
  constructor
  · intro h
    cases j with
    | object members =>
      have hfields := Json.Fields.read_object_iff.mp h
      obtain ⟨_, data, hrest, hdata, rfl⟩ := Json.Fields.ofMembers_seq_iff.mp hfields
      obtain ⟨_, message, hfirst, hmessage, rfl⟩ := Json.Fields.ofMembers_seq_iff.mp hrest
      obtain ⟨code, hcode, rfl⟩ := Json.Fields.ofMembers_map_iff.mp hfirst
      obtain ⟨c, hc, hread⟩ := Json.Fields.ofMembers_field_iff.mp hcode
      obtain ⟨t, ht, htext⟩ := Json.Fields.ofMembers_field_iff.mp hmessage
      obtain rfl := read_int32_iff.mp hread
      obtain rfl := read_string_iff.mp htext
      rw [Json.Fields.ofMembers_optional_raw] at hdata
      obtain rfl := Except.ok.inj hdata
      exact .object hc ht
    | list items =>
      have hfields := Json.Fields.read_list_iff.mp h
      obtain ⟨_, data, _, hrest, hdata, rfl⟩ := Json.Fields.ofItems_seq_iff.mp hfields
      obtain ⟨_, message, _, hfirst, hmessage, rfl⟩ := Json.Fields.ofItems_seq_iff.mp hrest
      obtain ⟨code, hcode, rfl⟩ := Json.Fields.ofItems_map_iff.mp hfirst
      obtain ⟨c, rfl, hread⟩ := Json.Fields.ofItems_field_iff.mp hcode
      obtain ⟨t, rfl, htext⟩ := Json.Fields.ofItems_field_iff.mp hmessage
      obtain ⟨d, rfl, rfl⟩ := Json.Fields.ofItems_optional_raw_iff.mp hdata
      obtain rfl := read_int32_iff.mp hread
      obtain rfl := read_string_iff.mp htext
      exact .list code message d
    | _ => cases h
  · rintro (⟨hcode, hmessage⟩ | ⟨code, message, data⟩)
    · apply Json.Fields.read_object_iff.mpr
      exact Json.Fields.ofMembers_seq_iff.mpr ⟨_, _, Json.Fields.ofMembers_seq_iff.mpr ⟨_, _,
        Json.Fields.ofMembers_map_iff.mpr ⟨_, Json.Fields.ofMembers_field_iff.mpr
          ⟨_, hcode, read_int32_iff.mpr rfl⟩, rfl⟩,
        Json.Fields.ofMembers_field_iff.mpr ⟨_, hmessage, read_string_iff.mpr rfl⟩, rfl⟩,
        Json.Fields.ofMembers_optional_raw _ _, rfl⟩
    · apply Json.Fields.read_list_iff.mpr
      exact Json.Fields.ofItems_seq_iff.mpr ⟨_, _, _, Json.Fields.ofItems_seq_iff.mpr ⟨_, _, _,
        Json.Fields.ofItems_map_iff.mpr ⟨_, Json.Fields.ofItems_field_iff.mpr
          ⟨_, rfl, read_int32_iff.mpr rfl⟩, rfl⟩,
        Json.Fields.ofItems_field_iff.mpr ⟨_, rfl, read_string_iff.mpr rfl⟩, rfl⟩,
        Json.Fields.ofItems_optional_raw_iff.mpr ⟨_, rfl, rfl⟩, rfl⟩

theorem readError_eq_ok_iff {member : Option Json} {error : Option ResponseError} :
    readError member = .ok error ↔ HoldsError member error := by
  constructor
  · intro h
    unfold readError at h
    split at h
    · obtain rfl := Except.ok.inj h
      exact .absent
    · obtain rfl := Except.ok.inj h
      exact .null
    · split at h
      · next hread =>
        obtain rfl := Except.ok.inj h
        exact .given (ofJson_eq_ok_iff.mp hread)
      · cases h
  · rintro (_ | _ | h)
    · rfl
    · rfl
    · cases h with
      | object hcode hmessage =>
        simp only [readError, ofJson_eq_ok_iff.mpr (.object hcode hmessage)]
      | list code message data =>
        simp only [readError, ofJson_eq_ok_iff.mpr (.list code message data)]

theorem decode_of_readId {j : Json} {fault : Fault} (h : readId j = .error fault) :
    ∃ cause, fault = .decode cause := by
  unfold readId at h
  split at h
  · cases h
  · cases h
  · split at h
    · cases h
    · exact ⟨_, (Except.error.inj h).symm⟩
  · exact ⟨_, (Except.error.inj h).symm⟩

theorem decode_of_readMethod {j : Json} {fault : Fault} (h : readMethod j = .error fault) :
    ∃ cause, fault = .decode cause := by
  unfold readMethod at h
  split at h
  · cases h
  · exact ⟨_, (Except.error.inj h).symm⟩

theorem decode_of_readError {member : Option Json} {fault : Fault} (h : readError member = .error fault) :
    ∃ cause, fault = .decode cause := by
  unfold readError at h
  split at h
  · cases h
  · cases h
  · split at h
    · cases h
    · exact ⟨_, (Except.error.inj h).symm⟩

/-! ## What the reader makes of members -/

theorem Answers.ofMembers_eq {members : List (String × Json)} {id : Option Id}
    {error : Option ResponseError} (h : Answers members id error) :
    ofMembers members = readResponse id (members.lookup "result") (members.lookup "error") := by
  obtain ⟨j, hlookup, hid⟩ := h.id
  simp only [ofMembers, hlookup, h.method, readId_eq_ok_iff.mpr hid]

/-- What shows a message is read as this message. -/
theorem Shows.ofMembers_eq {members : List (String × Json)} {m : Message} (h : Shows members m) :
    ofMembers members = .ok m := by
  cases h with
  | request hid h hmethod =>
    simp only [ofMembers, hid, hmethod, readRequest, readId_eq_ok_iff.mpr (.given h),
      readMethod_eq_ok_iff.mpr rfl]
  | notification hid hmethod =>
    simp only [ofMembers, hid, hmethod, readMethod_eq_ok_iff.mpr rfl]
  | @response id error h hone =>
    rw [h.ofMembers_eq]
    unfold readResponse
    rw [readError_eq_ok_iff.mpr h.error]
    cases hresult : members.lookup "result" with
    | none =>
      cases error with
      | none => simp [hresult] at hone
      | some e => rfl
    | some result =>
      cases error with
      | none => rfl
      | some e => simp [hresult] at hone

/-- What breaks the protocol is refused with its id. -/
theorem Breaks.ofMembers_eq {members : List (String × Json)} {id : Option Id} {cause : ProtocolFault}
    (h : Breaks members id cause) : ofMembers members = .error (.protocol id cause) := by
  cases h with
  | both h hresult =>
    simp only [h.ofMembers_eq, readResponse, readError_eq_ok_iff.mpr h.error, hresult]
  | neither h hresult =>
    simp only [h.ofMembers_eq, readResponse, readError_eq_ok_iff.mpr h.error, hresult]

/-- Members of an answer show it or break the protocol. -/
theorem Answers.shows_or_breaks {members : List (String × Json)} {id : Option Id}
    {error : Option ResponseError} (h : Answers members id error) :
    (∃ m, Shows members m) ∨ ∃ cause, Breaks members id cause := by
  by_cases hone : (members.lookup "result").isSome ≠ error.isSome
  · exact .inl ⟨_, .response h hone⟩
  · cases hresult : members.lookup "result" with
    | none =>
      cases error with
      | none => exact .inr ⟨_, .neither h hresult⟩
      | some e => simp [hresult] at hone
    | some result =>
      cases error with
      | none => simp [hresult] at hone
      | some e => exact .inr ⟨_, .both h hresult⟩

/-- Members that show no message and do not break the protocol are none of a message. -/
theorem ofMembers_cases (members : List (String × Json)) :
    (∃ m, Shows members m) ∨ (∃ id cause, Breaks members id cause)
      ∨ ∃ cause, ofMembers members = .error (.decode cause) := by
  have hrefused : ∀ {α : Type} {read : Except Fault α} {fault : Fault},
      (∃ cause, fault = .decode cause) → read = .error fault → ∃ cause, read = .error (.decode cause) := by
    rintro α read fault ⟨cause, rfl⟩ hread
    exact ⟨cause, hread⟩
  unfold ofMembers
  split
  · next j name hid hmethod =>
    unfold readRequest
    split
    · next hread => exact .inr (.inr (hrefused (decode_of_readId hread) rfl))
    · exact .inr (.inr ⟨_, rfl⟩)
    · next id hread =>
      cases readId_eq_ok_iff.mp hread with
      | given h =>
        split
        · next hread => exact .inr (.inr (hrefused (decode_of_readMethod hread) rfl))
        · next hread =>
          obtain rfl := readMethod_eq_ok_iff.mp hread
          exact .inl ⟨_, .request hid h hmethod⟩
  · next hid hmethod =>
    split
    · next hread => exact .inr (.inr (hrefused (decode_of_readMethod hread) rfl))
    · next hread =>
      obtain rfl := readMethod_eq_ok_iff.mp hread
      exact .inl ⟨_, .notification hid hmethod⟩
  · next j hid hmethod =>
    split
    · next hread => exact .inr (.inr (hrefused (decode_of_readId hread) rfl))
    · next id hread =>
      cases herror : readError (members.lookup "error") with
      | error fault =>
        unfold readResponse
        rw [herror]
        exact .inr (.inr (hrefused (decode_of_readError herror) rfl))
      | ok error =>
        have hanswers : Answers members id error :=
          ⟨⟨j, hid, readId_eq_ok_iff.mp hread⟩, hmethod, readError_eq_ok_iff.mp herror⟩
        rcases hanswers.shows_or_breaks with hshows | ⟨cause, hbreaks⟩
        · exact .inl hshows
        · exact .inr (.inl ⟨id, cause, hbreaks⟩)
  · exact .inr (.inr ⟨_, rfl⟩)

theorem Shows.version {members : List (String × Json)} {m : Message} (h : Shows members m) :
    m.version = protocolVersion := by
  cases h <;> rfl

/-- A response says its result or its error, whichever it has. -/
theorem Shows.outcome {members : List (String × Json)} {r : Response} (h : Shows members (.response r)) :
    (∃ result, r.result = some result ∧ r.error = none ∧ r.outcome = .ok result)
      ∨ ∃ e, r.result = none ∧ r.error = some e ∧ r.outcome = .error e := by
  cases h with
  | @response id error _ hone =>
    cases hresult : members.lookup "result" with
    | none =>
      cases error with
      | none => simp [hresult] at hone
      | some e => exact .inr ⟨e, rfl, rfl, rfl⟩
    | some result =>
      cases error with
      | none => exact .inl ⟨result, rfl, rfl, rfl⟩
      | some e => simp [hresult] at hone

/-- Members that a reader does not tell apart are read alike. -/
theorem Alike.ofJson_eq {members others : List (String × Json)} (h : Alike members others) :
    ofJson (.object others) = ofJson (.object members) := by
  have hmembers : ofMembers others = ofMembers members := by
    unfold ofMembers
    rw [h.id, h.method]
    cases hmethod : members.lookup "method" with
    | none =>
      obtain ⟨hresult, herror⟩ := h.outcome hmethod
      cases members.lookup "id" with
      | none => rfl
      | some j => simp only [hresult, herror]
    | some name =>
      have hparams := h.params (by simp [hmethod])
      cases members.lookup "id" <;> simp only [hparams]
  simp only [ofJson, h.version, hmembers]

/-! ## Bodies -/

theorem IsObject.decode_eq {body : List UInt8} {members : List (String × Json)} (h : IsObject body members) :
    decode body = ofJson (.object members) := by
  unfold IsObject at h
  simp only [decode, h]

theorem IsVersioned.ofJson_eq {members : List (String × Json)} (h : IsVersioned members) :
    ofJson (.object members) = ofMembers members := by
  unfold IsVersioned at h
  simp only [ofJson, h, if_true]

/-- What is no object of the right version is no message, and an object is judged by its members. -/
theorem decode_cases (body : List UInt8) :
    (∃ members m, IsObject body members ∧ IsVersioned members ∧ Shows members m)
      ∨ (∃ members id cause, IsObject body members ∧ IsVersioned members ∧ Breaks members id cause)
      ∨ ∃ cause, decode body = .error (.decode cause) := by
  unfold decode
  split
  · exact .inr (.inr ⟨_, rfl⟩)
  · next j hparse =>
    unfold ofJson
    split
    · next members =>
      split
      · exact .inr (.inr ⟨_, rfl⟩)
      · next version hversion =>
        split
        · next heq =>
          subst heq
          rcases ofMembers_cases members with ⟨m, hshows⟩ | ⟨id, cause, hbreaks⟩ | hrefused
          · exact .inl ⟨members, m, hparse, hversion, hshows⟩
          · exact .inr (.inl ⟨members, id, cause, hparse, hversion, hbreaks⟩)
          · exact .inr (.inr hrefused)
        · exact .inr (.inr ⟨_, rfl⟩)
    · exact .inr (.inr ⟨_, rfl⟩)

section Read

variable {body : List UInt8} {members : List (String × Json)}

theorem decode_of_shows {m : Message} (hobject : IsObject body members) (hversion : IsVersioned members)
    (hshows : Shows members m) : decode body = .ok m := by
  rw [hobject.decode_eq, hversion.ofJson_eq, hshows.ofMembers_eq]

theorem decode_of_breaks {id : Option Id} {cause : ProtocolFault} (hobject : IsObject body members)
    (hversion : IsVersioned members) (hbreaks : Breaks members id cause) :
    decode body = .error (.protocol id cause) := by
  rw [hobject.decode_eq, hversion.ofJson_eq, hbreaks.ofMembers_eq]

theorem shows_of_decode {m : Message} (h : decode body = .ok m) :
    ∃ members, IsObject body members ∧ IsVersioned members ∧ Shows members m := by
  rcases decode_cases body with ⟨members, m', hobject, hversion, hshows⟩
    | ⟨members, id, cause, hobject, hversion, hbreaks⟩ | ⟨cause, herror⟩
  · obtain rfl := Except.ok.inj ((decode_of_shows hobject hversion hshows).symm.trans h)
    exact ⟨members, hobject, hversion, hshows⟩
  · cases (decode_of_breaks hobject hversion hbreaks).symm.trans h
  · cases herror.symm.trans h

theorem breaks_of_decode {id : Option Id} {cause : ProtocolFault} (h : decode body = .error (.protocol id cause)) :
    ∃ members, IsObject body members ∧ IsVersioned members ∧ Breaks members id cause := by
  rcases decode_cases body with ⟨members, m, hobject, hversion, hshows⟩
    | ⟨members, id', cause', hobject, hversion, hbreaks⟩ | ⟨cause', herror⟩
  · cases (decode_of_shows hobject hversion hshows).symm.trans h
  · obtain ⟨rfl, rfl⟩ :=
      Fault.protocol.inj (Except.error.inj ((decode_of_breaks hobject hversion hbreaks).symm.trans h))
    exact ⟨members, hobject, hversion, hbreaks⟩
  · cases herror.symm.trans h

end Read

/-- What a body is taken for. -/
structure Classified (body : List UInt8) : Prop where
  /-- It is taken for a message just if it is an object of the right version that shows this message. -/
  accepted_iff : ∀ m, decode body = .ok m ↔
    ∃ members, IsObject body members ∧ IsVersioned members ∧ Shows members m
  /-- It is refused with an id just if it is an object that breaks the protocol so, with this id. -/
  protocol_iff : ∀ id cause, decode body = .error (.protocol id cause) ↔
    ∃ members, IsObject body members ∧ IsVersioned members ∧ Breaks members id cause
  /-- It is refused as no message just if it is neither of both. -/
  decode_iff : (∃ cause, decode body = .error (.decode cause)) ↔
    ∀ members, IsObject body members → IsVersioned members →
      (∀ m, ¬ Shows members m) ∧ ∀ id cause, ¬ Breaks members id cause
  /-- It is refused in no third way. -/
  refused : ∀ fault, decode body = .error fault →
    (∃ cause, fault = .decode cause) ∨ ∃ id cause, fault = .protocol id cause
  /-- No other members matter: not for a request or notification its result and its error, and not for an
  answer its params. -/
  alike : ∀ body' members members', IsObject body members → IsObject body' members' →
    Alike members members' → decode body' = decode body
  /-- A message that is returned names the version that is spoken. -/
  version : ∀ m, decode body = .ok m → m.version = protocolVersion
  /-- A response that is returned has just one of a result and an error, and this is what it says. -/
  outcome : ∀ r, decode body = .ok (.response r) →
    (∃ result, r.result = some result ∧ r.error = none ∧ r.outcome = .ok result)
      ∨ ∃ e, r.result = none ∧ r.error = some e ∧ r.outcome = .error e

/-- **Bodies are classified as the grammar of the messages tells.** -/
theorem classified (body : List UInt8) : Classified body where
  accepted_iff m := by
    refine ⟨shows_of_decode, ?_⟩
    rintro ⟨members, hobject, hversion, hshows⟩
    exact decode_of_shows hobject hversion hshows
  protocol_iff id cause := by
    refine ⟨breaks_of_decode, ?_⟩
    rintro ⟨members, hobject, hversion, hbreaks⟩
    exact decode_of_breaks hobject hversion hbreaks
  decode_iff := by
    constructor
    · rintro ⟨cause, herror⟩ members hobject hversion
      refine ⟨fun m hshows => ?_, fun id cause' hbreaks => ?_⟩
      · cases herror.symm.trans (decode_of_shows hobject hversion hshows)
      · cases herror.symm.trans (decode_of_breaks hobject hversion hbreaks)
    · intro hnone
      rcases decode_cases body with ⟨members, m, hobject, hversion, hshows⟩
        | ⟨members, id, cause, hobject, hversion, hbreaks⟩ | herror
      · exact absurd hshows ((hnone members hobject hversion).1 m)
      · exact absurd hbreaks ((hnone members hobject hversion).2 id cause)
      · exact herror
  refused fault h := by
    rcases isBodyFault_of_decode h with hdecode | ⟨id, cause, hcause, -⟩
    · exact .inl hdecode
    · exact .inr ⟨id, cause, hcause⟩
  alike body' members members' hobject hobject' halike := by
    rw [hobject.decode_eq, hobject'.decode_eq, halike.ofJson_eq]
  version m h := by
    obtain ⟨members, -, -, hshows⟩ := shows_of_decode h
    exact hshows.version
  outcome r h := by
    obtain ⟨members, -, -, hshows⟩ := shows_of_decode h
    exact hshows.outcome

/-- An error may be a list, and need not be an object. -/
theorem listed_error_accepted :
    ¬ ∀ (body : List UInt8) (members : List (String × Json)) (r : Response),
        IsObject body members → decode body = .ok (.response r) →
          members.lookup "error" = none ∨ members.lookup "error" = some .null
            ∨ ∃ error, members.lookup "error" = some (.object error) := by
  intro hobjects
  let members : List (String × Json) :=
    [("error", .list [.int 1, .str "m", .null]), ("id", .int 4), ("jsonrpc", .str "2.0")]
  have hobject : IsObject (Text.bytes "\x7b\"jsonrpc\":\"2.0\",\"id\":4,\"error\":[1,\"m\",null]\x7d")
      members := by
    unfold IsObject
    rw [Text.ofBytes?_bytes, Option.bind_some]
    decide +kernel
  have hdecode : ofJson (.object members)
      = .ok (.response { id := some (.number 4), error := some { code := 1, message := "m" } }) := rfl
  have herror : members.lookup "error" = some (.list [.int 1, .str "m", .null]) := rfl
  rcases hobjects _ members _ hobject (hobject.decode_eq.trans hdecode) with h | h | ⟨error, h⟩
  all_goals cases herror.symm.trans h

end Message

end LanguageClient
