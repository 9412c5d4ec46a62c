import LanguageClient.Proofs.Session.Telling

/-!
# LanguageClient.Proofs.Session.DocumentOrder -- what the wire says of documents is in order

Whoever calls operations on documents, and whenever: for each document the versions on the wire ascend, it is
opened and closed by turns, and is changed and saved only in between. When nobody holds the documents and the
session has not terminated, the store knows what the wire says (`documents_in_order`).
-/

namespace LanguageClient

/-- Whether the document is open from now on, if the mark decides it. -/
def DocumentMark.opens? (m : DocumentMark) : Option Bool :=
  if m.method = Method.didOpen.name then some true
  else if m.method = Method.didClose.name then some false
  else none

namespace Session

/-- What the wire says of a document, in order. -/
def marks (s : Session) (uri : DocumentUri) : List DocumentMark :=
  (s.shared.wire.filterMap Message.mark?).filter (·.uri = uri)

/-- What the wire says of a document is in order. -/
structure DocumentOrder (s : Session) (uri : DocumentUri) : Prop where
  /-- Openings and changes tell a version, and nothing else does. -/
  versioned : ∀ m ∈ s.marks uri,
    m.version.isSome = true ↔ m.method = Method.didOpen.name ∨ m.method = Method.didChange.name
  ascending : ((s.marks uri).filterMap (·.version)).Pairwise (· < ·)
  /-- Openings and closings take turns, and an opening is the first. -/
  turns : ∀ i method, (((s.marks uri).map (·.method)).filter
      (fun m => m = Method.didOpen.name ∨ m = Method.didClose.name))[i]? = some method →
    method = if i % 2 = 0 then Method.didOpen.name else Method.didClose.name
  /-- Of the openings and closings before a change or a saving, the last is an opening. -/
  between : ∀ before m later, s.marks uri = before ++ m :: later →
    m.method = Method.didChange.name ∨ m.method = Method.didSave.name →
    (before.filterMap (·.opens?)).getLast? = some true
  /-- When nobody holds the documents, the store knows what the wire says. -/
  known : s.shared.documentsHolder = none → s.shared.lifecycle.phase ≠ .terminated →
    s.shared.documents.isOpen uri = ((s.marks uri).filterMap (·.opens?)).getLast?.getD false
      ∧ (s.shared.documents.get? uri).map (·.version.toInt) = ((s.marks uri).filterMap (·.version)).getLast?

/-- All that the wire says of documents is in order. -/
structure DocumentsInOrder (s : Session) : Prop where
  /-- Each message about a document can be read so. -/
  readable : ∀ m ∈ s.shared.wire, m.isDocument = true → m.mark?.isSome = true
  /-- There is an order of the operations that were done, such that the wire says what they tell. -/
  serial : ∃ os, s.shared.documents = DocumentStore.after os
    ∧ s.shared.wire.filter Message.isDocument
        <+: (DocumentStore.notices {} os).map DocumentNotice.message
    ∧ (s.shared.documentsHolder = none → s.shared.lifecycle.phase ≠ .terminated →
        s.shared.wire.filter Message.isDocument
          = (DocumentStore.notices {} os).map DocumentNotice.message)
  order : ∀ uri, s.DocumentOrder uri

end Session

/-! ## From notices to marks -/

namespace DocumentNotice

theorem opens?_mark (n : DocumentNotice) : n.mark.opens? = n.opens? := by
  cases n <;> rfl

theorem isSome_version_mark (n : DocumentNotice) : n.mark.version.isSome = true
    ↔ n.mark.method = Method.didOpen.name ∨ n.mark.method = Method.didChange.name := by
  have hsave : ¬ (Method.didSave.name = Method.didOpen.name
      ∨ Method.didSave.name = Method.didChange.name) := by decide
  have hclose : ¬ (Method.didClose.name = Method.didOpen.name
      ∨ Method.didClose.name = Method.didChange.name) := by decide
  cases n with
  | opened params => exact iff_of_true rfl (.inl rfl)
  | changed params => exact iff_of_true rfl (.inr rfl)
  | saved params => exact iff_of_false Bool.false_ne_true hsave
  | closed params => exact iff_of_false Bool.false_ne_true hclose

/-- A change or a saving does not open its document. -/
theorem not_opens_of_method {n : DocumentNotice}
    (h : n.mark.method = Method.didChange.name ∨ n.mark.method = Method.didSave.name) :
    n.opens? ≠ some true := by
  intro hopens
  cases n with
  | opened params =>
    have hother : ¬ (Method.didOpen.name = Method.didChange.name
        ∨ Method.didOpen.name = Method.didSave.name) := by decide
    exact hother h
  | changed _ | saved _ | closed _ => cases hopens

end DocumentNotice

/-- The methods of openings and closings say the same as the marks. -/
theorem turning_methods (ms : List DocumentMark) :
    (ms.map (·.method)).filter (fun m => m = Method.didOpen.name ∨ m = Method.didClose.name)
      = (ms.filterMap (·.opens?)).map (fun b => if b then Method.didOpen.name else Method.didClose.name) := by
  induction ms with
  | nil => rfl
  | cons m rest ih =>
    by_cases hopen : m.method = Method.didOpen.name
    · have hopens : m.opens? = some true := if_pos hopen
      rw [List.map_cons, List.filter_cons_of_pos (by simp [hopen]), List.filterMap_cons_some hopens, ih, hopen]
      rfl
    · by_cases hclose : m.method = Method.didClose.name
      · have hopens : m.opens? = some false := (if_neg hopen).trans (if_pos hclose)
        rw [List.map_cons, List.filter_cons_of_pos (by simp [hclose]), List.filterMap_cons_some hopens, ih,
          hclose]
        rfl
      · have hopens : m.opens? = none := (if_neg hopen).trans (if_neg hclose)
        rw [List.map_cons, List.filter_cons_of_neg (by simp [hopen, hclose]),
          List.filterMap_cons_none hopens, ih]

namespace Session

open DocumentStore (Fitting openings versions)

variable {s : Session} {told due : List DocumentNotice} {os : List DocumentOperation}

section Marks

variable (hwire : s.shared.wire.filter Message.isDocument = told.map DocumentNotice.message)

include hwire

theorem marks_eq (uri : DocumentUri) :
    s.marks uri = (told.filter (·.uri = uri)).map DocumentNotice.mark := by
  have hread : s.shared.wire.filterMap Message.mark?
      = (s.shared.wire.filter Message.isDocument).filterMap Message.mark? := by
    rw [List.filterMap_filter]
    refine List.filterMap_congr fun m _ => ?_
    cases hdocument : m.isDocument with
    | true => rfl
    | false => exact Message.mark?_of_not_document hdocument
  have htold : (told.map DocumentNotice.message).filterMap Message.mark? = told.map DocumentNotice.mark := by
    rw [List.filterMap_map, ← List.filterMap_eq_map]
    exact List.filterMap_congr fun n _ => n.mark?_message
  rw [marks, hread, hwire, htold, List.filter_map]
  rfl

theorem versions_marks (uri : DocumentUri) :
    (s.marks uri).filterMap (·.version) = (versions uri told).map Int32.toInt := by
  rw [marks_eq hwire, List.filterMap_map, versions, List.map_filterMap]
  rfl

theorem openings_marks (uri : DocumentUri) :
    (s.marks uri).filterMap (·.opens?) = openings uri told := by
  rw [marks_eq hwire, List.filterMap_map, openings]
  exact List.filterMap_congr fun n _ => n.opens?_mark

/-- A mark is that of a notice, and those before it are the marks of the notices before. -/
theorem notice_of_mark {uri : DocumentUri} {before later : List DocumentMark} {m : DocumentMark}
    (h : s.marks uri = before ++ m :: later) :
    ∃ first n rest, told = first ++ n :: rest ∧ n.uri = uri ∧ n.mark = m
      ∧ before.filterMap (·.opens?) = openings uri first := by
  rw [marks_eq hwire, List.map_eq_append_iff] at h
  obtain ⟨ns, more, hsplit, rfl, hmore⟩ := h
  obtain ⟨n, ns', rfl, rfl, -⟩ := List.map_eq_cons_iff.mp hmore
  obtain ⟨first, second, rfl, rfl, hsecond⟩ := List.filter_eq_append_iff.mp hsplit
  obtain ⟨skipped, rest, rfl, hskipped, huri, -⟩ := List.filter_eq_cons_iff.mp hsecond
  refine ⟨first ++ skipped, n, rest, (List.append_assoc _ _ _).symm, by simpa using huri, rfl, ?_⟩
  have hnone : skipped.filter (·.uri = uri) = [] := List.filter_eq_nil_iff.mpr hskipped
  rw [openings, List.filter_append, hnone, List.append_nil, List.filterMap_map]
  exact List.filterMap_congr fun n _ => n.opens?_mark

end Marks

/-- Nothing is due when nobody holds the documents, as long as the session has not terminated. -/
theorem Telling.nothing_due_of_free (h : s.Telling os told due) (hfree : s.shared.documentsHolder = none)
    (hphase : s.shared.lifecycle.phase ≠ .terminated) : due = [] := by
  by_contra hne
  rcases h.late hne with hover | ⟨t, task, hmem, htelling⟩
  · exact hphase hover
  · have hholder := h.held.holding t task hmem (Task.holds_of_telling htelling)
    rw [hfree] at hholder
    cases hholder

theorem Telling.order (h : s.Telling os told due) (uri : DocumentUri) : s.DocumentOrder uri := by
  have hfits : Fitting told := by
    have hall := DocumentStore.fitting_notices os
    rw [h.notices] at hall
    exact hall.of_append
  have hascending : (versions uri told).Pairwise (· < ·) := by
    have hall := DocumentStore.ascending_issued os uri
    rw [DocumentStore.issued, h.notices, DocumentStore.versions_append] at hall
    exact (List.pairwise_append.mp hall).1
  have hversions := versions_marks h.wire uri
  have hopenings := openings_marks h.wire uri
  exact {
    versioned := by
      intro m hm
      rw [marks_eq h.wire] at hm
      obtain ⟨n, -, rfl⟩ := List.mem_map.mp hm
      exact n.isSome_version_mark
    ascending := by
      rw [hversions, List.pairwise_map]
      exact hascending.imp fun hlt => Int32.lt_iff_toInt_lt.mp hlt
    turns := by
      intro i method hmethod
      rw [turning_methods, hopenings, List.getElem?_map] at hmethod
      obtain ⟨b, hb, rfl⟩ := Option.map_eq_some_iff.mp hmethod
      rw [hfits.takesTurns uri i b hb]
      by_cases heven : i % 2 = 0 <;> simp [heven]
    between := by
      intro before m later hsplit hmethod
      obtain ⟨first, n, rest, rfl, rfl, rfl, hbefore⟩ := notice_of_mark h.wire hsplit
      have hopen : (openings n.uri first).getLast?.getD false = true :=
        (hfits first n rest rfl).mpr (DocumentNotice.not_opens_of_method hmethod)
      rw [hbefore]
      cases hlast : (openings n.uri first).getLast? with
      | none => simp [hlast] at hopen
      | some b => simpa [hlast] using hopen
    known := by
      intro hfree hphase
      obtain rfl := h.nothing_due_of_free hfree hphase
      have hknows := DocumentStore.knows_after os
      rw [h.notices, List.append_nil, ← h.done] at hknows
      rw [hopenings, hversions, List.getLast?_map, ← hknows.version uri, Option.map_map]
      exact ⟨hknows.isOpen uri, rfl⟩ }

/-- **What the wire says of documents is in order**, whoever works on them at once. -/
theorem documents_in_order (options : SessionOptions) (actions : List Action)
    (hundisturbed : (create options).Undisturbed actions) :
    ((create options).run actions).DocumentsInOrder := by
  obtain ⟨os, told, due, h⟩ := (telling_create options).run hundisturbed
  exact {
    readable := by
      intro m hm hdocument
      have htold : m ∈ told.map DocumentNotice.message := h.wire ▸ List.mem_filter.mpr ⟨hm, hdocument⟩
      obtain ⟨n, -, rfl⟩ := List.mem_map.mp htold
      rw [n.mark?_message]
      rfl
    serial := by
      refine ⟨os, h.done, ?_, fun hfree hphase => ?_⟩
      · rw [h.wire, h.notices, List.map_append]
        exact List.prefix_append _ _
      · obtain rfl := h.nothing_due_of_free hfree hphase
        rw [h.wire, h.notices, List.append_nil]
    order := h.order }

/-! ### Two callers at once -/

/-- A handshake that the server answers. -/
def handshaken : List Action :=
  .call .handshake :: List.replicate 4 (.turn 1) ++
    .arrive (Frame.bodyBytes (Message.encode (.response
      (.success (.number 1) (.object [("capabilities", .object [])]))))) :: .turn readLoop ::
    List.replicate 4 (.turn 1) ++ [.collect 1]

/-- One caller opens a document, and another changes it at the same time: he has to wait until the server
was told of the opening. -/
def contended : List Action :=
  handshaken ++ [.call (.edit (.opening "file:///a" "text" none "one")),
    .call (.edit (.changing "file:///a" [.full "two"])),
    .turn 2, .turn 3, .turn 2, .turn 3, .turn 2, .turn 3, .turn 2, .turn 3, .turn 3, .turn 3]

theorem documents_in_order_contended :
    (create {}).Undisturbed contended ∧
      ((create {}).run contended).marks "file:///a"
        = [⟨"textDocument/didOpen", "file:///a", some 1⟩, ⟨"textDocument/didChange", "file:///a", some 2⟩] ∧
      ((create {}).run contended).DocumentsInOrder := by
  have hundisturbed : (create {}).Undisturbed contended := by decide +kernel
  exact ⟨hundisturbed, by decide +kernel, documents_in_order {} contended hundisturbed⟩

/-- A caller tells the server by himself that a document was saved. -/
def savedByHand : List Action :=
  handshaken ++ .call (.notify Method.didSave.name
      (some (.object [("textDocument", .object [("uri", .str "file:///a")])]))) ::
    List.replicate 2 (.turn 2)

/-- What callers tell the server of documents by themselves is not kept in order: a document may be saved
that was never opened, although no call is dropped and every message can be written. -/
theorem saved_by_hand_unopened :
    ¬ ∀ actions : List Action, (∀ t, .drop t ∉ actions) →
      ((create {}).run actions).shared.outflow = .flowing →
      ∀ uri, ((create {}).run actions).DocumentOrder uri := by
  intro h
  have horder := h savedByHand (by simp [savedByHand, handshaken]) (by decide +kernel) "file:///a"
  have hmarks : ((create {}).run savedByHand).marks "file:///a"
      = [] ++ ⟨Method.didSave.name, "file:///a", none⟩ :: [] := by decide +kernel
  have hlast := horder.between [] ⟨Method.didSave.name, "file:///a", none⟩ [] hmarks (.inr rfl)
  cases hlast

end Session

end LanguageClient
