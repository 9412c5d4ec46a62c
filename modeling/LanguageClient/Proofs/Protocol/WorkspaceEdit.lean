import LanguageClient.Proofs.Protocol.Position
import LanguageClient.Protocol.Edit

/-!
# LanguageClient.Proofs.Protocol.WorkspaceEdit -- workspace edits read back as written

The forms of an edit, with and without an annotation, and the forms of a step, edits of a document and
operations on files, are tried in order. What one of them writes is refused by those before it, as it lacks
a member that they need: a plain edit has no `annotationId`, and an operation no `textDocument`. So all of a
workspace edit reads back as it was (`WorkspaceEdit.reads_back`), however its steps are mixed.
-/

namespace LanguageClient

open Json Json.Fields Json.Codec

/-! ## Edits of a text -/

theorem TextEdit.keeps (e : TextEdit) : fields.Keeps ["range", "newText"] e e :=
  ((keeps_field e.range.roundTrips).map TextEdit.mk).seq (keeps_field (string_roundTrips e.newText))

theorem TextEdit.roundTrips (e : TextEdit) : codec.RoundTrips e := record_roundTrips e.keeps (by decide)

theorem ChangeAnnotation.keeps (a : ChangeAnnotation) :
    fields.Keeps ["label", "needsConfirmation", "description"] a a :=
  (((keeps_field (string_roundTrips a.label)).map ChangeAnnotation.mk).seq
    (keeps_optional_all bool_roundTrips)).seq
    (keeps_optional_all string_roundTrips)

theorem ChangeAnnotation.roundTrips (a : ChangeAnnotation) : codec.RoundTrips a :=
  record_roundTrips a.keeps (by decide)

namespace AnnotatedTextEdit

theorem keeps (e : AnnotatedTextEdit) : fields.Keeps ["range", "newText", "annotationId"] e e :=
  (((keeps_field e.range.roundTrips).map AnnotatedTextEdit.mk).seq
    (keeps_field (string_roundTrips e.newText))).seq
    (keeps_field (string_roundTrips e.annotationId))

theorem roundTrips (e : AnnotatedTextEdit) : codec.RoundTrips e := record_roundTrips e.keeps (by decide)

/-- An edit without an annotation is no annotated edit. -/
theorem refuses_plain (e : TextEdit) : codec.Refuses (TextEdit.codec.write e) := by
  have needed : fields.Needs "annotationId" := (needs_field Codec.string (·.annotationId)).last _
  have hnone : (Assoc.ofList (TextEdit.fields.toMembers e)).lookup "annotationId" = none := by
    rw [e.keeps.lookup_written (by decide), e.keeps.lookup_eq_none (by decide)]
  exact needed.refuses hnone

end AnnotatedTextEdit

theorem DocumentEdit.roundTrips (e : DocumentEdit) : codec.RoundTrips e := by
  apply choice_read
  cases e with
  | annotated edit => exact firstForm_of_read (edit.roundTrips .kept)
  | plain edit =>
    exact (firstForm_of_refuses (AnnotatedTextEdit.refuses_plain edit)).trans
      (firstForm_of_read (edit.roundTrips .kept))

/-! ## Edits of a document -/

theorem OptionalVersionedTextDocumentIdentifier.keeps (d : OptionalVersionedTextDocumentIdentifier) :
    fields.Keeps ["uri", "version"] d d :=
  ((keeps_field (string_roundTrips d.uri)).map OptionalVersionedTextDocumentIdentifier.mk).seq
    (keeps_nullable (optional_roundTrips fun v _ => int32_roundTrips v))

theorem OptionalVersionedTextDocumentIdentifier.roundTrips (d : OptionalVersionedTextDocumentIdentifier) :
    codec.RoundTrips d :=
  record_roundTrips d.keeps (by decide)

namespace TextDocumentEdit

theorem keeps (e : TextDocumentEdit) : fields.Keeps ["textDocument", "edits"] e e :=
  ((keeps_field e.textDocument.roundTrips).map TextDocumentEdit.mk).seq
    (keeps_field (list_roundTrips fun edit _ => edit.roundTrips))

theorem roundTrips (e : TextDocumentEdit) : codec.RoundTrips e := record_roundTrips e.keeps (by decide)

/-- What names no document is no edit of one. -/
theorem refuses_object {members : List (String × Json)} (h : members.lookup "textDocument" = none) :
    codec.Refuses (.object members) := by
  have needed : fields.Needs "textDocument" :=
    ((needs_field OptionalVersionedTextDocumentIdentifier.codec (·.textDocument)).map TextDocumentEdit.mk).before _
  exact needed.refuses h

end TextDocumentEdit

/-! ## Operations on files -/

theorem FileOperationOptions.keeps (o : FileOperationOptions) :
    fields.Keeps ["overwrite", "ignoreIfExists", "recursive", "ignoreIfNotExists"] o o :=
  ((((keeps_optional_all bool_roundTrips).map FileOperationOptions.mk).seq
    (keeps_optional_all bool_roundTrips)).seq
    (keeps_optional_all bool_roundTrips)).seq
    (keeps_optional_all bool_roundTrips)

theorem FileOperationOptions.roundTrips (o : FileOperationOptions) : codec.RoundTrips o :=
  record_roundTrips o.keeps (by decide)

theorem CreateFile.keeps (f : CreateFile) : fields.Keeps ["uri", "options", "annotationId"] f f :=
  (((keeps_field (string_roundTrips f.uri)).map CreateFile.mk).seq
    (keeps_optional_all FileOperationOptions.roundTrips)).seq
    (keeps_optional_all string_roundTrips)

theorem RenameFile.keeps (f : RenameFile) :
    fields.Keeps ["oldUri", "newUri", "options", "annotationId"] f f :=
  ((((keeps_field (string_roundTrips f.oldUri)).map RenameFile.mk).seq
    (keeps_field (string_roundTrips f.newUri))).seq
    (keeps_optional_all FileOperationOptions.roundTrips)).seq
    (keeps_optional_all string_roundTrips)

theorem DeleteFile.keeps (f : DeleteFile) : fields.Keeps ["uri", "options", "annotationId"] f f :=
  (((keeps_field (string_roundTrips f.uri)).map DeleteFile.mk).seq
    (keeps_optional_all FileOperationOptions.roundTrips)).seq
    (keeps_optional_all string_roundTrips)

namespace ResourceOperation

theorem roundTrips (op : ResourceOperation) : codec.RoundTrips op := by
  cases op with
  | create file => exact byKind_roundTrips file.keeps (by decide) rfl rfl
  | rename file => exact byKind_roundTrips file.keeps (by decide) rfl rfl
  | delete file => exact byKind_roundTrips file.keeps (by decide) rfl rfl

/-- An operation is an object that names no document to edit. -/
theorem write_eq_object (op : ResourceOperation) :
    ∃ members, codec.write op = .object members ∧ members.lookup "textDocument" = none := by
  cases op with
  | create file => exact ⟨_, rfl, lookup_kinded_eq_none file.keeps (by decide) (by decide)⟩
  | rename file => exact ⟨_, rfl, lookup_kinded_eq_none file.keeps (by decide) (by decide)⟩
  | delete file => exact ⟨_, rfl, lookup_kinded_eq_none file.keeps (by decide) (by decide)⟩

end ResourceOperation

/-! ## Whole edits -/

theorem DocumentChange.roundTrips (c : DocumentChange) : codec.RoundTrips c := by
  apply choice_read
  cases c with
  | edit change => exact firstForm_of_read (change.roundTrips .kept)
  | operation change =>
    obtain ⟨members, hwrite, hnone⟩ := change.write_eq_object
    have hrefuses : TextDocumentEdit.codec.Refuses (ResourceOperation.codec.write change) := by
      rw [hwrite]
      exact TextDocumentEdit.refuses_object hnone
    exact (firstForm_of_refuses hrefuses).trans (firstForm_of_read (change.roundTrips .kept))

namespace WorkspaceEdit

theorem keeps (w : WorkspaceEdit) : fields.Keeps ["changes", "documentChanges", "changeAnnotations"] w w :=
  (((keeps_optional (optional_roundTrips fun _ _ => dict_roundTrips fun e _ =>
      list_roundTrips fun edit _ => edit.roundTrips)).map WorkspaceEdit.mk).seq
    (keeps_optional (optional_roundTrips fun _ _ => list_roundTrips fun change _ => change.roundTrips))).seq
    (keeps_optional (optional_roundTrips fun _ _ => dict_roundTrips fun e _ => e.2.roundTrips))

/-- **A workspace edit reads back as it was written**, and so does each of its edits and steps, in the form it
has. -/
theorem reads_back (w : WorkspaceEdit) :
    codec.RoundTrips w
      ∧ (∀ edit, DocumentEdit.codec.RoundTrips (.plain edit))
      ∧ (∀ edit, DocumentEdit.codec.RoundTrips (.annotated edit))
      ∧ (∀ change, DocumentChange.codec.RoundTrips (.edit change))
      ∧ ∀ op, DocumentChange.codec.RoundTrips (.operation op) :=
  ⟨record_roundTrips w.keeps (by decide), fun _ => DocumentEdit.roundTrips _, fun _ => DocumentEdit.roundTrips _,
    fun _ => DocumentChange.roundTrips _, fun _ => DocumentChange.roundTrips _⟩

end WorkspaceEdit

end LanguageClient
