import LanguageClient.Protocol.Document
import LanguageClient.Json.Choice

/-!
# LanguageClient.Protocol.Edit -- changes of documents and files

Edits of a text, operations on files, and the workspace edit that holds both.
-/

namespace LanguageClient

/-- Puts a text in place of a range. -/
structure TextEdit where
  range : Range
  newText : String
  deriving DecidableEq

namespace TextEdit

open Json Fields in
def fields : Fields TextEdit TextEdit :=
  TextEdit.mk <$> field "range" Range.codec (·.range) <*> field "newText" Codec.string (·.newText)

def codec : Json.Codec TextEdit := .record "TextEdit" fields

end TextEdit

namespace TextEdit

/-- Puts a text at a position. -/
def insertion (position : Position) (text : String) : TextEdit := ⟨⟨position, position⟩, text⟩

/-- Takes a range out. -/
def deletion (range : Range) : TextEdit := ⟨range, ""⟩

end TextEdit

/-- What is told about a change before it is made. -/
structure ChangeAnnotation where
  label : String
  needsConfirmation : Option Bool := none
  description : Option String := none
  deriving DecidableEq

namespace ChangeAnnotation

open Json Fields in
def fields : Fields ChangeAnnotation ChangeAnnotation :=
  ChangeAnnotation.mk <$> field "label" Codec.string (·.label)
    <*> optional "needsConfirmation" Codec.bool (·.needsConfirmation)
    <*> optional "description" Codec.string (·.description)

def codec : Json.Codec ChangeAnnotation := .record "ChangeAnnotation" fields

end ChangeAnnotation

/-- An edit with the name of its annotation. -/
structure AnnotatedTextEdit where
  range : Range
  newText : String
  annotationId : String
  deriving DecidableEq

namespace AnnotatedTextEdit

open Json Fields in
def fields : Fields AnnotatedTextEdit AnnotatedTextEdit :=
  AnnotatedTextEdit.mk <$> field "range" Range.codec (·.range)
    <*> field "newText" Codec.string (·.newText)
    <*> field "annotationId" Codec.string (·.annotationId)

def codec : Json.Codec AnnotatedTextEdit := .record "AnnotatedTextEdit" fields

end AnnotatedTextEdit

/-- An edit with or without an annotation. -/
inductive DocumentEdit where
  | annotated (edit : AnnotatedTextEdit)
  | plain (edit : TextEdit)
  deriving DecidableEq

namespace DocumentEdit

def toJson : DocumentEdit → Json
  | annotated edit => AnnotatedTextEdit.codec.write edit
  | plain edit => TextEdit.codec.write edit

open Json.Codec in
def codec : Json.Codec DocumentEdit :=
  choice "OneOf" [asForm AnnotatedTextEdit.codec annotated, asForm TextEdit.codec plain] toJson

end DocumentEdit

/-- Edits of one document. -/
structure TextDocumentEdit where
  textDocument : OptionalVersionedTextDocumentIdentifier
  edits : List DocumentEdit
  deriving DecidableEq

namespace TextDocumentEdit

open Json Fields in
def fields : Fields TextDocumentEdit TextDocumentEdit :=
  TextDocumentEdit.mk
    <$> field "textDocument" OptionalVersionedTextDocumentIdentifier.codec (·.textDocument)
    <*> field "edits" (Codec.list DocumentEdit.codec) (·.edits)

def codec : Json.Codec TextDocumentEdit := .record "TextDocumentEdit" fields

end TextDocumentEdit

/-- How an operation on a file treats what is in its way. -/
structure FileOperationOptions where
  overwrite : Option Bool := none
  ignoreIfExists : Option Bool := none
  recursive : Option Bool := none
  ignoreIfNotExists : Option Bool := none
  deriving DecidableEq

namespace FileOperationOptions

open Json Fields in
def fields : Fields FileOperationOptions FileOperationOptions :=
  FileOperationOptions.mk <$> optional "overwrite" Codec.bool (·.overwrite)
    <*> optional "ignoreIfExists" Codec.bool (·.ignoreIfExists)
    <*> optional "recursive" Codec.bool (·.recursive)
    <*> optional "ignoreIfNotExists" Codec.bool (·.ignoreIfNotExists)

def codec : Json.Codec FileOperationOptions := .record "FileOperationOptions" fields

end FileOperationOptions

/-- Makes a file. -/
structure CreateFile where
  uri : DocumentUri
  options : Option FileOperationOptions := none
  annotationId : Option String := none
  deriving DecidableEq

namespace CreateFile

open Json Fields in
def fields : Fields CreateFile CreateFile :=
  CreateFile.mk <$> field "uri" Codec.string (·.uri)
    <*> optional "options" FileOperationOptions.codec (·.options)
    <*> optional "annotationId" Codec.string (·.annotationId)

def codec : Json.Codec CreateFile := .record "CreateFile" fields

end CreateFile

/-- Moves a file. -/
structure RenameFile where
  oldUri : DocumentUri
  newUri : DocumentUri
  options : Option FileOperationOptions := none
  annotationId : Option String := none
  deriving DecidableEq

namespace RenameFile

open Json Fields in
def fields : Fields RenameFile RenameFile :=
  RenameFile.mk <$> field "oldUri" Codec.string (·.oldUri)
    <*> field "newUri" Codec.string (·.newUri)
    <*> optional "options" FileOperationOptions.codec (·.options)
    <*> optional "annotationId" Codec.string (·.annotationId)

def codec : Json.Codec RenameFile := .record "RenameFile" fields

end RenameFile

/-- Removes a file. -/
structure DeleteFile where
  uri : DocumentUri
  options : Option FileOperationOptions := none
  annotationId : Option String := none
  deriving DecidableEq

namespace DeleteFile

open Json Fields in
def fields : Fields DeleteFile DeleteFile :=
  DeleteFile.mk <$> field "uri" Codec.string (·.uri)
    <*> optional "options" FileOperationOptions.codec (·.options)
    <*> optional "annotationId" Codec.string (·.annotationId)

def codec : Json.Codec DeleteFile := .record "DeleteFile" fields

end DeleteFile

/-- An operation on a file, told by its kind. -/
inductive ResourceOperation where
  | create (file : CreateFile)
  | rename (file : RenameFile)
  | delete (file : DeleteFile)
  deriving DecidableEq

namespace ResourceOperation

open Json.Codec

def toJson : ResourceOperation → Json
  | create file => withKind "create" (CreateFile.codec.write file)
  | rename file => withKind "rename" (RenameFile.codec.write file)
  | delete file => withKind "delete" (DeleteFile.codec.write file)

def codec : Json.Codec ResourceOperation :=
  byKind "ResourceOperation"
    [asKind "create" CreateFile.codec create, asKind "rename" RenameFile.codec rename,
      asKind "delete" DeleteFile.codec delete]
    toJson

end ResourceOperation

/-- A step of a workspace edit: edits of a document, or an operation on a file. -/
inductive DocumentChange where
  | edit (change : TextDocumentEdit)
  | operation (change : ResourceOperation)
  deriving DecidableEq

namespace DocumentChange

def toJson : DocumentChange → Json
  | edit change => TextDocumentEdit.codec.write change
  | operation change => ResourceOperation.codec.write change

open Json.Codec in
def codec : Json.Codec DocumentChange :=
  choice "DocumentChange"
    [asForm TextDocumentEdit.codec edit, asForm ResourceOperation.codec operation] toJson

end DocumentChange

/-- Changes of many documents. -/
structure WorkspaceEdit where
  /-- Edits by document. -/
  changes : Option (Dict (List TextEdit)) := none
  /-- Steps, in order. -/
  documentChanges : Option (List DocumentChange) := none
  changeAnnotations : Option (Dict ChangeAnnotation) := none
  deriving DecidableEq

namespace WorkspaceEdit

open Json Fields in
def fields : Fields WorkspaceEdit WorkspaceEdit :=
  WorkspaceEdit.mk <$> optional "changes" (Codec.dict (Codec.list TextEdit.codec)) (·.changes)
    <*> optional "documentChanges" (Codec.list DocumentChange.codec) (·.documentChanges)
    <*> optional "changeAnnotations" (Codec.dict ChangeAnnotation.codec) (·.changeAnnotations)

def codec : Json.Codec WorkspaceEdit := .record "WorkspaceEdit" fields

end WorkspaceEdit

end LanguageClient
