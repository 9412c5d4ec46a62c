import LanguageClient.Protocol.Document
import LanguageClient.Rpc.Id

/-!
# LanguageClient.Protocol.Progress -- tokens and reports of progress

The parts that many params share, a place in a document and the tokens for reports, and the reports
themselves.
-/

namespace LanguageClient

/-- A place in a document. -/
structure TextDocumentPositionParams where
  textDocument : TextDocumentIdentifier
  position : Position
  deriving DecidableEq

namespace TextDocumentPositionParams

open Json Fields in
def fields : Fields TextDocumentPositionParams TextDocumentPositionParams :=
  TextDocumentPositionParams.mk
    <$> field "textDocument" TextDocumentIdentifier.codec (·.textDocument)
    <*> field "position" Position.codec (·.position)

def codec : Json.Codec TextDocumentPositionParams := .record "TextDocumentPositionParams" fields

end TextDocumentPositionParams

/-- The token under which progress is reported, if it is to be. -/
structure WorkDoneProgressParams where
  workDoneToken : Option ProgressToken := none
  deriving DecidableEq

namespace WorkDoneProgressParams

open Json Fields in
def fields : Fields WorkDoneProgressParams WorkDoneProgressParams :=
  WorkDoneProgressParams.mk <$> optional "workDoneToken" Id.codec (·.workDoneToken)

def codec : Json.Codec WorkDoneProgressParams := .record "WorkDoneProgressParams" fields

end WorkDoneProgressParams

/-- The token under which parts of a result are reported, if they are to be. -/
structure PartialResultParams where
  partialResultToken : Option ProgressToken := none
  deriving DecidableEq

namespace PartialResultParams

open Json Fields in
def fields : Fields PartialResultParams PartialResultParams :=
  PartialResultParams.mk <$> optional "partialResultToken" Id.codec (·.partialResultToken)

def codec : Json.Codec PartialResultParams := .record "PartialResultParams" fields

end PartialResultParams

/-- Asks for a token to be known. -/
structure WorkDoneProgressCreateParams where
  token : ProgressToken
  deriving DecidableEq

namespace WorkDoneProgressCreateParams

open Json Fields in
def fields : Fields WorkDoneProgressCreateParams WorkDoneProgressCreateParams :=
  WorkDoneProgressCreateParams.mk <$> field "token" Id.codec (·.token)

def codec : Json.Codec WorkDoneProgressCreateParams := .record "WorkDoneProgressCreateParams" fields

end WorkDoneProgressCreateParams

/-- Work begins. -/
structure WorkDoneProgressBegin where
  title : String
  cancellable : Option Bool := none
  message : Option String := none
  percentage : Option UInt32 := none
  deriving DecidableEq

namespace WorkDoneProgressBegin

open Json Fields in
def fields : Fields WorkDoneProgressBegin WorkDoneProgressBegin :=
  WorkDoneProgressBegin.mk <$> field "title" Codec.string (·.title)
    <*> optional "cancellable" Codec.bool (·.cancellable)
    <*> optional "message" Codec.string (·.message)
    <*> optional "percentage" Codec.uint32 (·.percentage)

def codec : Json.Codec WorkDoneProgressBegin := .record "WorkDoneProgressBegin" fields

end WorkDoneProgressBegin

/-- Work goes on. -/
structure WorkDoneProgressReport where
  cancellable : Option Bool := none
  message : Option String := none
  percentage : Option UInt32 := none
  deriving DecidableEq

namespace WorkDoneProgressReport

open Json Fields in
def fields : Fields WorkDoneProgressReport WorkDoneProgressReport :=
  WorkDoneProgressReport.mk <$> optional "cancellable" Codec.bool (·.cancellable)
    <*> optional "message" Codec.string (·.message)
    <*> optional "percentage" Codec.uint32 (·.percentage)

def codec : Json.Codec WorkDoneProgressReport := .record "WorkDoneProgressReport" fields

end WorkDoneProgressReport

/-- Work is done. -/
structure WorkDoneProgressEnd where
  message : Option String := none
  deriving DecidableEq

namespace WorkDoneProgressEnd

open Json Fields in
def fields : Fields WorkDoneProgressEnd WorkDoneProgressEnd :=
  WorkDoneProgressEnd.mk <$> optional "message" Codec.string (·.message)

def codec : Json.Codec WorkDoneProgressEnd := .record "WorkDoneProgressEnd" fields

end WorkDoneProgressEnd

/-- A report on work that takes long. -/
inductive WorkDoneProgress where
  | begin (report : WorkDoneProgressBegin)
  | report (report : WorkDoneProgressReport)
  | finish (report : WorkDoneProgressEnd)
  deriving DecidableEq

namespace WorkDoneProgress

open Json.Codec

def toJson : WorkDoneProgress → Json
  | begin r => withKind "begin" (WorkDoneProgressBegin.codec.write r)
  | report r => withKind "report" (WorkDoneProgressReport.codec.write r)
  | finish r => withKind "end" (WorkDoneProgressEnd.codec.write r)

def codec : Json.Codec WorkDoneProgress :=
  byKind "WorkDoneProgress"
    [asKind "begin" WorkDoneProgressBegin.codec begin,
      asKind "report" WorkDoneProgressReport.codec report,
      asKind "end" WorkDoneProgressEnd.codec finish]
    toJson

end WorkDoneProgress

/-- A report under a token, with a value of any type. -/
structure ProgressParams (α : Type) where
  token : ProgressToken
  value : α
  deriving DecidableEq

namespace ProgressParams

open Json Fields in
def fields {α : Type} (c : Codec α) : Fields (ProgressParams α) (ProgressParams α) :=
  ProgressParams.mk <$> field "token" Id.codec (·.token) <*> field "value" c (·.value)

def codec {α : Type} (c : Json.Codec α) : Json.Codec (ProgressParams α) :=
  .record "ProgressParams" (fields c)

end ProgressParams

/-- Asks for a request to be given up. -/
structure CancelParams where
  id : ProgressToken
  deriving DecidableEq

namespace CancelParams

open Json Fields in
def fields : Fields CancelParams CancelParams :=
  CancelParams.mk <$> field "id" Id.codec (·.id)

def codec : Json.Codec CancelParams := .record "CancelParams" fields

end CancelParams

end LanguageClient
