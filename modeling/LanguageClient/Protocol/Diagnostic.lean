import LanguageClient.Protocol.Position
import LanguageClient.Json.Choice

/-!
# LanguageClient.Protocol.Diagnostic -- findings about a text

Errors, warnings and hints, and the reports that carry them.
-/

namespace LanguageClient

/-- How bad a finding is. -/
inductive DiagnosticSeverity where
  | error
  | warning
  | information
  | hint
  deriving DecidableEq

namespace DiagnosticSeverity

def all : List DiagnosticSeverity := [.error, .warning, .information, .hint]

/-- The number on the wire. -/
def code : DiagnosticSeverity → UInt8
  | error => 1
  | warning => 2
  | information => 3
  | hint => 4

def codec : Json.Codec DiagnosticSeverity := .codes "diagnostic severity" all code

end DiagnosticSeverity

/-- What else is to be known of a finding. -/
inductive DiagnosticTag where
  | unnecessary
  | outdated
  deriving DecidableEq

namespace DiagnosticTag

def all : List DiagnosticTag := [.unnecessary, .outdated]

/-- The number on the wire. -/
def code : DiagnosticTag → UInt8
  | unnecessary => 1
  | outdated => 2

def codec : Json.Codec DiagnosticTag := .codes "diagnostic tag" all code

end DiagnosticTag

/-- The code of a finding. -/
inductive DiagnosticCode where
  | number (n : Int32)
  | name (s : String)
  deriving DecidableEq

namespace DiagnosticCode

def toJson : DiagnosticCode → Json
  | number n => Json.Codec.int32.write n
  | name s => .str s

open Json.Codec in
def codec : Json.Codec DiagnosticCode :=
  choice "DiagnosticCode" [asForm int32 number, asForm string name] toJson

end DiagnosticCode

/-- Where a code is explained. -/
structure CodeDescription where
  href : String
  deriving DecidableEq

namespace CodeDescription

open Json Fields in
def fields : Fields CodeDescription CodeDescription :=
  CodeDescription.mk <$> field "href" Codec.string (·.href)

def codec : Json.Codec CodeDescription := .record "CodeDescription" fields

end CodeDescription

/-- Another place that has to do with a finding. -/
structure DiagnosticRelatedInformation where
  location : Location
  message : String
  deriving DecidableEq

namespace DiagnosticRelatedInformation

open Json Fields in
def fields : Fields DiagnosticRelatedInformation DiagnosticRelatedInformation :=
  DiagnosticRelatedInformation.mk <$> field "location" Location.codec (·.location)
    <*> field "message" Codec.string (·.message)

def codec : Json.Codec DiagnosticRelatedInformation := .record "DiagnosticRelatedInformation" fields

end DiagnosticRelatedInformation

/-- A finding about a range. -/
structure Diagnostic where
  range : Range
  severity : Option DiagnosticSeverity := none
  code : Option DiagnosticCode := none
  codeDescription : Option CodeDescription := none
  source : Option String := none
  message : String
  tags : Option (List DiagnosticTag) := none
  relatedInformation : Option (List DiagnosticRelatedInformation) := none
  data : Option Json := none
  deriving DecidableEq

namespace Diagnostic

open Json Fields in
def fields : Fields Diagnostic Diagnostic :=
  Diagnostic.mk <$> field "range" Range.codec (·.range)
    <*> optional "severity" DiagnosticSeverity.codec (·.severity)
    <*> optional "code" DiagnosticCode.codec (·.code)
    <*> optional "codeDescription" CodeDescription.codec (·.codeDescription)
    <*> optional "source" Codec.string (·.source) <*> field "message" Codec.string (·.message)
    <*> optional "tags" (Codec.list DiagnosticTag.codec) (·.tags)
    <*> optional "relatedInformation" (Codec.list DiagnosticRelatedInformation.codec) (·.relatedInformation)
    <*> optional "data" Codec.raw (·.data)

def codec : Json.Codec Diagnostic := .record "Diagnostic" fields

end Diagnostic

/-- All findings about a document. -/
structure PublishDiagnosticsParams where
  uri : DocumentUri
  version : Option Int32 := none
  diagnostics : List Diagnostic
  deriving DecidableEq

namespace PublishDiagnosticsParams

open Json Fields in
def fields : Fields PublishDiagnosticsParams PublishDiagnosticsParams :=
  PublishDiagnosticsParams.mk <$> field "uri" Codec.string (·.uri)
    <*> optional "version" Codec.int32 (·.version)
    <*> field "diagnostics" (Codec.list Diagnostic.codec) (·.diagnostics)

def codec : Json.Codec PublishDiagnosticsParams := .record "PublishDiagnosticsParams" fields

end PublishDiagnosticsParams

/-- A report of all findings. -/
structure FullDocumentDiagnosticReport where
  resultId : Option String := none
  items : List Diagnostic
  /-- Reports about other documents, as they are. -/
  relatedDocuments : Option (Dict Json) := none
  deriving DecidableEq

namespace FullDocumentDiagnosticReport

open Json Fields in
def fields : Fields FullDocumentDiagnosticReport FullDocumentDiagnosticReport :=
  FullDocumentDiagnosticReport.mk <$> optional "resultId" Codec.string (·.resultId)
    <*> field "items" (Codec.list Diagnostic.codec) (·.items)
    <*> optional "relatedDocuments" (Codec.dict Codec.raw) (·.relatedDocuments)

def codec : Json.Codec FullDocumentDiagnosticReport := .record "FullDocumentDiagnosticReport" fields

end FullDocumentDiagnosticReport

/-- A report that nothing has changed. -/
structure UnchangedDocumentDiagnosticReport where
  resultId : String
  relatedDocuments : Option (Dict Json) := none
  deriving DecidableEq

namespace UnchangedDocumentDiagnosticReport

open Json Fields in
def fields : Fields UnchangedDocumentDiagnosticReport UnchangedDocumentDiagnosticReport :=
  UnchangedDocumentDiagnosticReport.mk <$> field "resultId" Codec.string (·.resultId)
    <*> optional "relatedDocuments" (Codec.dict Codec.raw) (·.relatedDocuments)

def codec : Json.Codec UnchangedDocumentDiagnosticReport := .record "UnchangedDocumentDiagnosticReport" fields

end UnchangedDocumentDiagnosticReport

/-- The answer to a request for findings. -/
inductive DocumentDiagnosticReport where
  | full (report : FullDocumentDiagnosticReport)
  | unchanged (report : UnchangedDocumentDiagnosticReport)
  deriving DecidableEq

namespace DocumentDiagnosticReport

open Json.Codec

def toJson : DocumentDiagnosticReport → Json
  | full report => withKind "full" (FullDocumentDiagnosticReport.codec.write report)
  | unchanged report => withKind "unchanged" (UnchangedDocumentDiagnosticReport.codec.write report)

def codec : Json.Codec DocumentDiagnosticReport :=
  byKind "DocumentDiagnosticReport"
    [asKind "full" FullDocumentDiagnosticReport.codec full,
      asKind "unchanged" UnchangedDocumentDiagnosticReport.codec unchanged]
    toJson

end DocumentDiagnosticReport

end LanguageClient
