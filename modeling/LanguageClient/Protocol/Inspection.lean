import LanguageClient.Protocol.Progress
import LanguageClient.Protocol.Diagnostic

/-!
# LanguageClient.Protocol.Inspection -- tokens and findings on demand

Requests for the tokens of a document and for the findings about it.
-/

namespace LanguageClient

/-- Asks for the tokens of a document. -/
structure SemanticTokensParams where
  textDocument : TextDocumentIdentifier
  workDone : WorkDoneProgressParams := {}
  partialResult : PartialResultParams := {}
  deriving DecidableEq

namespace SemanticTokensParams

open Json Fields in
def fields : Fields SemanticTokensParams SemanticTokensParams :=
  SemanticTokensParams.mk <$> field "textDocument" TextDocumentIdentifier.codec (·.textDocument)
    <*> flattened WorkDoneProgressParams.fields (·.workDone)
    <*> flattened PartialResultParams.fields (·.partialResult)

def codec : Json.Codec SemanticTokensParams := .openRecord "SemanticTokensParams" fields

end SemanticTokensParams

/-- Tokens, each in five numbers. -/
structure SemanticTokens where
  resultId : Option String := none
  data : List UInt32
  deriving DecidableEq

namespace SemanticTokens

open Json Fields in
def fields : Fields SemanticTokens SemanticTokens :=
  SemanticTokens.mk <$> optional "resultId" Codec.string (·.resultId)
    <*> field "data" (Codec.list Codec.uint32) (·.data)

def codec : Json.Codec SemanticTokens := .record "SemanticTokens" fields

end SemanticTokens

namespace SemanticTokens

/-- How many tokens there are. -/
def tokenCount (t : SemanticTokens) : Nat := t.data.length / 5

end SemanticTokens

/-- Asks for the findings about a document. -/
structure DocumentDiagnosticParams where
  textDocument : TextDocumentIdentifier
  identifier : Option String := none
  previousResultId : Option String := none
  workDone : WorkDoneProgressParams := {}
  partialResult : PartialResultParams := {}
  deriving DecidableEq

namespace DocumentDiagnosticParams

open Json Fields in
def fields : Fields DocumentDiagnosticParams DocumentDiagnosticParams :=
  DocumentDiagnosticParams.mk <$> field "textDocument" TextDocumentIdentifier.codec (·.textDocument)
    <*> optional "identifier" Codec.string (·.identifier)
    <*> optional "previousResultId" Codec.string (·.previousResultId)
    <*> flattened WorkDoneProgressParams.fields (·.workDone)
    <*> flattened PartialResultParams.fields (·.partialResult)

def codec : Json.Codec DocumentDiagnosticParams := .openRecord "DocumentDiagnosticParams" fields

end DocumentDiagnosticParams

end LanguageClient
