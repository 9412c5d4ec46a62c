import LanguageClient.Protocol.Method
import LanguageClient.Rpc.ResponseError

/-!
# LanguageClient.Protocol.Catalog -- the types of the protocol by name

For tools that are given a type by its name: what JSON of that type comes to when it is read and written
again, and the standard value of the types that have one.
-/

namespace LanguageClient

/-- JSON of a type in the form in which the type writes it. -/
def Json.Codec.normalize {α : Type} (c : Json.Codec α) (j : Json) : Except Json.Mismatch Json :=
  (c.ofJson j).map c.write

namespace Catalog

/-- The types that are no more than their form. -/
def types : List (String × (Json → Except Json.Mismatch Json)) := [
  ("AnnotatedTextEdit", AnnotatedTextEdit.codec.normalize),
  ("CancelParams", CancelParams.codec.normalize),
  ("ChangeAnnotation", ChangeAnnotation.codec.normalize),
  ("ClientCapabilities", ClientCapabilities.codec.normalize),
  ("ClientInfo", ClientInfo.codec.normalize),
  ("CodeDescription", CodeDescription.codec.normalize),
  ("Color", Color.codec.normalize),
  ("ColorInformation", ColorInformation.codec.normalize),
  ("ColorPresentation", ColorPresentation.codec.normalize),
  ("ColorPresentationParams", ColorPresentationParams.codec.normalize),
  ("Command", Command.codec.normalize),
  ("CompletionClientCapabilities", CompletionClientCapabilities.codec.normalize),
  ("CompletionContext", CompletionContext.codec.normalize),
  ("CompletionItem", CompletionItem.codec.normalize),
  ("CompletionItemClientCapabilities", CompletionItemClientCapabilities.codec.normalize),
  ("CompletionList", CompletionList.codec.normalize),
  ("CompletionOptions", CompletionOptions.codec.normalize),
  ("CompletionParams", CompletionParams.codec.normalize),
  ("ConfigurationItem", ConfigurationItem.codec.normalize),
  ("ConfigurationParams", ConfigurationParams.codec.normalize),
  ("CreateFile", CreateFile.codec.normalize),
  ("DeleteFile", DeleteFile.codec.normalize),
  ("Diagnostic", Diagnostic.codec.normalize),
  ("DiagnosticClientCapabilities", DiagnosticClientCapabilities.codec.normalize),
  ("DiagnosticRelatedInformation", DiagnosticRelatedInformation.codec.normalize),
  ("DiagnosticSeverity", DiagnosticSeverity.codec.normalize),
  ("DiagnosticTag", DiagnosticTag.codec.normalize),
  ("DidChangeTextDocumentParams", DidChangeTextDocumentParams.codec.normalize),
  ("DidCloseTextDocumentParams", DidCloseTextDocumentParams.codec.normalize),
  ("DidOpenTextDocumentParams", DidOpenTextDocumentParams.codec.normalize),
  ("DidSaveTextDocumentParams", DidSaveTextDocumentParams.codec.normalize),
  ("DocumentColorParams", DocumentColorParams.codec.normalize),
  ("DocumentDiagnosticParams", DocumentDiagnosticParams.codec.normalize),
  ("DocumentDiagnosticReport", DocumentDiagnosticReport.codec.normalize),
  ("DocumentFormattingParams", DocumentFormattingParams.codec.normalize),
  ("DocumentSymbol", DocumentSymbol.codec.normalize),
  ("DocumentSymbolClientCapabilities", DocumentSymbolClientCapabilities.codec.normalize),
  ("DocumentSymbolParams", DocumentSymbolParams.codec.normalize),
  ("DynamicRegistrationCapability", DynamicRegistrationCapability.codec.normalize),
  ("FailureHandlingKind", FailureHandlingKind.codec.normalize),
  ("FileOperationOptions", FileOperationOptions.codec.normalize),
  ("FormattingOptions", FormattingOptions.codec.normalize),
  ("FullDocumentDiagnosticReport", FullDocumentDiagnosticReport.codec.normalize),
  ("GeneralClientCapabilities", GeneralClientCapabilities.codec.normalize),
  ("GotoClientCapabilities", GotoClientCapabilities.codec.normalize),
  ("GotoParams", GotoParams.codec.normalize),
  ("Hover", Hover.codec.normalize),
  ("HoverClientCapabilities", HoverClientCapabilities.codec.normalize),
  ("HoverParams", HoverParams.codec.normalize),
  ("InitializeParams", InitializeParams.codec.normalize),
  ("InitializedParams", InitializedParams.codec.normalize),
  ("Location", Location.codec.normalize),
  ("LocationLink", LocationLink.codec.normalize),
  ("LogMessageParams", LogMessageParams.codec.normalize),
  ("LogTraceParams", LogTraceParams.codec.normalize),
  ("MarkedString", MarkedString.codec.normalize),
  ("MarkupContent", MarkupContent.codec.normalize),
  ("MarkupKind", MarkupKind.codec.normalize),
  ("MessageActionItem", MessageActionItem.codec.normalize),
  ("OptionalVersionedTextDocumentIdentifier", OptionalVersionedTextDocumentIdentifier.codec.normalize),
  ("ParameterInformation", ParameterInformation.codec.normalize),
  ("PartialResultParams", PartialResultParams.codec.normalize),
  ("Position", Position.codec.normalize),
  ("PublishDiagnosticsClientCapabilities", PublishDiagnosticsClientCapabilities.codec.normalize),
  ("PublishDiagnosticsParams", PublishDiagnosticsParams.codec.normalize),
  ("ReferenceContext", ReferenceContext.codec.normalize),
  ("ReferenceParams", ReferenceParams.codec.normalize),
  ("Registration", Registration.codec.normalize),
  ("RegistrationParams", RegistrationParams.codec.normalize),
  ("RenameClientCapabilities", RenameClientCapabilities.codec.normalize),
  ("RenameFile", RenameFile.codec.normalize),
  ("RenameParams", RenameParams.codec.normalize),
  ("ResourceOperation", ResourceOperation.codec.normalize),
  ("ResourceOperationKind", ResourceOperationKind.codec.normalize),
  ("ResponseError", ResponseError.codec.normalize),
  ("SemanticTokensClientCapabilities", SemanticTokensClientCapabilities.codec.normalize),
  ("SemanticTokensClientRequests", SemanticTokensClientRequests.codec.normalize),
  ("SemanticTokensParams", SemanticTokensParams.codec.normalize),
  ("ServerInfo", ServerInfo.codec.normalize),
  ("SetTraceParams", SetTraceParams.codec.normalize),
  ("ShowMessageParams", ShowMessageParams.codec.normalize),
  ("ShowMessageRequestParams", ShowMessageRequestParams.codec.normalize),
  ("SignatureHelp", SignatureHelp.codec.normalize),
  ("SignatureHelpParams", SignatureHelpParams.codec.normalize),
  ("SignatureInformation", SignatureInformation.codec.normalize),
  ("SymbolInformation", SymbolInformation.codec.normalize),
  ("TextDocumentClientCapabilities", TextDocumentClientCapabilities.codec.normalize),
  ("TextDocumentContentChangeEvent", TextDocumentContentChangeEvent.codec.normalize),
  ("TextDocumentEdit", TextDocumentEdit.codec.normalize),
  ("TextDocumentIdentifier", TextDocumentIdentifier.codec.normalize),
  ("TextDocumentItem", TextDocumentItem.codec.normalize),
  ("TextDocumentPositionParams", TextDocumentPositionParams.codec.normalize),
  ("TextDocumentSyncClientCapabilities", TextDocumentSyncClientCapabilities.codec.normalize),
  ("TextDocumentSyncKind", TextDocumentSyncKind.codec.normalize),
  ("TextDocumentSyncOptions", TextDocumentSyncOptions.codec.normalize),
  ("TextEdit", TextEdit.codec.normalize),
  ("TraceValue", TraceValue.codec.normalize),
  ("UnchangedDocumentDiagnosticReport", UnchangedDocumentDiagnosticReport.codec.normalize),
  ("Unregistration", Unregistration.codec.normalize),
  ("UnregistrationParams", UnregistrationParams.codec.normalize),
  ("VersionedTextDocumentIdentifier", VersionedTextDocumentIdentifier.codec.normalize),
  ("WindowClientCapabilities", WindowClientCapabilities.codec.normalize),
  ("WorkDoneProgress", WorkDoneProgress.codec.normalize),
  ("WorkDoneProgressBegin", WorkDoneProgressBegin.codec.normalize),
  ("WorkDoneProgressCreateParams", WorkDoneProgressCreateParams.codec.normalize),
  ("WorkDoneProgressEnd", WorkDoneProgressEnd.codec.normalize),
  ("WorkDoneProgressParams", WorkDoneProgressParams.codec.normalize),
  ("WorkDoneProgressReport", WorkDoneProgressReport.codec.normalize),
  ("WorkspaceClientCapabilities", WorkspaceClientCapabilities.codec.normalize),
  ("WorkspaceEdit", WorkspaceEdit.codec.normalize),
  ("WorkspaceEditClientCapabilities", WorkspaceEditClientCapabilities.codec.normalize),
  ("WorkspaceFolder", WorkspaceFolder.codec.normalize)]

/-- The standard values. -/
def standardValues : List (String × Json) := [
  ("ClientCapabilities", ClientCapabilities.codec.write .standard),
  ("CompletionClientCapabilities", CompletionClientCapabilities.codec.write .standard),
  ("CompletionItemClientCapabilities", CompletionItemClientCapabilities.codec.write .standard),
  ("DiagnosticClientCapabilities", DiagnosticClientCapabilities.codec.write .standard),
  ("DocumentSymbolClientCapabilities", DocumentSymbolClientCapabilities.codec.write .standard),
  ("DynamicRegistrationCapability", DynamicRegistrationCapability.codec.write .standard),
  ("FileOperationOptions", FileOperationOptions.codec.write {}),
  ("FormattingOptions", FormattingOptions.codec.write .standard),
  ("GeneralClientCapabilities", GeneralClientCapabilities.codec.write .standard),
  ("GotoClientCapabilities", GotoClientCapabilities.codec.write .standard),
  ("HoverClientCapabilities", HoverClientCapabilities.codec.write .standard),
  ("InitializedParams", InitializedParams.codec.write {}),
  ("PartialResultParams", PartialResultParams.codec.write {}),
  ("PublishDiagnosticsClientCapabilities", PublishDiagnosticsClientCapabilities.codec.write .standard),
  ("RenameClientCapabilities", RenameClientCapabilities.codec.write .standard),
  ("SemanticTokensClientCapabilities", SemanticTokensClientCapabilities.codec.write .standard),
  ("SemanticTokensClientRequests", SemanticTokensClientRequests.codec.write {}),
  ("ServerCapabilities", ServerCapabilities.codec.write {}),
  ("TextDocumentClientCapabilities", TextDocumentClientCapabilities.codec.write .standard),
  ("TextDocumentSyncClientCapabilities", TextDocumentSyncClientCapabilities.codec.write .standard),
  ("TraceValue", TraceValue.codec.write .off),
  ("WindowClientCapabilities", WindowClientCapabilities.codec.write .standard),
  ("WorkDoneProgressParams", WorkDoneProgressParams.codec.write {}),
  ("WorkspaceClientCapabilities", WorkspaceClientCapabilities.codec.write .standard),
  ("WorkspaceEdit", WorkspaceEdit.codec.write {}),
  ("WorkspaceEditClientCapabilities", WorkspaceEditClientCapabilities.codec.write .standard)]

end Catalog

end LanguageClient
