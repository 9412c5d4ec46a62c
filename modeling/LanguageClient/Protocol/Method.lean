import LanguageClient.Protocol.Color
import LanguageClient.Protocol.Completion
import LanguageClient.Protocol.Formatting
import LanguageClient.Protocol.Initialize
import LanguageClient.Protocol.Inspection
import LanguageClient.Protocol.Navigation
import LanguageClient.Protocol.Symbol
import LanguageClient.Protocol.Window

/-!
# LanguageClient.Protocol.Method -- the methods and the forms of their params and results

A method of the protocol is its name together with the forms of what is sent and, for a request, of
what is answered. Methods that are not listed here can still be called with JSON as it is.
-/

namespace LanguageClient

/-- A method that is answered. -/
structure RequestMethod (Params Result : Type) where
  name : String
  params : Json.Codec Params
  result : Json.Codec Result

/-- A method that is not answered. -/
structure NotificationMethod (Params : Type) where
  name : String
  params : Json.Codec Params

/-- Params as they are sent: null means none. -/
def sentParams (j : Json) : Option Json := if j = .null then none else some j

namespace Method

open Json.Codec

/-! ## The life of a session -/

def handshake : RequestMethod InitializeParams InitializeResult :=
  ⟨"initialize", InitializeParams.codec, InitializeResult.codec⟩

def shutdown : RequestMethod Unit Unit := ⟨"shutdown", unit, unit⟩

def initialized : NotificationMethod InitializedParams := ⟨"initialized", InitializedParams.codec⟩

def exit : NotificationMethod Unit := ⟨"exit", unit⟩

/-! ## Requests to the server -/

def completion : RequestMethod CompletionParams (Option CompletionResponse) :=
  ⟨"textDocument/completion", CompletionParams.codec, CompletionResponse.codec.optional⟩

def signatureHelp : RequestMethod SignatureHelpParams (Option SignatureHelp) :=
  ⟨"textDocument/signatureHelp", SignatureHelpParams.codec, SignatureHelp.codec.optional⟩

def hover : RequestMethod HoverParams (Option Hover) :=
  ⟨"textDocument/hover", HoverParams.codec, Hover.codec.optional⟩

def definition : RequestMethod GotoParams (Option GotoResponse) :=
  ⟨"textDocument/definition", GotoParams.codec, GotoResponse.codec.optional⟩

def declaration : RequestMethod GotoParams (Option GotoResponse) :=
  ⟨"textDocument/declaration", GotoParams.codec, GotoResponse.codec.optional⟩

def references : RequestMethod ReferenceParams (Option (List Location)) :=
  ⟨"textDocument/references", ReferenceParams.codec, (list Location.codec).optional⟩

def documentSymbol : RequestMethod DocumentSymbolParams (Option DocumentSymbolResponse) :=
  ⟨"textDocument/documentSymbol", DocumentSymbolParams.codec, DocumentSymbolResponse.codec.optional⟩

def formatting : RequestMethod DocumentFormattingParams (Option (List TextEdit)) :=
  ⟨"textDocument/formatting", DocumentFormattingParams.codec, (list TextEdit.codec).optional⟩

def rename : RequestMethod RenameParams (Option WorkspaceEdit) :=
  ⟨"textDocument/rename", RenameParams.codec, WorkspaceEdit.codec.optional⟩

def colorPresentation : RequestMethod ColorPresentationParams (List ColorPresentation) :=
  ⟨"textDocument/colorPresentation", ColorPresentationParams.codec, list ColorPresentation.codec⟩

def documentColor : RequestMethod DocumentColorParams (List ColorInformation) :=
  ⟨"textDocument/documentColor", DocumentColorParams.codec, list ColorInformation.codec⟩

def semanticTokensFull : RequestMethod SemanticTokensParams (Option SemanticTokens) :=
  ⟨"textDocument/semanticTokens/full", SemanticTokensParams.codec, SemanticTokens.codec.optional⟩

def documentDiagnostic : RequestMethod DocumentDiagnosticParams DocumentDiagnosticReport :=
  ⟨"textDocument/diagnostic", DocumentDiagnosticParams.codec, DocumentDiagnosticReport.codec⟩

/-! ## Notifications to the server -/

def didOpen : NotificationMethod DidOpenTextDocumentParams :=
  ⟨"textDocument/didOpen", DidOpenTextDocumentParams.codec⟩

def didChange : NotificationMethod DidChangeTextDocumentParams :=
  ⟨"textDocument/didChange", DidChangeTextDocumentParams.codec⟩

def didSave : NotificationMethod DidSaveTextDocumentParams :=
  ⟨"textDocument/didSave", DidSaveTextDocumentParams.codec⟩

def didClose : NotificationMethod DidCloseTextDocumentParams :=
  ⟨"textDocument/didClose", DidCloseTextDocumentParams.codec⟩

def cancel : NotificationMethod CancelParams := ⟨"$/cancelRequest", CancelParams.codec⟩

def setTrace : NotificationMethod SetTraceParams := ⟨"$/setTrace", SetTraceParams.codec⟩

/-! ## Requests from the server -/

def workDoneProgressCreate : RequestMethod WorkDoneProgressCreateParams Unit :=
  ⟨"window/workDoneProgress/create", WorkDoneProgressCreateParams.codec, unit⟩

def registerCapability : RequestMethod RegistrationParams Unit :=
  ⟨"client/registerCapability", RegistrationParams.codec, unit⟩

def unregisterCapability : RequestMethod UnregistrationParams Unit :=
  ⟨"client/unregisterCapability", UnregistrationParams.codec, unit⟩

/-- Answered by one value for each part that was asked for, in order. -/
def workspaceConfiguration : RequestMethod ConfigurationParams (List Json) :=
  ⟨"workspace/configuration", ConfigurationParams.codec, list raw⟩

def showMessageRequest : RequestMethod ShowMessageRequestParams (Option MessageActionItem) :=
  ⟨"window/showMessageRequest", ShowMessageRequestParams.codec, MessageActionItem.codec.optional⟩

/-! ## Notifications from the server -/

def logMessage : NotificationMethod LogMessageParams := ⟨"window/logMessage", LogMessageParams.codec⟩

def showMessage : NotificationMethod ShowMessageParams :=
  ⟨"window/showMessage", ShowMessageParams.codec⟩

def logTrace : NotificationMethod LogTraceParams := ⟨"$/logTrace", LogTraceParams.codec⟩

def publishDiagnostics : NotificationMethod PublishDiagnosticsParams :=
  ⟨"textDocument/publishDiagnostics", PublishDiagnosticsParams.codec⟩

def progress : NotificationMethod (ProgressParams Json) :=
  ⟨"$/progress", ProgressParams.codec raw⟩

end Method

end LanguageClient
