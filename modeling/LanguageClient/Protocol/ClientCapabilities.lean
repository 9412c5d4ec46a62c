import LanguageClient.Protocol.Markup

/-!
# LanguageClient.Protocol.ClientCapabilities -- what a client can do

The features that a client announces, area by area, and under the name `standard` what this client
announces of itself.
-/

namespace LanguageClient

/-- Operations on files that a client can carry out. -/
inductive ResourceOperationKind where
  | create
  | rename
  | delete
  deriving DecidableEq

namespace ResourceOperationKind

/-- All values, in the order in which messages list them. -/
def all : List ResourceOperationKind := [.create, .rename, .delete]

/-- The name on the wire. -/
def name : ResourceOperationKind → String
  | create => "create"
  | rename => "rename"
  | delete => "delete"

def codec : Json.Codec ResourceOperationKind := .names all name

end ResourceOperationKind

/-- What a client does when a change fails half way. -/
inductive FailureHandlingKind where
  | abort
  | transactional
  | textOnlyTransactional
  | undo
  deriving DecidableEq

namespace FailureHandlingKind

/-- All values, in the order in which messages list them. -/
def all : List FailureHandlingKind := [.abort, .transactional, .textOnlyTransactional, .undo]

/-- The name on the wire. -/
def name : FailureHandlingKind → String
  | abort => "abort"
  | transactional => "transactional"
  | textOnlyTransactional => "textOnlyTransactional"
  | undo => "undo"

def codec : Json.Codec FailureHandlingKind := .names all name

end FailureHandlingKind

/-- How much is traced. -/
inductive TraceValue where
  | off
  | messages
  | verbose
  deriving DecidableEq

namespace TraceValue

/-- All values, in the order in which messages list them. -/
def all : List TraceValue := [.off, .messages, .verbose]

/-- The name on the wire. -/
def name : TraceValue → String
  | off => "off"
  | messages => "messages"
  | verbose => "verbose"

def codec : Json.Codec TraceValue := .names all name

end TraceValue

/-- Workspace edits. -/
structure WorkspaceEditClientCapabilities where
  documentChanges : Option Bool := none
  resourceOperations : Option (List ResourceOperationKind) := none
  failureHandling : Option FailureHandlingKind := none
  deriving DecidableEq

namespace WorkspaceEditClientCapabilities

open Json Fields in
def fields : Fields WorkspaceEditClientCapabilities WorkspaceEditClientCapabilities :=
  WorkspaceEditClientCapabilities.mk <$> optional "documentChanges" Codec.bool (·.documentChanges)
    <*> optional "resourceOperations" (Codec.list ResourceOperationKind.codec) (·.resourceOperations)
    <*> optional "failureHandling" FailureHandlingKind.codec (·.failureHandling)

def codec : Json.Codec WorkspaceEditClientCapabilities := .record "WorkspaceEditClientCapabilities" fields

end WorkspaceEditClientCapabilities

namespace WorkspaceEditClientCapabilities

/-- What this client can do. -/
def standard : WorkspaceEditClientCapabilities :=
  { documentChanges := some true
    resourceOperations := some [.create, .rename, .delete]
    failureHandling := some .transactional }

end WorkspaceEditClientCapabilities

/-- A feature of which only this is told: whether it may be registered later. -/
structure DynamicRegistrationCapability where
  dynamicRegistration : Option Bool := none
  deriving DecidableEq

namespace DynamicRegistrationCapability

open Json Fields in
def fields : Fields DynamicRegistrationCapability DynamicRegistrationCapability :=
  DynamicRegistrationCapability.mk
    <$> optional "dynamicRegistration" Codec.bool (·.dynamicRegistration)

def codec : Json.Codec DynamicRegistrationCapability := .record "DynamicRegistrationCapability" fields

end DynamicRegistrationCapability

namespace DynamicRegistrationCapability

/-- What this client can do. -/
def standard : DynamicRegistrationCapability :=
  { dynamicRegistration := some false }

end DynamicRegistrationCapability

/-- Features of the workspace. -/
structure WorkspaceClientCapabilities where
  applyEdit : Option Bool := none
  workspaceEdit : Option WorkspaceEditClientCapabilities := none
  didChangeConfiguration : Option DynamicRegistrationCapability := none
  symbol : Option DynamicRegistrationCapability := none
  workspaceFolders : Option Bool := none
  configuration : Option Bool := none
  deriving DecidableEq

namespace WorkspaceClientCapabilities

open Json Fields in
def fields : Fields WorkspaceClientCapabilities WorkspaceClientCapabilities :=
  WorkspaceClientCapabilities.mk <$> optional "applyEdit" Codec.bool (·.applyEdit)
    <*> optional "workspaceEdit" WorkspaceEditClientCapabilities.codec (·.workspaceEdit)
    <*> optional "didChangeConfiguration" DynamicRegistrationCapability.codec (·.didChangeConfiguration)
    <*> optional "symbol" DynamicRegistrationCapability.codec (·.symbol)
    <*> optional "workspaceFolders" Codec.bool (·.workspaceFolders)
    <*> optional "configuration" Codec.bool (·.configuration)

def codec : Json.Codec WorkspaceClientCapabilities := .record "WorkspaceClientCapabilities" fields

end WorkspaceClientCapabilities

namespace WorkspaceClientCapabilities

/-- What this client can do. -/
def standard : WorkspaceClientCapabilities :=
  { applyEdit := some false
    workspaceEdit := some .standard
    didChangeConfiguration := some .standard
    workspaceFolders := some true
    configuration := some true }

end WorkspaceClientCapabilities

/-- Keeping documents up to date. -/
structure TextDocumentSyncClientCapabilities where
  dynamicRegistration : Option Bool := none
  willSave : Option Bool := none
  willSaveWaitUntil : Option Bool := none
  didSave : Option Bool := none
  deriving DecidableEq

namespace TextDocumentSyncClientCapabilities

open Json Fields in
def fields : Fields TextDocumentSyncClientCapabilities TextDocumentSyncClientCapabilities :=
  TextDocumentSyncClientCapabilities.mk
    <$> optional "dynamicRegistration" Codec.bool (·.dynamicRegistration)
    <*> optional "willSave" Codec.bool (·.willSave)
    <*> optional "willSaveWaitUntil" Codec.bool (·.willSaveWaitUntil)
    <*> optional "didSave" Codec.bool (·.didSave)

def codec : Json.Codec TextDocumentSyncClientCapabilities := .record "TextDocumentSyncClientCapabilities" fields

end TextDocumentSyncClientCapabilities

namespace TextDocumentSyncClientCapabilities

/-- What this client can do. -/
def standard : TextDocumentSyncClientCapabilities :=
  { dynamicRegistration := some false
    willSave := some false
    willSaveWaitUntil := some false
    didSave := some true }

end TextDocumentSyncClientCapabilities

/-- Proposals. -/
structure CompletionItemClientCapabilities where
  snippetSupport : Option Bool := none
  commitCharactersSupport : Option Bool := none
  documentationFormat : Option (List MarkupKind) := none
  deriving DecidableEq

namespace CompletionItemClientCapabilities

open Json Fields in
def fields : Fields CompletionItemClientCapabilities CompletionItemClientCapabilities :=
  CompletionItemClientCapabilities.mk <$> optional "snippetSupport" Codec.bool (·.snippetSupport)
    <*> optional "commitCharactersSupport" Codec.bool (·.commitCharactersSupport)
    <*> optional "documentationFormat" (Codec.list MarkupKind.codec) (·.documentationFormat)

def codec : Json.Codec CompletionItemClientCapabilities := .record "CompletionItemClientCapabilities" fields

end CompletionItemClientCapabilities

namespace CompletionItemClientCapabilities

/-- What this client can do. -/
def standard : CompletionItemClientCapabilities :=
  { snippetSupport := some false
    commitCharactersSupport := some true
    documentationFormat := some [.markdown, .plainText] }

end CompletionItemClientCapabilities

/-- Completion. -/
structure CompletionClientCapabilities where
  dynamicRegistration : Option Bool := none
  completionItem : Option CompletionItemClientCapabilities := none
  contextSupport : Option Bool := none
  deriving DecidableEq

namespace CompletionClientCapabilities

open Json Fields in
def fields : Fields CompletionClientCapabilities CompletionClientCapabilities :=
  CompletionClientCapabilities.mk
    <$> optional "dynamicRegistration" Codec.bool (·.dynamicRegistration)
    <*> optional "completionItem" CompletionItemClientCapabilities.codec (·.completionItem)
    <*> optional "contextSupport" Codec.bool (·.contextSupport)

def codec : Json.Codec CompletionClientCapabilities := .record "CompletionClientCapabilities" fields

end CompletionClientCapabilities

namespace CompletionClientCapabilities

/-- What this client can do. -/
def standard : CompletionClientCapabilities :=
  { dynamicRegistration := some false
    completionItem := some .standard
    contextSupport := some true }

end CompletionClientCapabilities

/-- Hovers. -/
structure HoverClientCapabilities where
  dynamicRegistration : Option Bool := none
  contentFormat : Option (List MarkupKind) := none
  deriving DecidableEq

namespace HoverClientCapabilities

open Json Fields in
def fields : Fields HoverClientCapabilities HoverClientCapabilities :=
  HoverClientCapabilities.mk <$> optional "dynamicRegistration" Codec.bool (·.dynamicRegistration)
    <*> optional "contentFormat" (Codec.list MarkupKind.codec) (·.contentFormat)

def codec : Json.Codec HoverClientCapabilities := .record "HoverClientCapabilities" fields

end HoverClientCapabilities

namespace HoverClientCapabilities

/-- What this client can do. -/
def standard : HoverClientCapabilities :=
  { dynamicRegistration := some false, contentFormat := some [.markdown, .plainText] }

end HoverClientCapabilities

/-- Definitions and declarations. -/
structure GotoClientCapabilities where
  dynamicRegistration : Option Bool := none
  linkSupport : Option Bool := none
  deriving DecidableEq

namespace GotoClientCapabilities

open Json Fields in
def fields : Fields GotoClientCapabilities GotoClientCapabilities :=
  GotoClientCapabilities.mk <$> optional "dynamicRegistration" Codec.bool (·.dynamicRegistration)
    <*> optional "linkSupport" Codec.bool (·.linkSupport)

def codec : Json.Codec GotoClientCapabilities := .record "GotoClientCapabilities" fields

end GotoClientCapabilities

namespace GotoClientCapabilities

/-- What this client can do. -/
def standard : GotoClientCapabilities :=
  { dynamicRegistration := some false, linkSupport := some true }

end GotoClientCapabilities

/-- Symbols. -/
structure DocumentSymbolClientCapabilities where
  dynamicRegistration : Option Bool := none
  hierarchicalDocumentSymbolSupport : Option Bool := none
  deriving DecidableEq

namespace DocumentSymbolClientCapabilities

open Json Fields in
def fields : Fields DocumentSymbolClientCapabilities DocumentSymbolClientCapabilities :=
  DocumentSymbolClientCapabilities.mk
    <$> optional "dynamicRegistration" Codec.bool (·.dynamicRegistration)
    <*> optional "hierarchicalDocumentSymbolSupport" Codec.bool (·.hierarchicalDocumentSymbolSupport)

def codec : Json.Codec DocumentSymbolClientCapabilities := .record "DocumentSymbolClientCapabilities" fields

end DocumentSymbolClientCapabilities

namespace DocumentSymbolClientCapabilities

/-- What this client can do. -/
def standard : DocumentSymbolClientCapabilities :=
  { dynamicRegistration := some false, hierarchicalDocumentSymbolSupport := some true }

end DocumentSymbolClientCapabilities

/-- Renaming. -/
structure RenameClientCapabilities where
  dynamicRegistration : Option Bool := none
  prepareSupport : Option Bool := none
  deriving DecidableEq

namespace RenameClientCapabilities

open Json Fields in
def fields : Fields RenameClientCapabilities RenameClientCapabilities :=
  RenameClientCapabilities.mk <$> optional "dynamicRegistration" Codec.bool (·.dynamicRegistration)
    <*> optional "prepareSupport" Codec.bool (·.prepareSupport)

def codec : Json.Codec RenameClientCapabilities := .record "RenameClientCapabilities" fields

end RenameClientCapabilities

namespace RenameClientCapabilities

/-- What this client can do. -/
def standard : RenameClientCapabilities :=
  { dynamicRegistration := some false, prepareSupport := some false }

end RenameClientCapabilities

/-- Which tokens a client asks for. -/
structure SemanticTokensClientRequests where
  range : Option Bool := none
  full : Option Bool := none
  deriving DecidableEq

namespace SemanticTokensClientRequests

open Json Fields in
def fields : Fields SemanticTokensClientRequests SemanticTokensClientRequests :=
  SemanticTokensClientRequests.mk <$> optional "range" Codec.bool (·.range)
    <*> optional "full" Codec.bool (·.full)

def codec : Json.Codec SemanticTokensClientRequests := .record "SemanticTokensClientRequests" fields

end SemanticTokensClientRequests

/-- The types of token that this client knows. -/
def tokenTypeNames : List String :=
  ["namespace", "type", "class", "enum", "interface", "struct", "typeParameter", "parameter",
    "variable", "property", "enumMember", "event", "function", "method", "macro", "keyword",
    "modifier", "comment", "string", "number", "regexp", "operator"]

/-- The modifiers of tokens that this client knows. -/
def tokenModifierNames : List String :=
  ["declaration", "definition", "readonly", "static", "deprecated", "abstract", "async",
    "modification", "documentation", "defaultLibrary"]

/-- Tokens. -/
structure SemanticTokensClientCapabilities where
  dynamicRegistration : Option Bool := none
  requests : SemanticTokensClientRequests
  tokenTypes : List String
  tokenModifiers : List String
  formats : List String
  deriving DecidableEq

namespace SemanticTokensClientCapabilities

open Json Fields in
def fields : Fields SemanticTokensClientCapabilities SemanticTokensClientCapabilities :=
  SemanticTokensClientCapabilities.mk
    <$> optional "dynamicRegistration" Codec.bool (·.dynamicRegistration)
    <*> field "requests" SemanticTokensClientRequests.codec (·.requests)
    <*> field "tokenTypes" (Codec.list Codec.string) (·.tokenTypes)
    <*> field "tokenModifiers" (Codec.list Codec.string) (·.tokenModifiers)
    <*> field "formats" (Codec.list Codec.string) (·.formats)

def codec : Json.Codec SemanticTokensClientCapabilities := .record "SemanticTokensClientCapabilities" fields

end SemanticTokensClientCapabilities

namespace SemanticTokensClientCapabilities

/-- What this client can do. -/
def standard : SemanticTokensClientCapabilities :=
  { dynamicRegistration := some false
    requests := { range := some false, full := some true }
    tokenTypes := tokenTypeNames
    tokenModifiers := tokenModifierNames
    formats := ["relative"] }

end SemanticTokensClientCapabilities

/-- Findings on demand. -/
structure DiagnosticClientCapabilities where
  dynamicRegistration : Option Bool := none
  relatedDocumentSupport : Option Bool := none
  deriving DecidableEq

namespace DiagnosticClientCapabilities

open Json Fields in
def fields : Fields DiagnosticClientCapabilities DiagnosticClientCapabilities :=
  DiagnosticClientCapabilities.mk
    <$> optional "dynamicRegistration" Codec.bool (·.dynamicRegistration)
    <*> optional "relatedDocumentSupport" Codec.bool (·.relatedDocumentSupport)

def codec : Json.Codec DiagnosticClientCapabilities := .record "DiagnosticClientCapabilities" fields

end DiagnosticClientCapabilities

namespace DiagnosticClientCapabilities

/-- What this client can do. -/
def standard : DiagnosticClientCapabilities :=
  { dynamicRegistration := some false, relatedDocumentSupport := some true }

end DiagnosticClientCapabilities

/-- Findings as they come. -/
structure PublishDiagnosticsClientCapabilities where
  relatedInformation : Option Bool := none
  versionSupport : Option Bool := none
  deriving DecidableEq

namespace PublishDiagnosticsClientCapabilities

open Json Fields in
def fields : Fields PublishDiagnosticsClientCapabilities PublishDiagnosticsClientCapabilities :=
  PublishDiagnosticsClientCapabilities.mk
    <$> optional "relatedInformation" Codec.bool (·.relatedInformation)
    <*> optional "versionSupport" Codec.bool (·.versionSupport)

def codec : Json.Codec PublishDiagnosticsClientCapabilities := .record "PublishDiagnosticsClientCapabilities" fields

end PublishDiagnosticsClientCapabilities

namespace PublishDiagnosticsClientCapabilities

/-- What this client can do. -/
def standard : PublishDiagnosticsClientCapabilities :=
  { relatedInformation := some true, versionSupport := some true }

end PublishDiagnosticsClientCapabilities

/-- Features of documents. -/
structure TextDocumentClientCapabilities where
  synchronization : Option TextDocumentSyncClientCapabilities := none
  completion : Option CompletionClientCapabilities := none
  hover : Option HoverClientCapabilities := none
  signatureHelp : Option DynamicRegistrationCapability := none
  declaration : Option GotoClientCapabilities := none
  definition : Option GotoClientCapabilities := none
  references : Option DynamicRegistrationCapability := none
  documentSymbol : Option DocumentSymbolClientCapabilities := none
  formatting : Option DynamicRegistrationCapability := none
  rename : Option RenameClientCapabilities := none
  colorProvider : Option DynamicRegistrationCapability := none
  semanticTokens : Option SemanticTokensClientCapabilities := none
  diagnostic : Option DiagnosticClientCapabilities := none
  publishDiagnostics : Option PublishDiagnosticsClientCapabilities := none
  deriving DecidableEq

namespace TextDocumentClientCapabilities

open Json Fields in
def fields : Fields TextDocumentClientCapabilities TextDocumentClientCapabilities :=
  TextDocumentClientCapabilities.mk
    <$> optional "synchronization" TextDocumentSyncClientCapabilities.codec (·.synchronization)
    <*> optional "completion" CompletionClientCapabilities.codec (·.completion)
    <*> optional "hover" HoverClientCapabilities.codec (·.hover)
    <*> optional "signatureHelp" DynamicRegistrationCapability.codec (·.signatureHelp)
    <*> optional "declaration" GotoClientCapabilities.codec (·.declaration)
    <*> optional "definition" GotoClientCapabilities.codec (·.definition)
    <*> optional "references" DynamicRegistrationCapability.codec (·.references)
    <*> optional "documentSymbol" DocumentSymbolClientCapabilities.codec (·.documentSymbol)
    <*> optional "formatting" DynamicRegistrationCapability.codec (·.formatting)
    <*> optional "rename" RenameClientCapabilities.codec (·.rename)
    <*> optional "colorProvider" DynamicRegistrationCapability.codec (·.colorProvider)
    <*> optional "semanticTokens" SemanticTokensClientCapabilities.codec (·.semanticTokens)
    <*> optional "diagnostic" DiagnosticClientCapabilities.codec (·.diagnostic)
    <*> optional "publishDiagnostics" PublishDiagnosticsClientCapabilities.codec (·.publishDiagnostics)

def codec : Json.Codec TextDocumentClientCapabilities := .record "TextDocumentClientCapabilities" fields

end TextDocumentClientCapabilities

namespace TextDocumentClientCapabilities

/-- What this client can do. -/
def standard : TextDocumentClientCapabilities :=
  { synchronization := some .standard
    completion := some .standard
    hover := some .standard
    signatureHelp := some .standard
    declaration := some .standard
    definition := some .standard
    references := some .standard
    documentSymbol := some .standard
    formatting := some .standard
    rename := some .standard
    colorProvider := some .standard
    semanticTokens := some .standard
    diagnostic := some .standard
    publishDiagnostics := some .standard }

end TextDocumentClientCapabilities

/-- Features of the window. -/
structure WindowClientCapabilities where
  workDoneProgress : Option Bool := none
  deriving DecidableEq

namespace WindowClientCapabilities

open Json Fields in
def fields : Fields WindowClientCapabilities WindowClientCapabilities :=
  WindowClientCapabilities.mk <$> optional "workDoneProgress" Codec.bool (·.workDoneProgress)

def codec : Json.Codec WindowClientCapabilities := .record "WindowClientCapabilities" fields

end WindowClientCapabilities

namespace WindowClientCapabilities

/-- What this client can do. -/
def standard : WindowClientCapabilities :=
  { workDoneProgress := some true }

end WindowClientCapabilities

/-- General features. -/
structure GeneralClientCapabilities where
  positionEncodings : Option (List String) := none
  deriving DecidableEq

namespace GeneralClientCapabilities

open Json Fields in
def fields : Fields GeneralClientCapabilities GeneralClientCapabilities :=
  GeneralClientCapabilities.mk
    <$> optional "positionEncodings" (Codec.list Codec.string) (·.positionEncodings)

def codec : Json.Codec GeneralClientCapabilities := .record "GeneralClientCapabilities" fields

end GeneralClientCapabilities

namespace GeneralClientCapabilities

/-- What this client can do. -/
def standard : GeneralClientCapabilities :=
  { positionEncodings := some ["utf-16"] }

end GeneralClientCapabilities

/-- What a client can do. -/
structure ClientCapabilities where
  workspace : Option WorkspaceClientCapabilities := none
  textDocument : Option TextDocumentClientCapabilities := none
  window : Option WindowClientCapabilities := none
  general : Option GeneralClientCapabilities := none
  experimental : Option Json := none
  deriving DecidableEq

namespace ClientCapabilities

open Json Fields in
def fields : Fields ClientCapabilities ClientCapabilities :=
  ClientCapabilities.mk <$> optional "workspace" WorkspaceClientCapabilities.codec (·.workspace)
    <*> optional "textDocument" TextDocumentClientCapabilities.codec (·.textDocument)
    <*> optional "window" WindowClientCapabilities.codec (·.window)
    <*> optional "general" GeneralClientCapabilities.codec (·.general)
    <*> optional "experimental" Codec.raw (·.experimental)

def codec : Json.Codec ClientCapabilities := .record "ClientCapabilities" fields

end ClientCapabilities

namespace ClientCapabilities

/-- What this client can do. -/
def standard : ClientCapabilities :=
  { workspace := some .standard
    textDocument := some .standard
    window := some .standard
    general := some .standard }

end ClientCapabilities

end LanguageClient
