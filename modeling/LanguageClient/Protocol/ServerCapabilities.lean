import LanguageClient.Json.Fields
import LanguageClient.Json.Choice

/-!
# LanguageClient.Protocol.ServerCapabilities -- what a server can do

The features that a server announces. Those that no request of this library needs are kept as they
come.
-/

namespace LanguageClient

/-- How a server wants to be told of changes. -/
inductive TextDocumentSyncKind where
  | none
  | full
  | incremental
  deriving DecidableEq

namespace TextDocumentSyncKind

def all : List TextDocumentSyncKind := [.none, .full, .incremental]

/-- The number on the wire. -/
def code : TextDocumentSyncKind → UInt8
  | none => 0
  | full => 1
  | incremental => 2

def codec : Json.Codec TextDocumentSyncKind := .codes "text document sync kind" all code

end TextDocumentSyncKind

/-- What a server wants to be told of documents. -/
structure TextDocumentSyncOptions where
  openClose : Option Bool := none
  change : Option TextDocumentSyncKind := none
  save : Option Json := none
  deriving DecidableEq

namespace TextDocumentSyncOptions

open Json Fields in
def fields : Fields TextDocumentSyncOptions TextDocumentSyncOptions :=
  TextDocumentSyncOptions.mk <$> optional "openClose" Codec.bool (·.openClose)
    <*> optional "change" TextDocumentSyncKind.codec (·.change)
    <*> optional "save" Codec.raw (·.save)

def codec : Json.Codec TextDocumentSyncOptions := .record "TextDocumentSyncOptions" fields

end TextDocumentSyncOptions

/-- The same, or only how it wants to be told of changes. -/
inductive TextDocumentSyncCapability where
  | kind (kind : TextDocumentSyncKind)
  | options (options : TextDocumentSyncOptions)
  deriving DecidableEq

namespace TextDocumentSyncCapability

/-- How the server wants to be told of changes. -/
def changeKind : TextDocumentSyncCapability → TextDocumentSyncKind
  | kind k => k
  | options o => o.change.getD .none

def toJson : TextDocumentSyncCapability → Json
  | kind k => TextDocumentSyncKind.codec.write k
  | options o => TextDocumentSyncOptions.codec.write o

open Json.Codec in
def codec : Json.Codec TextDocumentSyncCapability :=
  choice "TextDocumentSyncCapability"
    [asForm TextDocumentSyncKind.codec kind, asForm TextDocumentSyncOptions.codec options] toJson

end TextDocumentSyncCapability

/-- How a server completes. -/
structure CompletionOptions where
  resolveProvider : Option Bool := none
  triggerCharacters : Option (List String) := none
  allCommitCharacters : Option (List String) := none
  deriving DecidableEq

namespace CompletionOptions

open Json Fields in
def fields : Fields CompletionOptions CompletionOptions :=
  CompletionOptions.mk <$> optional "resolveProvider" Codec.bool (·.resolveProvider)
    <*> optional "triggerCharacters" (Codec.list Codec.string) (·.triggerCharacters)
    <*> optional "allCommitCharacters" (Codec.list Codec.string) (·.allCommitCharacters)

def codec : Json.Codec CompletionOptions := .record "CompletionOptions" fields

end CompletionOptions

/-- A feature that is announced by a truth value, or by options of any form. -/
inductive ProviderCapability where
  | simple (enabled : Bool)
  | options (options : Json)
  deriving DecidableEq

namespace ProviderCapability

/-- Whether the feature is there; with options it is. -/
def isEnabled : ProviderCapability → Bool
  | simple enabled => enabled
  | options _ => true

def toJson : ProviderCapability → Json
  | simple enabled => .bool enabled
  | options o => o

open Json.Codec in
def codec : Json.Codec ProviderCapability :=
  choice "ProviderCapability" [asForm bool simple, asForm raw options] toJson

end ProviderCapability

/-- What a server can do. -/
structure ServerCapabilities where
  textDocumentSync : Option TextDocumentSyncCapability := none
  completionProvider : Option CompletionOptions := none
  hoverProvider : Option ProviderCapability := none
  signatureHelpProvider : Option Json := none
  declarationProvider : Option ProviderCapability := none
  definitionProvider : Option ProviderCapability := none
  referencesProvider : Option ProviderCapability := none
  documentSymbolProvider : Option ProviderCapability := none
  documentFormattingProvider : Option ProviderCapability := none
  renameProvider : Option ProviderCapability := none
  colorProvider : Option ProviderCapability := none
  semanticTokensProvider : Option Json := none
  diagnosticProvider : Option Json := none
  /-- Everything else. -/
  other : Dict Json := ∅
  deriving DecidableEq

namespace ServerCapabilities

/-- The names of the declared members. -/
def declared : List String :=
  ["textDocumentSync",
    "completionProvider", "hoverProvider", "signatureHelpProvider", "declarationProvider",
    "definitionProvider", "referencesProvider", "documentSymbolProvider",
    "documentFormattingProvider", "renameProvider", "colorProvider", "semanticTokensProvider",
    "diagnosticProvider"]

open Json Fields in
def fields : Fields ServerCapabilities ServerCapabilities :=
  ServerCapabilities.mk
    <$> optional "textDocumentSync" TextDocumentSyncCapability.codec (·.textDocumentSync)
    <*> optional "completionProvider" CompletionOptions.codec (·.completionProvider)
    <*> optional "hoverProvider" ProviderCapability.codec (·.hoverProvider)
    <*> optional "signatureHelpProvider" Codec.raw (·.signatureHelpProvider)
    <*> optional "declarationProvider" ProviderCapability.codec (·.declarationProvider)
    <*> optional "definitionProvider" ProviderCapability.codec (·.definitionProvider)
    <*> optional "referencesProvider" ProviderCapability.codec (·.referencesProvider)
    <*> optional "documentSymbolProvider" ProviderCapability.codec (·.documentSymbolProvider)
    <*> optional "documentFormattingProvider" ProviderCapability.codec (·.documentFormattingProvider)
    <*> optional "renameProvider" ProviderCapability.codec (·.renameProvider)
    <*> optional "colorProvider" ProviderCapability.codec (·.colorProvider)
    <*> optional "semanticTokensProvider" Codec.raw (·.semanticTokensProvider)
    <*> optional "diagnosticProvider" Codec.raw (·.diagnosticProvider) <*> rest declared (·.other)

def codec : Json.Codec ServerCapabilities := .openRecord "ServerCapabilities" fields

end ServerCapabilities

namespace ServerCapabilities

/-- Whether a feature is announced and not switched off. -/
def isEnabled (provider : Option ProviderCapability) : Bool :=
  (provider.map ProviderCapability.isEnabled).getD false

def supportsHover (c : ServerCapabilities) : Bool := isEnabled c.hoverProvider

def supportsCompletion (c : ServerCapabilities) : Bool := c.completionProvider.isSome

def supportsDefinition (c : ServerCapabilities) : Bool := isEnabled c.definitionProvider

def supportsReferences (c : ServerCapabilities) : Bool := isEnabled c.referencesProvider

def supportsRename (c : ServerCapabilities) : Bool := isEnabled c.renameProvider

def supportsFormatting (c : ServerCapabilities) : Bool := isEnabled c.documentFormattingProvider

/-- How the server wants to be told of changes; not at all if it does not say. -/
def syncKind (c : ServerCapabilities) : TextDocumentSyncKind :=
  (c.textDocumentSync.map TextDocumentSyncCapability.changeKind).getD .none

end ServerCapabilities

end LanguageClient
