import LanguageClient.FileUri
import LanguageClient.Handlers.Registry

/-!
# LanguageClient.Options -- what a session is begun with

What the client says of itself in the handshake, how long it waits for the answer, and the handlers for
what the server sends. It can say nothing of itself if its root directory has no URI, because the working
directory from which the path leads on is not known.
-/

namespace LanguageClient

/-- What a session is begun with. -/
structure SessionOptions where
  clientInfo : Option ClientInfo := some { name := "lsp-session", version := some "0.1.0" }
  processId : Option UInt32 := none
  rootPath : Option String := none
  /-- Where a root path leads on from that does not begin at the root, or why that is not known. -/
  workingDirectory : Except IoFault (List UInt8) := .ok (Text.bytes "/")
  workspaceFolders : List WorkspaceFolder := []
  trace : TraceValue := .off
  locale : Option String := none
  capabilities : ClientCapabilities := .standard
  initializationOptions : Option Json := none
  /-- How long the handshake may take, in milliseconds; any time if there is none. -/
  initializeTimeout : Option Nat := none
  handlers : HandlerRegistry := .standard

namespace SessionOptions

/-- The URI of the root directory, if there is one. -/
def rootUri (o : SessionOptions) : Except Fault (Option DocumentUri) :=
  match o.rootPath with
  | none => .ok none
  | some path => (FileUri.ofPath FileUri.directory o.workingDirectory path).map some

/-- The root directory as a folder: named like the last segment of its path, or like its URI if it has none. -/
def rootFolder (path : String) (uri : DocumentUri) : WorkspaceFolder :=
  { uri, name := ((FileUri.lastName? (Text.bytes path)).bind Text.ofBytes?).getD uri }

/-- The folders that are told to the server: those that were given, else the root directory. -/
def folders? (o : SessionOptions) (rootUri : Option DocumentUri) : Option (List WorkspaceFolder) :=
  match o.workspaceFolders, o.rootPath, rootUri with
  | [], some path, some uri => some [rootFolder path uri]
  | [], _, _ => none
  | folders, _, _ => some folders

/-- What the client says of itself, with the URI of its root directory where that can be told. -/
def initializeParams (o : SessionOptions) (rootUri : Option DocumentUri := o.rootUri.toOption.join) :
    InitializeParams where
  processId := o.processId
  clientInfo := o.clientInfo
  locale := o.locale
  rootPath := o.rootPath
  rootUri := rootUri
  initializationOptions := o.initializationOptions
  capabilities := o.capabilities
  trace := some o.trace
  workspaceFolders := o.folders? rootUri

/-- The params of the handshake, or why there are none. -/
def handshakeParams (o : SessionOptions) : Except Fault InitializeParams :=
  o.rootUri.map fun uri => o.initializeParams uri

end SessionOptions

end LanguageClient
