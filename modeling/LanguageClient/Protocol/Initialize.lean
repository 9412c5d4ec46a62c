import LanguageClient.Fault
import LanguageClient.Protocol.ClientCapabilities
import LanguageClient.Protocol.ServerCapabilities

/-!
# LanguageClient.Protocol.Initialize -- the handshake

What the two sides tell each other when a session begins.
-/

namespace LanguageClient

/-- Who the client is. -/
structure ClientInfo where
  name : String
  version : Option String := none
  deriving DecidableEq

namespace ClientInfo

open Json Fields in
def fields : Fields ClientInfo ClientInfo :=
  ClientInfo.mk <$> field "name" Codec.string (·.name)
    <*> optional "version" Codec.string (·.version)

def codec : Json.Codec ClientInfo := .record "ClientInfo" fields

end ClientInfo

/-- A folder of the workspace. -/
structure WorkspaceFolder where
  uri : DocumentUri
  name : String
  deriving DecidableEq

namespace WorkspaceFolder

open Json Fields in
def fields : Fields WorkspaceFolder WorkspaceFolder :=
  WorkspaceFolder.mk <$> field "uri" Codec.string (·.uri) <*> field "name" Codec.string (·.name)

def codec : Json.Codec WorkspaceFolder := .record "WorkspaceFolder" fields

end WorkspaceFolder

/-- What the client tells of itself. -/
structure InitializeParams where
  processId : Option UInt32 := none
  clientInfo : Option ClientInfo := none
  locale : Option String := none
  rootPath : Option String := none
  rootUri : Option DocumentUri := none
  initializationOptions : Option Json := none
  capabilities : ClientCapabilities
  trace : Option TraceValue := none
  workspaceFolders : Option (List WorkspaceFolder) := none
  deriving DecidableEq

namespace InitializeParams

open Json Fields in
def fields : Fields InitializeParams InitializeParams :=
  InitializeParams.mk <$> nullable "processId" Codec.uint32 (·.processId)
    <*> optional "clientInfo" ClientInfo.codec (·.clientInfo)
    <*> optional "locale" Codec.string (·.locale) <*> optional "rootPath" Codec.string (·.rootPath)
    <*> nullable "rootUri" Codec.string (·.rootUri)
    <*> optional "initializationOptions" Codec.raw (·.initializationOptions)
    <*> field "capabilities" ClientCapabilities.codec (·.capabilities)
    <*> optional "trace" TraceValue.codec (·.trace)
    <*> optional "workspaceFolders" (Codec.list WorkspaceFolder.codec) (·.workspaceFolders)

def codec : Json.Codec InitializeParams := .record "InitializeParams" fields

end InitializeParams

/-- The handshake is done. -/
structure InitializedParams where
  deriving DecidableEq

namespace InitializedParams

open Json Fields in
def fields : Fields InitializedParams InitializedParams := pure {}

def codec : Json.Codec InitializedParams := .record "InitializedParams" fields

end InitializedParams

/-- Who the server is. -/
structure ServerInfo where
  name : String
  version : Option String := none
  deriving DecidableEq

namespace ServerInfo

open Json Fields in
def fields : Fields ServerInfo ServerInfo :=
  ServerInfo.mk <$> field "name" Codec.string (·.name)
    <*> optional "version" Codec.string (·.version)

def codec : Json.Codec ServerInfo := .record "ServerInfo" fields

end ServerInfo

/-- What the server tells of itself. -/
structure InitializeResult where
  capabilities : ServerCapabilities
  serverInfo : Option ServerInfo := none
  deriving DecidableEq

namespace InitializeResult

open Json Fields in
def fields : Fields InitializeResult InitializeResult :=
  InitializeResult.mk <$> field "capabilities" ServerCapabilities.codec (·.capabilities)
    <*> optional "serverInfo" ServerInfo.codec (·.serverInfo)

def codec : Json.Codec InitializeResult := .record "InitializeResult" fields

end InitializeResult

end LanguageClient
