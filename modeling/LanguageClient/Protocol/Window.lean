import LanguageClient.Protocol.ClientCapabilities
import LanguageClient.Rpc.Id

/-!
# LanguageClient.Protocol.Window -- what the other side asks of the user

Messages to show and to log, registrations, and questions about the configuration.
-/

namespace LanguageClient

/-- How grave a message is. -/
inductive MessageType where
  | error
  | warning
  | info
  | log
  | debug
  deriving DecidableEq

namespace MessageType

def all : List MessageType := [.error, .warning, .info, .log, .debug]

/-- The number on the wire. -/
def code : MessageType → UInt8
  | error => 1
  | warning => 2
  | info => 3
  | log => 4
  | debug => 5

def codec : Json.Codec MessageType := .codes "message type" all code

end MessageType

/-- The level at which a message is logged. -/
inductive LogLevel where
  | error
  | warn
  | info
  | debug
  | trace
  deriving DecidableEq

namespace LogLevel

def name : LogLevel → String
  | error => "error"
  | warn => "warn"
  | info => "info"
  | debug => "debug"
  | trace => "trace"

end LogLevel

namespace MessageType

/-- The level at which a message of a type is logged. -/
def logLevel : MessageType → LogLevel
  | error => .error
  | warning => .warn
  | info => .info
  | log => .debug
  | debug => .trace

def text : MessageType → String
  | error => "error"
  | warning => "warning"
  | info => "info"
  | log => "log"
  | debug => "debug"

end MessageType

/-- A message to log. -/
structure LogMessageParams where
  level : MessageType
  message : String
  deriving DecidableEq

namespace LogMessageParams

open Json Fields in
def fields : Fields LogMessageParams LogMessageParams :=
  LogMessageParams.mk <$> field "type" MessageType.codec (·.level)
    <*> field "message" Codec.string (·.message)

def codec : Json.Codec LogMessageParams := .record "LogMessageParams" fields

end LogMessageParams

/-- A message to show. -/
structure ShowMessageParams where
  level : MessageType
  message : String
  deriving DecidableEq

namespace ShowMessageParams

open Json Fields in
def fields : Fields ShowMessageParams ShowMessageParams :=
  ShowMessageParams.mk <$> field "type" MessageType.codec (·.level)
    <*> field "message" Codec.string (·.message)

def codec : Json.Codec ShowMessageParams := .record "ShowMessageParams" fields

end ShowMessageParams

/-- A button of a message. -/
structure MessageActionItem where
  title : String
  deriving DecidableEq

namespace MessageActionItem

open Json Fields in
def fields : Fields MessageActionItem MessageActionItem :=
  MessageActionItem.mk <$> field "title" Codec.string (·.title)

def codec : Json.Codec MessageActionItem := .record "MessageActionItem" fields

end MessageActionItem

/-- A message to show with buttons. -/
structure ShowMessageRequestParams where
  level : MessageType
  message : String
  actions : Option (List MessageActionItem) := none
  deriving DecidableEq

namespace ShowMessageRequestParams

open Json Fields in
def fields : Fields ShowMessageRequestParams ShowMessageRequestParams :=
  ShowMessageRequestParams.mk <$> field "type" MessageType.codec (·.level)
    <*> field "message" Codec.string (·.message)
    <*> optional "actions" (Codec.list MessageActionItem.codec) (·.actions)

def codec : Json.Codec ShowMessageRequestParams := .record "ShowMessageRequestParams" fields

end ShowMessageRequestParams

/-- A line of the trace. -/
structure LogTraceParams where
  message : String
  verbose : Option String := none
  deriving DecidableEq

namespace LogTraceParams

open Json Fields in
def fields : Fields LogTraceParams LogTraceParams :=
  LogTraceParams.mk <$> field "message" Codec.string (·.message)
    <*> optional "verbose" Codec.string (·.verbose)

def codec : Json.Codec LogTraceParams := .record "LogTraceParams" fields

end LogTraceParams

/-- Sets how much is traced. -/
structure SetTraceParams where
  value : TraceValue
  deriving DecidableEq

namespace SetTraceParams

open Json Fields in
def fields : Fields SetTraceParams SetTraceParams :=
  SetTraceParams.mk <$> field "value" TraceValue.codec (·.value)

def codec : Json.Codec SetTraceParams := .record "SetTraceParams" fields

end SetTraceParams

/-- A method that the other side wants to be told about. -/
structure Registration where
  id : String
  method : String
  registerOptions : Option Json := none
  deriving DecidableEq

namespace Registration

open Json Fields in
def fields : Fields Registration Registration :=
  Registration.mk <$> field "id" Codec.string (·.id) <*> field "method" Codec.string (·.method)
    <*> optional "registerOptions" Codec.raw (·.registerOptions)

def codec : Json.Codec Registration := .record "Registration" fields

end Registration

/-- Registrations to make. -/
structure RegistrationParams where
  registrations : List Registration
  deriving DecidableEq

namespace RegistrationParams

open Json Fields in
def fields : Fields RegistrationParams RegistrationParams :=
  RegistrationParams.mk <$> field "registrations" (Codec.list Registration.codec) (·.registrations)

def codec : Json.Codec RegistrationParams := .record "RegistrationParams" fields

end RegistrationParams

/-- A registration to take back. -/
structure Unregistration where
  id : String
  method : String
  deriving DecidableEq

namespace Unregistration

open Json Fields in
def fields : Fields Unregistration Unregistration :=
  Unregistration.mk <$> field "id" Codec.string (·.id) <*> field "method" Codec.string (·.method)

def codec : Json.Codec Unregistration := .record "Unregistration" fields

end Unregistration

/-- Registrations to take back. The member is misspelt in the protocol itself. -/
structure UnregistrationParams where
  unregistrations : List Unregistration
  deriving DecidableEq

namespace UnregistrationParams

open Json Fields in
def fields : Fields UnregistrationParams UnregistrationParams :=
  UnregistrationParams.mk
    <$> field "unregisterations" (Codec.list Unregistration.codec) (·.unregistrations)

def codec : Json.Codec UnregistrationParams := .record "UnregistrationParams" fields

end UnregistrationParams

/-- A part of the configuration. -/
structure ConfigurationItem where
  scopeUri : Option DocumentUri := none
  sectionName : Option String := none
  deriving DecidableEq

namespace ConfigurationItem

open Json Fields in
def fields : Fields ConfigurationItem ConfigurationItem :=
  ConfigurationItem.mk <$> optional "scopeUri" Codec.string (·.scopeUri)
    <*> optional "section" Codec.string (·.sectionName)

def codec : Json.Codec ConfigurationItem := .record "ConfigurationItem" fields

end ConfigurationItem

/-- Asks for parts of the configuration. -/
structure ConfigurationParams where
  items : List ConfigurationItem
  deriving DecidableEq

namespace ConfigurationParams

open Json Fields in
def fields : Fields ConfigurationParams ConfigurationParams :=
  ConfigurationParams.mk <$> field "items" (Codec.list ConfigurationItem.codec) (·.items)

def codec : Json.Codec ConfigurationParams := .record "ConfigurationParams" fields

end ConfigurationParams

end LanguageClient
