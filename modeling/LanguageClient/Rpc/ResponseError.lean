import LanguageClient.Json.Fields

/-!
# LanguageClient.Rpc.ResponseError -- the error object of a response

A code, a message and optional data, with the codes that the protocol reserves.
-/

namespace LanguageClient

/-- The error object of a response. -/
structure ResponseError where
  code : Int32
  message : String
  data : Option Json := none
  deriving DecidableEq

namespace ErrorCode

def parseError : Int32 := -32700
def invalidRequest : Int32 := -32600
def methodNotFound : Int32 := -32601
def invalidParams : Int32 := -32602
def internalError : Int32 := -32603
def rpcReservedStart : Int32 := -32099
def serverNotInitialized : Int32 := -32002
def unknownErrorCode : Int32 := -32001
def rpcReservedEnd : Int32 := -32000
def protocolReservedStart : Int32 := -32899
def requestFailed : Int32 := -32803
def serverCancelled : Int32 := -32802
def contentModified : Int32 := -32801
def requestCancelled : Int32 := -32800
def protocolReservedEnd : Int32 := -32800

/-- The codes under the names that the protocol gives them. -/
def table : List (String × Int32) :=
  [("PARSE_ERROR", parseError), ("INVALID_REQUEST", invalidRequest),
    ("METHOD_NOT_FOUND", methodNotFound), ("INVALID_PARAMS", invalidParams),
    ("INTERNAL_ERROR", internalError), ("JSONRPC_RESERVED_ERROR_RANGE_START", rpcReservedStart),
    ("SERVER_NOT_INITIALIZED", serverNotInitialized), ("UNKNOWN_ERROR_CODE", unknownErrorCode),
    ("JSONRPC_RESERVED_ERROR_RANGE_END", rpcReservedEnd),
    ("LSP_RESERVED_ERROR_RANGE_START", protocolReservedStart), ("REQUEST_FAILED", requestFailed),
    ("SERVER_CANCELLED", serverCancelled), ("CONTENT_MODIFIED", contentModified),
    ("REQUEST_CANCELLED", requestCancelled), ("LSP_RESERVED_ERROR_RANGE_END", protocolReservedEnd)]

end ErrorCode

namespace ResponseError

def parseError (message : String) : ResponseError := { code := ErrorCode.parseError, message }

def invalidRequest (message : String) : ResponseError := { code := ErrorCode.invalidRequest, message }

def methodNotFound (message : String) : ResponseError := { code := ErrorCode.methodNotFound, message }

def invalidParams (message : String) : ResponseError := { code := ErrorCode.invalidParams, message }

def internalError (message : String) : ResponseError := { code := ErrorCode.internalError, message }

def requestCancelled (message : String) : ResponseError :=
  { code := ErrorCode.requestCancelled, message }

def contentModified (message : String) : ResponseError :=
  { code := ErrorCode.contentModified, message }

/-- The error as it stands in a message for people. -/
def text (e : ResponseError) : String := s!"Error {e.code.toInt}: {e.message}"

open Json Fields in
def fields : Fields ResponseError ResponseError :=
  ResponseError.mk <$> field "code" Codec.int32 (·.code) <*> field "message" Codec.string (·.message)
    <*> optional "data" Codec.raw (·.data)

def codec : Json.Codec ResponseError := .record "ResponseError" fields

end ResponseError

end LanguageClient
