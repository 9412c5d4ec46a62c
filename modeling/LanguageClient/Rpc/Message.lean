import LanguageClient.Rpc.Id
import LanguageClient.Rpc.ResponseError

/-!
# LanguageClient.Rpc.Message -- requests, notifications, responses

The three kinds of message and their members in the order in which they are written. Absent params
and params that are null differ, and so do an absent result and a result that is null.
-/

namespace LanguageClient

/-- The version of the message format that is spoken. -/
def protocolVersion : String := "2.0"

/-- A call that expects a response. -/
structure Request where
  version : String := protocolVersion
  id : Id
  method : String
  params : Option Json := none
  deriving DecidableEq

/-- A call that expects none. -/
structure Notification where
  version : String := protocolVersion
  method : String
  params : Option Json := none
  deriving DecidableEq

/-- The answer to a request. The id is absent where the request could not be read. -/
structure Response where
  version : String := protocolVersion
  id : Option Id
  result : Option Json := none
  error : Option ResponseError := none
  deriving DecidableEq

/-- A message of either side. -/
inductive Message where
  | request (r : Request)
  | notification (n : Notification)
  | response (r : Response)
  deriving DecidableEq

namespace Request

open Json Fields in
def fields : Fields Request Request :=
  Request.mk <$> field "jsonrpc" Codec.string (·.version) <*> field "id" Id.codec (·.id)
    <*> field "method" Codec.string (·.method) <*> optional "params" Codec.raw (·.params)

def codec : Json.Codec Request := .record "RequestMessage" fields

end Request

namespace Notification

open Json Fields in
def fields : Fields Notification Notification :=
  Notification.mk <$> field "jsonrpc" Codec.string (·.version)
    <*> field "method" Codec.string (·.method) <*> optional "params" Codec.raw (·.params)

def codec : Json.Codec Notification := .record "NotificationMessage" fields

end Notification

namespace Response

/-- The answer with a result. -/
def success (id : Id) (result : Json) : Response := { id := some id, result := some result }

/-- The answer with an error. -/
def failure (id : Option Id) (error : ResponseError) : Response := { id, error := some error }

/-- What the response says: its error if it has one, else its result, else null. -/
def outcome (r : Response) : Except ResponseError Json :=
  match r.error with
  | some e => .error e
  | none => .ok (r.result.getD .null)

end Response

namespace Message

/-- A JSON object whose members stay in the order given; only for writing. -/
def ordered (members : List (String × Json)) : Json := .object members

/-- A member that is written only if it has a value. -/
def given (name : String) : Option Json → List (String × Json)
  | none => []
  | some j => [(name, j)]

/-- The members of an error object. -/
def errorMembers (e : ResponseError) : List (String × Json) := ResponseError.fields.toMembers e

/-- The members of a message in the order in which they are written. -/
def members : Message → List (String × Json)
  | request r => Request.fields.toMembers r
  | notification n => Notification.fields.toMembers n
  | response r =>
    [("jsonrpc", .str r.version), ("id", (r.id.map Id.toJson).getD .null)]
      ++ given "result" r.result
      ++ given "error" (r.error.map (fun e => ordered (errorMembers e)))

/-- The text of a message. -/
def render (m : Message) : String := (ordered m.members).render

end Message

end LanguageClient
