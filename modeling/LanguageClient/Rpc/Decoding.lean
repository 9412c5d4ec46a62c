import LanguageClient.Fault
import LanguageClient.Json.Reader
import LanguageClient.Rpc.Message

/-!
# LanguageClient.Rpc.Decoding -- bytes to messages and back

The kind of a message is told by the members it has: an `id` and a `method` make a request, a `method`
alone a notification, an `id` alone a response. Members of no concern to a kind are not looked at. A
response must carry exactly one of a result and an error; one that does not is refused with its id, so
that the call it belongs to can be failed.
-/

namespace LanguageClient.Message

/-- The bytes of a message. -/
def encode (m : Message) : List UInt8 := Text.bytes m.render

/-- The id that a member holds; null stands for none. -/
def readId : Json → Except Fault (Option Id)
  | .null => .ok none
  | .str s => .ok (some (.name s))
  | .int n =>
    if -2 ^ 63 ≤ n ∧ n < 2 ^ 63 then .ok (some (.number (Int64.ofInt n)))
    else .error (.decode (.invalidId (.int n)))
  | j => .error (.decode (.invalidId j))

/-- The method that a member holds. -/
def readMethod : Json → Except Fault String
  | .str s => .ok s
  | j => .error (.decode (.methodNotString j))

/-- The error that a response carries; null stands for none. -/
def readError : Option Json → Except Fault (Option ResponseError)
  | none => .ok none
  | some .null => .ok none
  | some j =>
    match ResponseError.codec.ofJson j with
    | .ok e => .ok (some e)
    | .error cause => .error (.decode (.malformedError cause))

/-- A response from its id and its other members. -/
def readResponse (id : Option Id) (result error : Option Json) : Except Fault Message :=
  match readError error with
  | .error fault => .error fault
  | .ok error =>
    match result, error with
    | some _, some _ => .error (.protocol id .bothResultAndError)
    | none, none => .error (.protocol id .neitherResultNorError)
    | result, error => .ok (.response { id, result, error })

/-- A request from its id, its method and its params. -/
def readRequest (id method : Json) (params : Option Json) : Except Fault Message :=
  match readId id with
  | .error fault => .error fault
  | .ok none => .error (.decode .nullRequestId)
  | .ok (some id) =>
    match readMethod method with
    | .error fault => .error fault
    | .ok method => .ok (.request { id, method, params })

/-- A message from the members of an object whose version is right. -/
def ofMembers (members : List (String × Json)) : Except Fault Message :=
  match members.lookup "id", members.lookup "method" with
  | some id, some method => readRequest id method (members.lookup "params")
  | none, some method =>
    match readMethod method with
    | .error fault => .error fault
    | .ok method => .ok (.notification { method, params := members.lookup "params" })
  | some id, none =>
    match readId id with
    | .error fault => .error fault
    | .ok id => readResponse id (members.lookup "result") (members.lookup "error")
  | none, none => .error (.decode .neitherIdNorMethod)

/-- A message from a JSON value. -/
def ofJson : Json → Except Fault Message
  | .object members =>
    match members.lookup "jsonrpc" with
    | none => .error (.decode .missingVersion)
    | some version =>
      if version = .str protocolVersion then ofMembers members
      else .error (.decode (.unsupportedVersion version))
  | _ => .error (.decode .notObject)

/-- A message from the bytes of a frame's body. -/
def decode (body : List UInt8) : Except Fault Message :=
  match (Text.ofBytes? body).bind Json.parse? with
  | none => .error (.decode .invalidJson)
  | some j => ofJson j

end LanguageClient.Message
