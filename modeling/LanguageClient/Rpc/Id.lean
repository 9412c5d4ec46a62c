import LanguageClient.Json.Choice

/-!
# LanguageClient.Rpc.Id -- request ids

A request is known by an integer of 64 bits or by a name. The two kinds never stand for one another:
the name `1` is not the number 1. Progress tokens have the same form.
-/

namespace LanguageClient

/-- The id of a request. -/
inductive Id where
  | number (n : Int64)
  | name (s : String)
  deriving DecidableEq

/-- A token that tells the progress reports of one piece of work. -/
abbrev ProgressToken := Id

namespace Id

/-- An id as it stands in a message for people. -/
def text : Id → String
  | number n => s!"{n.toInt}"
  | name s => s

def toJson : Id → Json
  | number n => .int n.toInt
  | name s => .str s

open Json.Codec in
def codec : Json.Codec Id :=
  choice "Id" [asForm int64 number, asForm string name] toJson

end Id

end LanguageClient
