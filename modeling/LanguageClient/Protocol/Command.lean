import LanguageClient.Json.Fields

/-!
# LanguageClient.Protocol.Command -- commands

A command that the other side can carry out.
-/

namespace LanguageClient

/-- A command with its title and arguments. -/
structure Command where
  title : String
  command : String
  arguments : Option (List Json) := none
  deriving DecidableEq

namespace Command

open Json Fields in
def fields : Fields Command Command :=
  Command.mk <$> field "title" Codec.string (·.title) <*> field "command" Codec.string (·.command)
    <*> optional "arguments" (Codec.list Codec.raw) (·.arguments)

def codec : Json.Codec Command := .record "Command" fields

end Command

end LanguageClient
