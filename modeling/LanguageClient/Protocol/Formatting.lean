import LanguageClient.Protocol.Progress

/-!
# LanguageClient.Protocol.Formatting -- the layout of a document

How a document is to be laid out. Options that are not declared are passed on under their names.
-/

namespace LanguageClient

/-- How a text is to be laid out. -/
structure FormattingOptions where
  tabSize : UInt32
  insertSpaces : Bool
  trimTrailingWhitespace : Option Bool := none
  insertFinalNewline : Option Bool := none
  trimFinalNewlines : Option Bool := none
  /-- Further options. -/
  properties : Dict Json := ∅
  deriving DecidableEq

namespace FormattingOptions

/-- The names of the declared members. -/
def declared : List String :=
  ["tabSize",
    "insertSpaces", "trimTrailingWhitespace", "insertFinalNewline", "trimFinalNewlines"]

open Json Fields in
def fields : Fields FormattingOptions FormattingOptions :=
  FormattingOptions.mk <$> field "tabSize" Codec.uint32 (·.tabSize)
    <*> field "insertSpaces" Codec.bool (·.insertSpaces)
    <*> optional "trimTrailingWhitespace" Codec.bool (·.trimTrailingWhitespace)
    <*> optional "insertFinalNewline" Codec.bool (·.insertFinalNewline)
    <*> optional "trimFinalNewlines" Codec.bool (·.trimFinalNewlines)
    <*> rest declared (·.properties)

def codec : Json.Codec FormattingOptions := .openRecord "FormattingOptions" fields

end FormattingOptions

namespace FormattingOptions

/-- Four columns to a tab, and spaces in place of tabs. -/
def standard : FormattingOptions := { tabSize := 4, insertSpaces := true }

end FormattingOptions

/-- Asks for a document to be laid out. -/
structure DocumentFormattingParams where
  textDocument : TextDocumentIdentifier
  options : FormattingOptions
  workDone : WorkDoneProgressParams := {}
  deriving DecidableEq

namespace DocumentFormattingParams

open Json Fields in
def fields : Fields DocumentFormattingParams DocumentFormattingParams :=
  DocumentFormattingParams.mk <$> field "textDocument" TextDocumentIdentifier.codec (·.textDocument)
    <*> field "options" FormattingOptions.codec (·.options)
    <*> flattened WorkDoneProgressParams.fields (·.workDone)

def codec : Json.Codec DocumentFormattingParams := .openRecord "DocumentFormattingParams" fields

end DocumentFormattingParams

end LanguageClient
