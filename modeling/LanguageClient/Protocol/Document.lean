import LanguageClient.Protocol.Position

/-!
# LanguageClient.Protocol.Document -- documents and what is told about them

The ways in which a document is named, and the params of the notifications that keep the other side up
to date about it.
-/

namespace LanguageClient

/-- A document by its URI. -/
structure TextDocumentIdentifier where
  uri : DocumentUri
  deriving DecidableEq

namespace TextDocumentIdentifier

open Json Fields in
def fields : Fields TextDocumentIdentifier TextDocumentIdentifier :=
  TextDocumentIdentifier.mk <$> field "uri" Codec.string (·.uri)

def codec : Json.Codec TextDocumentIdentifier := .record "TextDocumentIdentifier" fields

end TextDocumentIdentifier

/-- A document in one of its versions. -/
structure VersionedTextDocumentIdentifier where
  uri : DocumentUri
  version : Int32
  deriving DecidableEq

namespace VersionedTextDocumentIdentifier

open Json Fields in
def fields : Fields VersionedTextDocumentIdentifier VersionedTextDocumentIdentifier :=
  VersionedTextDocumentIdentifier.mk <$> field "uri" Codec.string (·.uri)
    <*> field "version" Codec.int32 (·.version)

def codec : Json.Codec VersionedTextDocumentIdentifier := .record "VersionedTextDocumentIdentifier" fields

end VersionedTextDocumentIdentifier

/-- A document in one of its versions, or as it is on disk. -/
structure OptionalVersionedTextDocumentIdentifier where
  uri : DocumentUri
  version : Option Int32 := none
  deriving DecidableEq

namespace OptionalVersionedTextDocumentIdentifier

open Json Fields in
def fields : Fields OptionalVersionedTextDocumentIdentifier OptionalVersionedTextDocumentIdentifier :=
  OptionalVersionedTextDocumentIdentifier.mk <$> field "uri" Codec.string (·.uri)
    <*> nullable "version" Codec.int32 (·.version)

def codec : Json.Codec OptionalVersionedTextDocumentIdentifier :=
  .record "OptionalVersionedTextDocumentIdentifier" fields

end OptionalVersionedTextDocumentIdentifier

/-- A document with its text. -/
structure TextDocumentItem where
  uri : DocumentUri
  languageId : String
  version : Int32
  text : String
  deriving DecidableEq

namespace TextDocumentItem

open Json Fields in
def fields : Fields TextDocumentItem TextDocumentItem :=
  TextDocumentItem.mk <$> field "uri" Codec.string (·.uri)
    <*> field "languageId" Codec.string (·.languageId) <*> field "version" Codec.int32 (·.version)
    <*> field "text" Codec.string (·.text)

def codec : Json.Codec TextDocumentItem := .record "TextDocumentItem" fields

end TextDocumentItem

/-- A document was opened. -/
structure DidOpenTextDocumentParams where
  textDocument : TextDocumentItem
  deriving DecidableEq

namespace DidOpenTextDocumentParams

open Json Fields in
def fields : Fields DidOpenTextDocumentParams DidOpenTextDocumentParams :=
  DidOpenTextDocumentParams.mk <$> field "textDocument" TextDocumentItem.codec (·.textDocument)

def codec : Json.Codec DidOpenTextDocumentParams := .record "DidOpenTextDocumentParams" fields

end DidOpenTextDocumentParams

/-- A change of a text: of a range, or of the whole if there is none. -/
structure TextDocumentContentChangeEvent where
  range : Option Range := none
  rangeLength : Option UInt32 := none
  text : String
  deriving DecidableEq

namespace TextDocumentContentChangeEvent

open Json Fields in
def fields : Fields TextDocumentContentChangeEvent TextDocumentContentChangeEvent :=
  TextDocumentContentChangeEvent.mk <$> optional "range" Range.codec (·.range)
    <*> optional "rangeLength" Codec.uint32 (·.rangeLength) <*> field "text" Codec.string (·.text)

def codec : Json.Codec TextDocumentContentChangeEvent := .record "TextDocumentContentChangeEvent" fields

end TextDocumentContentChangeEvent

namespace TextDocumentContentChangeEvent

/-- Puts a text in place of the whole. -/
def full (text : String) : TextDocumentContentChangeEvent := { text }

/-- Puts a text in place of a range. -/
def incremental (range : Range) (text : String) : TextDocumentContentChangeEvent :=
  { range := some range, text }

end TextDocumentContentChangeEvent

/-- A document was changed. -/
structure DidChangeTextDocumentParams where
  /-- The version after the changes. -/
  textDocument : VersionedTextDocumentIdentifier
  contentChanges : List TextDocumentContentChangeEvent
  deriving DecidableEq

namespace DidChangeTextDocumentParams

open Json Fields in
def fields : Fields DidChangeTextDocumentParams DidChangeTextDocumentParams :=
  DidChangeTextDocumentParams.mk
    <$> field "textDocument" VersionedTextDocumentIdentifier.codec (·.textDocument)
    <*> field "contentChanges" (Codec.list TextDocumentContentChangeEvent.codec) (·.contentChanges)

def codec : Json.Codec DidChangeTextDocumentParams := .record "DidChangeTextDocumentParams" fields

end DidChangeTextDocumentParams

/-- A document was saved. -/
structure DidSaveTextDocumentParams where
  textDocument : TextDocumentIdentifier
  text : Option String := none
  deriving DecidableEq

namespace DidSaveTextDocumentParams

open Json Fields in
def fields : Fields DidSaveTextDocumentParams DidSaveTextDocumentParams :=
  DidSaveTextDocumentParams.mk
    <$> field "textDocument" TextDocumentIdentifier.codec (·.textDocument)
    <*> optional "text" Codec.string (·.text)

def codec : Json.Codec DidSaveTextDocumentParams := .record "DidSaveTextDocumentParams" fields

end DidSaveTextDocumentParams

/-- A document was closed. -/
structure DidCloseTextDocumentParams where
  textDocument : TextDocumentIdentifier
  deriving DecidableEq

namespace DidCloseTextDocumentParams

open Json Fields in
def fields : Fields DidCloseTextDocumentParams DidCloseTextDocumentParams :=
  DidCloseTextDocumentParams.mk
    <$> field "textDocument" TextDocumentIdentifier.codec (·.textDocument)

def codec : Json.Codec DidCloseTextDocumentParams := .record "DidCloseTextDocumentParams" fields

end DidCloseTextDocumentParams

end LanguageClient
