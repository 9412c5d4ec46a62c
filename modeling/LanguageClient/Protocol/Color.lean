import LanguageClient.Protocol.Progress
import LanguageClient.Protocol.Edit

/-!
# LanguageClient.Protocol.Color -- colors in a document

Where a document names colors, and how a color may be written.
-/

namespace LanguageClient

/-- A color. Its parts are numbers of single precision from 0 to 1; one that is beyond every such number is
kept as nothing. -/
structure Color where
  red : Option Number.Binary64
  green : Option Number.Binary64
  blue : Option Number.Binary64
  alpha : Option Number.Binary64
  deriving DecidableEq

namespace Color

open Json Fields in
def fields : Fields Color Color :=
  Color.mk <$> field "red" Codec.single (·.red) <*> field "green" Codec.single (·.green)
    <*> field "blue" Codec.single (·.blue) <*> field "alpha" Codec.single (·.alpha)

def codec : Json.Codec Color := .record "Color" fields

end Color

/-- A color and where it stands. -/
structure ColorInformation where
  range : Range
  color : Color
  deriving DecidableEq

namespace ColorInformation

open Json Fields in
def fields : Fields ColorInformation ColorInformation :=
  ColorInformation.mk <$> field "range" Range.codec (·.range)
    <*> field "color" Color.codec (·.color)

def codec : Json.Codec ColorInformation := .record "ColorInformation" fields

end ColorInformation

/-- Asks for the colors of a document. -/
structure DocumentColorParams where
  textDocument : TextDocumentIdentifier
  workDone : WorkDoneProgressParams := {}
  partialResult : PartialResultParams := {}
  deriving DecidableEq

namespace DocumentColorParams

open Json Fields in
def fields : Fields DocumentColorParams DocumentColorParams :=
  DocumentColorParams.mk <$> field "textDocument" TextDocumentIdentifier.codec (·.textDocument)
    <*> flattened WorkDoneProgressParams.fields (·.workDone)
    <*> flattened PartialResultParams.fields (·.partialResult)

def codec : Json.Codec DocumentColorParams := .openRecord "DocumentColorParams" fields

end DocumentColorParams

/-- Asks how a color may be written. -/
structure ColorPresentationParams where
  textDocument : TextDocumentIdentifier
  color : Color
  range : Range
  workDone : WorkDoneProgressParams := {}
  partialResult : PartialResultParams := {}
  deriving DecidableEq

namespace ColorPresentationParams

open Json Fields in
def fields : Fields ColorPresentationParams ColorPresentationParams :=
  ColorPresentationParams.mk <$> field "textDocument" TextDocumentIdentifier.codec (·.textDocument)
    <*> field "color" Color.codec (·.color) <*> field "range" Range.codec (·.range)
    <*> flattened WorkDoneProgressParams.fields (·.workDone)
    <*> flattened PartialResultParams.fields (·.partialResult)

def codec : Json.Codec ColorPresentationParams := .openRecord "ColorPresentationParams" fields

end ColorPresentationParams

/-- A way to write a color. -/
structure ColorPresentation where
  label : String
  textEdit : Option TextEdit := none
  additionalTextEdits : Option (List TextEdit) := none
  deriving DecidableEq

namespace ColorPresentation

open Json Fields in
def fields : Fields ColorPresentation ColorPresentation :=
  ColorPresentation.mk <$> field "label" Codec.string (·.label)
    <*> optional "textEdit" TextEdit.codec (·.textEdit)
    <*> optional "additionalTextEdits" (Codec.list TextEdit.codec) (·.additionalTextEdits)

def codec : Json.Codec ColorPresentation := .record "ColorPresentation" fields

end ColorPresentation

end LanguageClient
