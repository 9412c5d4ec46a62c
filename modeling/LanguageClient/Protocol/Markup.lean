import LanguageClient.Protocol.Position
import LanguageClient.Json.Choice

/-!
# LanguageClient.Protocol.Markup -- texts with markup

Plain and marked-up texts, and the contents of a hover.
-/

namespace LanguageClient

/-- How a text is to be shown. -/
inductive MarkupKind where
  | plainText
  | markdown
  deriving DecidableEq

namespace MarkupKind

/-- All values, in the order in which messages list them. -/
def all : List MarkupKind := [.plainText, .markdown]

/-- The name on the wire. -/
def name : MarkupKind → String
  | plainText => "plaintext"
  | markdown => "markdown"

def codec : Json.Codec MarkupKind := .names all name

end MarkupKind

/-- A text and how it is to be shown. -/
structure MarkupContent where
  kind : MarkupKind
  value : String
  deriving DecidableEq

namespace MarkupContent

open Json Fields in
def fields : Fields MarkupContent MarkupContent :=
  MarkupContent.mk <$> field "kind" MarkupKind.codec (·.kind)
    <*> field "value" Codec.string (·.value)

def codec : Json.Codec MarkupContent := .record "MarkupContent" fields

end MarkupContent

/-- What is told about a thing: a plain text, or one with markup. -/
inductive Documentation where
  | text (value : String)
  | markup (content : MarkupContent)
  deriving DecidableEq

namespace Documentation

/-- The text, however it is to be shown. -/
def value : Documentation → String
  | text value => value
  | markup content => content.value

def toJson : Documentation → Json
  | text value => .str value
  | markup content => MarkupContent.codec.write content

open Json.Codec in
def codec : Json.Codec Documentation :=
  choice "Documentation" [asForm string text, asForm MarkupContent.codec markup] toJson

end Documentation

/-- A piece of code and its language. -/
structure LanguageString where
  language : String
  value : String
  deriving DecidableEq

namespace LanguageString

open Json Fields in
def fields : Fields LanguageString LanguageString :=
  LanguageString.mk <$> field "language" Codec.string (·.language)
    <*> field "value" Codec.string (·.value)

def codec : Json.Codec LanguageString := .openRecord "LanguageString" fields

end LanguageString

/-- A text with markup, or a piece of code. -/
inductive MarkedString where
  | text (value : String)
  | code (value : LanguageString)
  deriving DecidableEq

namespace MarkedString

def toJson : MarkedString → Json
  | text value => .str value
  | code value => LanguageString.codec.write value

open Json.Codec in
def codec : Json.Codec MarkedString :=
  choice "MarkedString" [asForm string text, asForm LanguageString.codec code] toJson

end MarkedString

/-- What a hover shows. -/
inductive HoverContents where
  | markup (content : MarkupContent)
  | scalar (content : MarkedString)
  | array (contents : List MarkedString)
  deriving DecidableEq

namespace HoverContents

def toJson : HoverContents → Json
  | markup content => MarkupContent.codec.write content
  | scalar content => MarkedString.codec.write content
  | array contents => (Json.Codec.list MarkedString.codec).write contents

open Json.Codec in
def codec : Json.Codec HoverContents :=
  choice "HoverContents"
    [asForm MarkupContent.codec markup, asForm MarkedString.codec scalar,
      asForm (list MarkedString.codec) array]
    toJson

end HoverContents

/-- What is shown at a place. -/
structure Hover where
  contents : HoverContents
  range : Option Range := none
  deriving DecidableEq

namespace Hover

open Json Fields in
def fields : Fields Hover Hover :=
  Hover.mk <$> field "contents" HoverContents.codec (·.contents)
    <*> optional "range" Range.codec (·.range)

def codec : Json.Codec Hover := .record "Hover" fields

end Hover

end LanguageClient
