import LanguageClient.Protocol.Edit
import LanguageClient.Protocol.Diagnostic
import LanguageClient.Protocol.Markup
import LanguageClient.Protocol.Progress
import LanguageClient.Protocol.Command

/-!
# LanguageClient.Protocol.Completion -- completion and signature help

What is proposed while a text is being written.
-/

namespace LanguageClient

/-- How a completion was asked for. -/
structure CompletionContext where
  triggerKind : UInt8
  triggerCharacter : Option String := none
  deriving DecidableEq

namespace CompletionContext

open Json Fields in
def fields : Fields CompletionContext CompletionContext :=
  CompletionContext.mk <$> field "triggerKind" Codec.uint8 (·.triggerKind)
    <*> optional "triggerCharacter" Codec.string (·.triggerCharacter)

def codec : Json.Codec CompletionContext := .record "CompletionContext" fields

end CompletionContext

/-- Asks for completions at a place. -/
structure CompletionParams where
  place : TextDocumentPositionParams
  workDone : WorkDoneProgressParams := {}
  partialResult : PartialResultParams := {}
  context : Option CompletionContext := none
  deriving DecidableEq

namespace CompletionParams

open Json Fields in
def fields : Fields CompletionParams CompletionParams :=
  CompletionParams.mk <$> flattened TextDocumentPositionParams.fields (·.place)
    <*> flattened WorkDoneProgressParams.fields (·.workDone)
    <*> flattened PartialResultParams.fields (·.partialResult)
    <*> optional "context" CompletionContext.codec (·.context)

def codec : Json.Codec CompletionParams := .openRecord "CompletionParams" fields

end CompletionParams

/-- A proposal. Its kind and format are numbers, so that newer ones are kept. -/
structure CompletionItem where
  label : String
  kind : Option UInt8 := none
  detail : Option String := none
  documentation : Option Documentation := none
  outdated : Option Bool := none
  sortText : Option String := none
  filterText : Option String := none
  insertText : Option String := none
  insertTextFormat : Option UInt8 := none
  /-- One of two forms of edit, as it is. -/
  textEdit : Option Json := none
  additionalTextEdits : Option (List TextEdit) := none
  commitCharacters : Option (List String) := none
  command : Option Command := none
  data : Option Json := none
  deriving DecidableEq

namespace CompletionItem

open Json Fields in
def fields : Fields CompletionItem CompletionItem :=
  CompletionItem.mk <$> field "label" Codec.string (·.label)
    <*> optional "kind" Codec.uint8 (·.kind) <*> optional "detail" Codec.string (·.detail)
    <*> optional "documentation" Documentation.codec (·.documentation)
    <*> optional "deprecated" Codec.bool (·.outdated)
    <*> optional "sortText" Codec.string (·.sortText)
    <*> optional "filterText" Codec.string (·.filterText)
    <*> optional "insertText" Codec.string (·.insertText)
    <*> optional "insertTextFormat" Codec.uint8 (·.insertTextFormat)
    <*> optional "textEdit" Codec.raw (·.textEdit)
    <*> optional "additionalTextEdits" (Codec.list TextEdit.codec) (·.additionalTextEdits)
    <*> optional "commitCharacters" (Codec.list Codec.string) (·.commitCharacters)
    <*> optional "command" Command.codec (·.command) <*> optional "data" Codec.raw (·.data)

def codec : Json.Codec CompletionItem := .record "CompletionItem" fields

end CompletionItem

/-- Proposals that may have to be asked for again. -/
structure CompletionList where
  isIncomplete : Bool
  items : List CompletionItem
  deriving DecidableEq

namespace CompletionList

open Json Fields in
def fields : Fields CompletionList CompletionList :=
  CompletionList.mk <$> field "isIncomplete" Codec.bool (·.isIncomplete)
    <*> field "items" (Codec.list CompletionItem.codec) (·.items)

def codec : Json.Codec CompletionList := .record "CompletionList" fields

end CompletionList

/-- The answer to a request for completions. -/
inductive CompletionResponse where
  | array (items : List CompletionItem)
  | list (list : CompletionList)
  deriving DecidableEq

namespace CompletionResponse

/-- The proposals, in either form. -/
def items : CompletionResponse → List CompletionItem
  | array items => items
  | list l => l.items

def toJson : CompletionResponse → Json
  | array items => (Json.Codec.list CompletionItem.codec).write items
  | list l => CompletionList.codec.write l

def codec : Json.Codec CompletionResponse :=
  .choice "CompletionResponse"
    [Json.Codec.asForm (Json.Codec.list CompletionItem.codec) array,
      Json.Codec.asForm CompletionList.codec list]
    toJson

end CompletionResponse

/-- Asks for the signatures at a place. -/
structure SignatureHelpParams where
  place : TextDocumentPositionParams
  workDone : WorkDoneProgressParams := {}
  context : Option Json := none
  deriving DecidableEq

namespace SignatureHelpParams

open Json Fields in
def fields : Fields SignatureHelpParams SignatureHelpParams :=
  SignatureHelpParams.mk <$> flattened TextDocumentPositionParams.fields (·.place)
    <*> flattened WorkDoneProgressParams.fields (·.workDone)
    <*> optional "context" Codec.raw (·.context)

def codec : Json.Codec SignatureHelpParams := .openRecord "SignatureHelpParams" fields

end SignatureHelpParams

/-- The label of a parameter: a text, or the part of the signature from one offset up to another. -/
inductive ParameterLabel where
  | text (label : String)
  | offsets (first last : UInt32)
  deriving DecidableEq

namespace ParameterLabel

/-- Two offsets in a list. -/
def readOffsets (j : Json) : Option ParameterLabel :=
  match j with
  | .list [a, b] =>
    match Json.Codec.uint32.read .kept a, Json.Codec.uint32.read .kept b with
    | .ok a, .ok b => some (offsets a b)
    | _, _ => none
  | _ => none

def toJson : ParameterLabel → Json
  | text label => .str label
  | offsets a b => .list [Json.Codec.uint32.write a, Json.Codec.uint32.write b]

open Json.Codec in
def codec : Json.Codec ParameterLabel :=
  choice "ParameterLabel" [asForm string text, readOffsets] toJson

end ParameterLabel

/-- A parameter of a signature. -/
structure ParameterInformation where
  label : ParameterLabel
  documentation : Option Documentation := none
  deriving DecidableEq

namespace ParameterInformation

open Json Fields in
def fields : Fields ParameterInformation ParameterInformation :=
  ParameterInformation.mk <$> field "label" ParameterLabel.codec (·.label)
    <*> optional "documentation" Documentation.codec (·.documentation)

def codec : Json.Codec ParameterInformation := .record "ParameterInformation" fields

end ParameterInformation

/-- A signature. -/
structure SignatureInformation where
  label : String
  documentation : Option Documentation := none
  parameters : Option (List ParameterInformation) := none
  activeParameter : Option UInt32 := none
  deriving DecidableEq

namespace SignatureInformation

open Json Fields in
def fields : Fields SignatureInformation SignatureInformation :=
  SignatureInformation.mk <$> field "label" Codec.string (·.label)
    <*> optional "documentation" Documentation.codec (·.documentation)
    <*> optional "parameters" (Codec.list ParameterInformation.codec) (·.parameters)
    <*> optional "activeParameter" Codec.uint32 (·.activeParameter)

def codec : Json.Codec SignatureInformation := .record "SignatureInformation" fields

end SignatureInformation

/-- Signatures, and which of them is meant. -/
structure SignatureHelp where
  signatures : List SignatureInformation
  activeSignature : Option UInt32 := none
  activeParameter : Option UInt32 := none
  deriving DecidableEq

namespace SignatureHelp

open Json Fields in
def fields : Fields SignatureHelp SignatureHelp :=
  SignatureHelp.mk <$> field "signatures" (Codec.list SignatureInformation.codec) (·.signatures)
    <*> optional "activeSignature" Codec.uint32 (·.activeSignature)
    <*> optional "activeParameter" Codec.uint32 (·.activeParameter)

def codec : Json.Codec SignatureHelp := .record "SignatureHelp" fields

end SignatureHelp

end LanguageClient
