import LanguageClient.Protocol.Progress
import LanguageClient.Protocol.Markup

/-!
# LanguageClient.Protocol.Navigation -- from one place to others

Definitions, declarations, references and hovers of what stands at a place.
-/

namespace LanguageClient

/-- Asks what to show at a place. -/
structure HoverParams where
  place : TextDocumentPositionParams
  workDone : WorkDoneProgressParams := {}
  deriving DecidableEq

namespace HoverParams

open Json Fields in
def fields : Fields HoverParams HoverParams :=
  HoverParams.mk <$> flattened TextDocumentPositionParams.fields (·.place)
    <*> flattened WorkDoneProgressParams.fields (·.workDone)

def codec : Json.Codec HoverParams := .openRecord "HoverParams" fields

end HoverParams

/-- Asks where the thing at a place is defined or declared. -/
structure GotoParams where
  place : TextDocumentPositionParams
  workDone : WorkDoneProgressParams := {}
  partialResult : PartialResultParams := {}
  deriving DecidableEq

namespace GotoParams

open Json Fields in
def fields : Fields GotoParams GotoParams :=
  GotoParams.mk <$> flattened TextDocumentPositionParams.fields (·.place)
    <*> flattened WorkDoneProgressParams.fields (·.workDone)
    <*> flattened PartialResultParams.fields (·.partialResult)

def codec : Json.Codec GotoParams := .openRecord "GotoParams" fields

end GotoParams

/-- The answer to such a question: one place, several, or several links. -/
inductive GotoResponse where
  | scalar (location : Location)
  | array (locations : List Location)
  | link (links : List LocationLink)
  deriving DecidableEq

namespace GotoResponse

/-- The places, in order. -/
def locations : GotoResponse → List Location
  | scalar location => [location]
  | array locations => locations
  | link links => links.map LocationLink.target

def toJson : GotoResponse → Json
  | scalar location => Location.codec.write location
  | array locations => (Json.Codec.list Location.codec).write locations
  | link links => (Json.Codec.list LocationLink.codec).write links

open Json.Codec in
def codec : Json.Codec GotoResponse :=
  choice "GotoResponse"
    [asForm Location.codec scalar, asForm (list Location.codec) array,
      asForm (list LocationLink.codec) link]
    toJson

end GotoResponse

/-- Which references are asked for. -/
structure ReferenceContext where
  includeDeclaration : Bool
  deriving DecidableEq

namespace ReferenceContext

open Json Fields in
def fields : Fields ReferenceContext ReferenceContext :=
  ReferenceContext.mk <$> field "includeDeclaration" Codec.bool (·.includeDeclaration)

def codec : Json.Codec ReferenceContext := .record "ReferenceContext" fields

end ReferenceContext

/-- Asks for the references to the thing at a place. -/
structure ReferenceParams where
  place : TextDocumentPositionParams
  workDone : WorkDoneProgressParams := {}
  partialResult : PartialResultParams := {}
  context : ReferenceContext
  deriving DecidableEq

namespace ReferenceParams

open Json Fields in
def fields : Fields ReferenceParams ReferenceParams :=
  ReferenceParams.mk <$> flattened TextDocumentPositionParams.fields (·.place)
    <*> flattened WorkDoneProgressParams.fields (·.workDone)
    <*> flattened PartialResultParams.fields (·.partialResult)
    <*> field "context" ReferenceContext.codec (·.context)

def codec : Json.Codec ReferenceParams := .openRecord "ReferenceParams" fields

end ReferenceParams

/-- Asks for the thing at a place to be renamed. -/
structure RenameParams where
  place : TextDocumentPositionParams
  newName : String
  workDone : WorkDoneProgressParams := {}
  deriving DecidableEq

namespace RenameParams

open Json Fields in
def fields : Fields RenameParams RenameParams :=
  RenameParams.mk <$> flattened TextDocumentPositionParams.fields (·.place)
    <*> field "newName" Codec.string (·.newName)
    <*> flattened WorkDoneProgressParams.fields (·.workDone)

def codec : Json.Codec RenameParams := .openRecord "RenameParams" fields

end RenameParams

end LanguageClient
