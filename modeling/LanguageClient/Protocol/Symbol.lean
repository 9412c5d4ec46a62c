import LanguageClient.Protocol.Progress
import LanguageClient.Protocol.Markup

/-!
# LanguageClient.Protocol.Symbol -- the symbols of a document

Symbols as a tree, in which a symbol holds those declared within it, and as a flat list.
-/

namespace LanguageClient

/-- Asks for the symbols of a document. -/
structure DocumentSymbolParams where
  textDocument : TextDocumentIdentifier
  workDone : WorkDoneProgressParams := {}
  partialResult : PartialResultParams := {}
  deriving DecidableEq

namespace DocumentSymbolParams

open Json Fields in
def fields : Fields DocumentSymbolParams DocumentSymbolParams :=
  DocumentSymbolParams.mk <$> field "textDocument" TextDocumentIdentifier.codec (·.textDocument)
    <*> flattened WorkDoneProgressParams.fields (·.workDone)
    <*> flattened PartialResultParams.fields (·.partialResult)

def codec : Json.Codec DocumentSymbolParams := .openRecord "DocumentSymbolParams" fields

end DocumentSymbolParams

/-- A symbol without the symbols in it. Its kind is a number, so that newer ones are kept. -/
structure SymbolHead where
  name : String
  detail : Option String := none
  kind : UInt8
  outdated : Option Bool := none
  /-- The text of the symbol with its body. -/
  range : Range
  selectionRange : Range
  deriving DecidableEq

/-- A symbol and, if they are told, the symbols in it. -/
inductive DocumentSymbol where
  | node (head : SymbolHead) (children : Option (List DocumentSymbol))

namespace DocumentSymbol

def head : DocumentSymbol → SymbolHead
  | node head _ => head

def children : DocumentSymbol → Option (List DocumentSymbol)
  | node _ children => children

/-- The name of the member for the symbols within a symbol. -/
def childrenKey : String := "children"

open Json Fields in
/-- The fields of the head, as fields of the symbol. -/
def headFields : Fields DocumentSymbol SymbolHead :=
  SymbolHead.mk <$> field "name" Codec.string (·.head.name)
    <*> optional "detail" Codec.string (·.head.detail) <*> field "kind" Codec.uint8 (·.head.kind)
    <*> optional "deprecated" Codec.bool (·.head.outdated)
    <*> field "range" Range.codec (·.head.range)
    <*> field "selectionRange" Range.codec (·.head.selectionRange)

open Json Fields in
/-- The fields of a symbol whose children are read and written by `child`. -/
def fields (child : Codec DocumentSymbol) : Fields DocumentSymbol DocumentSymbol :=
  node <$> headFields <*> optional childrenKey (Codec.list child) (·.children)

mutual

def toJson : DocumentSymbol → Json
  | node head none => Json.ofMembers (headFields.toMembers (node head none))
  | node head (some children) =>
    Json.ofMembers
      (headFields.toMembers (node head none) ++ [(childrenKey, .list (toJsonAll children))])

def toJsonAll : List DocumentSymbol → List Json
  | [] => []
  | s :: rest => toJson s :: toJsonAll rest

end

/-- Reads a tree of at most so many levels. -/
def readWithin : Nat → Json.Place → Json → Except Json.Mismatch DocumentSymbol
  | 0, _, j => .error (.wrongType j "struct DocumentSymbol")
  | levels + 1, place, j =>
    (Json.Codec.record "DocumentSymbol" (fields ⟨readWithin levels, toJson⟩)).read place j

/-- A tree has fewer levels than its JSON, so the depth of the JSON bounds the reading. -/
def codec : Json.Codec DocumentSymbol :=
  ⟨fun place j => readWithin (j.depth + 1) place j, toJson⟩

end DocumentSymbol

/-- A symbol of a flat list. -/
structure SymbolInformation where
  name : String
  kind : UInt8
  outdated : Option Bool := none
  location : Location
  containerName : Option String := none
  deriving DecidableEq

namespace SymbolInformation

open Json Fields in
def fields : Fields SymbolInformation SymbolInformation :=
  SymbolInformation.mk <$> field "name" Codec.string (·.name) <*> field "kind" Codec.uint8 (·.kind)
    <*> optional "deprecated" Codec.bool (·.outdated)
    <*> field "location" Location.codec (·.location)
    <*> optional "containerName" Codec.string (·.containerName)

def codec : Json.Codec SymbolInformation := .record "SymbolInformation" fields

end SymbolInformation

/-- The answer to a request for the symbols of a document. -/
inductive DocumentSymbolResponse where
  | flat (symbols : List SymbolInformation)
  | nested (symbols : List DocumentSymbol)

namespace DocumentSymbolResponse

/-- How many symbols the answer holds at its top. -/
def length : DocumentSymbolResponse → Nat
  | flat symbols => symbols.length
  | nested symbols => symbols.length

def toJson : DocumentSymbolResponse → Json
  | flat symbols => (Json.Codec.list SymbolInformation.codec).write symbols
  | nested symbols => .list (DocumentSymbol.toJsonAll symbols)

open Json.Codec in
def codec : Json.Codec DocumentSymbolResponse :=
  choice "DocumentSymbolResponse"
    [asForm (list SymbolInformation.codec) flat, asForm (list DocumentSymbol.codec) nested] toJson

end DocumentSymbolResponse

end LanguageClient
