import LanguageClient.PendingCalls
import LanguageClient.Protocol.Method

/-!
# LanguageClient.Query -- what a language server is asked

A query is a request with params and result of known types: its method, its params as they are sent, and
how the result is read. The queries below are those about a document, most of them at a position in it.
-/

namespace LanguageClient

/-- A request whose result is typed. -/
structure Query (α : Type) where
  method : String
  params : Option Json
  read : Json → Except Json.Mismatch α

/-- The query of a method with its params. -/
def RequestMethod.query {P R : Type} (m : RequestMethod P R) (params : P) : Query R where
  method := m.name
  params := sentParams (m.params.write params)
  read := m.result.ofJson

namespace Query

variable {α β : Type}

/-- Makes something else of the result. -/
def map (f : α → β) (q : Query α) : Query β := { q with read := fun j => (q.read j).map f }

/-- What the outcome of the request comes to. -/
def answer (q : Query α) : Outcome → Except Fault α
  | .error f => .error f
  | .ok j =>
    match q.read j with
    | .ok a => .ok a
    | .error cause => .error (.json cause)

/-- A position in a document. -/
def place (uri : DocumentUri) (position : Position) : TextDocumentPositionParams :=
  { textDocument := ⟨uri⟩, position }

/-- The completions at a position, whatever the form of the list. -/
def completion (uri : DocumentUri) (position : Position) : Query (List CompletionItem) :=
  (Method.completion.query { place := place uri position }).map fun r =>
    (r.map CompletionResponse.items).getD []

def signatureHelp (uri : DocumentUri) (position : Position) : Query (Option SignatureHelp) :=
  Method.signatureHelp.query { place := place uri position }

def hover (uri : DocumentUri) (position : Position) : Query (Option Hover) :=
  Method.hover.query { place := place uri position }

/-- The places where a name is defined. -/
def definition (uri : DocumentUri) (position : Position) : Query (List Location) :=
  (Method.definition.query { place := place uri position }).map fun r =>
    (r.map GotoResponse.locations).getD []

/-- The places where a name is declared. -/
def declaration (uri : DocumentUri) (position : Position) : Query (List Location) :=
  (Method.declaration.query { place := place uri position }).map fun r =>
    (r.map GotoResponse.locations).getD []

/-- The places where a name is used, its declaration among them or not. -/
def references (uri : DocumentUri) (position : Position) (includeDeclaration : Bool) :
    Query (List Location) :=
  (Method.references.query { place := place uri position, context := ⟨includeDeclaration⟩ }).map
    (·.getD [])

def documentSymbols (uri : DocumentUri) : Query (Option DocumentSymbolResponse) :=
  Method.documentSymbol.query { textDocument := ⟨uri⟩ }

/-- The edits that format a document. -/
def formatting (uri : DocumentUri) (options : FormattingOptions) : Query (List TextEdit) :=
  (Method.formatting.query { textDocument := ⟨uri⟩, options }).map (·.getD [])

/-- The edits that rename what stands at a position. -/
def rename (uri : DocumentUri) (position : Position) (newName : String) :
    Query (Option WorkspaceEdit) :=
  Method.rename.query { place := place uri position, newName }

/-- The ways to write a color in a range. -/
def colorPresentation (uri : DocumentUri) (color : Color) (range : Range) :
    Query (List ColorPresentation) :=
  Method.colorPresentation.query { textDocument := ⟨uri⟩, color, range }

def documentColor (uri : DocumentUri) : Query (List ColorInformation) :=
  Method.documentColor.query { textDocument := ⟨uri⟩ }

def semanticTokensFull (uri : DocumentUri) : Query (Option SemanticTokens) :=
  Method.semanticTokensFull.query { textDocument := ⟨uri⟩ }

/-- The diagnostics of a document, or that they are still those of an earlier result. -/
def documentDiagnostic (uri : DocumentUri) (previousResultId : Option String) :
    Query DocumentDiagnosticReport :=
  Method.documentDiagnostic.query { textDocument := ⟨uri⟩, previousResultId }

end Query

end LanguageClient
