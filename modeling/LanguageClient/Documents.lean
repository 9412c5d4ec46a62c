import LanguageClient.Dict
import LanguageClient.Fault
import LanguageClient.Protocol.Document

/-!
# LanguageClient.Documents -- which documents the server has been told of, and in which version

A store remembers every document that was ever opened, with its last version. Opening, changing, saving
and closing return the params of the notification that tells the server, together with the store that
follows; where they fail there is no new store, so a failure leaves no trace. The versions of a document
ascend as long as the store lives, across closing and opening again. Where there is no higher version,
no version is issued any more. `DocumentStore.apply` is the four operations in one.
-/

namespace LanguageClient

/-- What is known of a document. -/
structure Document where
  uri : DocumentUri
  languageId : String
  /-- The version that was last told. -/
  version : Int32
  isOpen : Bool
  deriving DecidableEq

/-- All documents that were ever opened. -/
structure DocumentStore where
  documents : Dict Document := ∅

namespace DocumentStore

/-- The version of a document that is opened for the first time. -/
def initialVersion : Int32 := 1

/-- The version after another one. There is none after the last of 32 bits. -/
def nextVersion (uri : DocumentUri) (current : Int32) : Except Fault Int32 :=
  if current = Int32.maxValue then .error (.staleVersion uri current current) else .ok (current + 1)

def get? (s : DocumentStore) (uri : DocumentUri) : Option Document := s.documents.get? uri

/-- The document of a URI, if it is open. -/
def getOpen (s : DocumentStore) (uri : DocumentUri) : Except Fault Document :=
  match s.get? uri with
  | some d => if d.isOpen then .ok d else .error (.notOpen uri)
  | none => .error (.notOpen uri)

/-- The version of a document, if it is open. -/
def version? (s : DocumentStore) (uri : DocumentUri) : Option Int32 :=
  ((s.get? uri).filter (·.isOpen)).map (·.version)

def isOpen (s : DocumentStore) (uri : DocumentUri) : Bool := (s.version? uri).isSome

/-- The open documents in the order of their URIs. -/
def openDocuments (s : DocumentStore) : List Document :=
  (s.documents.entries.map (·.2)).filter (·.isOpen)

/-- Puts down what is known of a document now. -/
def put (s : DocumentStore) (d : Document) : DocumentStore :=
  ⟨s.documents.insert d.uri d⟩

/-- The version in which a document is opened. It has to be above the last one, if there is one. -/
def openingVersion (s : DocumentStore) (uri : DocumentUri) (wanted : Option Int32) :
    Except Fault Int32 :=
  match s.get? uri, wanted with
  | none, wanted => .ok (wanted.getD initialVersion)
  | some d, some version =>
    if d.isOpen then .error (.alreadyOpen uri)
    else if version ≤ d.version then .error (.staleVersion uri version d.version)
    else .ok version
  | some d, none => if d.isOpen then .error (.alreadyOpen uri) else nextVersion uri d.version

/-- Opens a document. -/
def openDocument (s : DocumentStore) (uri : DocumentUri) (languageId : String) (wanted : Option Int32)
    (text : String) : Except Fault (DidOpenTextDocumentParams × DocumentStore) :=
  match s.openingVersion uri wanted with
  | .error f => .error f
  | .ok version =>
    .ok (⟨{ uri, languageId, version, text }⟩, s.put { uri, languageId, version, isOpen := true })

/-- Changes an open document. -/
def changeDocument (s : DocumentStore) (uri : DocumentUri) (changes : List TextDocumentContentChangeEvent) :
    Except Fault (DidChangeTextDocumentParams × DocumentStore) :=
  match s.getOpen uri with
  | .error f => .error f
  | .ok d =>
    match nextVersion uri d.version with
    | .error f => .error f
    | .ok version => .ok (⟨⟨uri, version⟩, changes⟩, s.put { d with uri, version })

/-- Saves an open document; the text is told only if it is given. -/
def saveDocument (s : DocumentStore) (uri : DocumentUri) (text : Option String) :
    Except Fault (DidSaveTextDocumentParams × DocumentStore) :=
  match s.getOpen uri with
  | .error f => .error f
  | .ok _ => .ok (⟨⟨uri⟩, text⟩, s)

/-- Closes an open document. Its version stays known. -/
def closeDocument (s : DocumentStore) (uri : DocumentUri) :
    Except Fault (DidCloseTextDocumentParams × DocumentStore) :=
  match s.getOpen uri with
  | .error f => .error f
  | .ok d => .ok (⟨⟨uri⟩⟩, s.put { d with uri, isOpen := false })

end DocumentStore

/-! ## The operations in one -/

/-- What is done with a document. -/
inductive DocumentOperation where
  | opening (uri : DocumentUri) (languageId : String) (version : Option Int32) (text : String)
  | changing (uri : DocumentUri) (changes : List TextDocumentContentChangeEvent)
  | saving (uri : DocumentUri) (text : Option String)
  | closing (uri : DocumentUri)
  deriving DecidableEq

/-- What the server is told of an operation. -/
inductive DocumentNotice where
  | opened (params : DidOpenTextDocumentParams)
  | changed (params : DidChangeTextDocumentParams)
  | saved (params : DidSaveTextDocumentParams)
  | closed (params : DidCloseTextDocumentParams)
  deriving DecidableEq

/-- The document that an operation is about. -/
def DocumentOperation.uri : DocumentOperation → DocumentUri
  | opening uri _ _ _ => uri
  | changing uri _ => uri
  | saving uri _ => uri
  | closing uri => uri

/-- The version that a notice issues. -/
def DocumentNotice.version? : DocumentNotice → Option Int32
  | opened params => some params.textDocument.version
  | changed params => some params.textDocument.version
  | saved _ | closed _ => none

/-- Does an operation: what the server is told of it, and the store that follows. -/
def DocumentStore.apply (s : DocumentStore) :
    DocumentOperation → Except Fault (DocumentNotice × DocumentStore)
  | .opening uri languageId version text =>
    (s.openDocument uri languageId version text).map fun (params, s) => (.opened params, s)
  | .changing uri changes =>
    (s.changeDocument uri changes).map fun (params, s) => (.changed params, s)
  | .saving uri text => (s.saveDocument uri text).map fun (params, s) => (.saved params, s)
  | .closing uri => (s.closeDocument uri).map fun (params, s) => (.closed params, s)

end LanguageClient
