import LanguageClient.Protocol.Catalog
import LanguageClient.Query
import LanguageClient.Session.Schedule
import LanguageClient.Proofs.Calls.Accounts
import LanguageClient.Proofs.Documents.Versions
import LanguageClient.Proofs.Framing.Agreement
import LanguageClient.Proofs.Framing.WellFormed
import LanguageClient.Proofs.Lifecycle.Recording
import LanguageClient.Proofs.Rpc.Grammar
import LanguageClient.Proofs.Session.Answered
import LanguageClient.Proofs.Session.Correlation
import LanguageClient.Proofs.Session.LastWords
import LanguageClient.Proofs.Session.Settlement
import LanguageClient.Proofs.Documents.Isolation
import LanguageClient.Proofs.Framing.Charset
import LanguageClient.Proofs.Session.Unread
import LanguageClient.Proofs.Session.Reading
import LanguageClient.Proofs.Session.Stopping
import LanguageClient.Proofs.Handlers.Log
import LanguageClient.Proofs.Session.Handling
import LanguageClient.Proofs.Session.Refusing
import LanguageClient.Proofs.Session.Cancellation
import LanguageClient.Proofs.Protocol.GotoResponse
import LanguageClient.Proofs.Protocol.HoverContents
import LanguageClient.Proofs.Protocol.ServerCapabilities
import LanguageClient.Proofs.Protocol.WorkspaceEdit
import LanguageClient.Proofs.Protocol.DocumentSymbol
import LanguageClient.Proofs.Protocol.FlattenedParams
import LanguageClient.Proofs.Handlers.Standard
