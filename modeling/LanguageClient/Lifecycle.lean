import LanguageClient.Fault
import LanguageClient.Protocol.Initialize

/-!
# LanguageClient.Lifecycle -- the phase of a session and its changes

The phase, what the server said of itself, and a revision that goes up whenever watchers of the phase
are told to look again. The result of the handshake is put down before the phase changes, so that who
sees the phase `ready` also finds the result.
-/

namespace LanguageClient

/-- How far a session has come, and with which server. -/
structure Lifecycle where
  phase : Phase := .uninitialized
  /-- What the server answered to the handshake; it is put down once. -/
  result : Option InitializeResult := none
  /-- How often watchers were told to look again. -/
  revision : Nat := 0

namespace Lifecycle

/-- Sets the phase and tells the watchers. -/
def enter (l : Lifecycle) (phase : Phase) : Lifecycle :=
  { l with phase, revision := l.revision + 1 }

/-- Begins the handshake, which is done once in a session. -/
def beginInitialize (l : Lifecycle) : Except Fault Lifecycle :=
  if l.phase = .uninitialized then .ok (l.enter .initializing) else .error .alreadyInitialized

/-- Puts the result of the handshake down, if none is there. -/
def record (l : Lifecycle) (result : InitializeResult) : Lifecycle :=
  { l with result := l.result.or (some result) }

/-- Ends the handshake, if it is going on. -/
def becomeReady (l : Lifecycle) : Except Fault Unit × Lifecycle :=
  if l.phase = .initializing then (.ok (), l.enter .ready) else (.error (.notReady l.phase), l)

/-- Puts the result of the handshake down and ends it. -/
def finishInitialize (l : Lifecycle) (result : InitializeResult) : Except Fault Unit × Lifecycle :=
  (l.record result).becomeReady

/-- Begins to shut down, and tells whether there was anything to do. -/
def beginShutdown (l : Lifecycle) : Except Fault Bool × Lifecycle :=
  match l.phase with
  | .ready => (.ok true, l.enter .shuttingDown)
  | .shuttingDown | .terminated => (.ok false, l)
  | phase => (.error (.notReady phase), l)

/-- Ends the session, whatever its phase. The watchers are told also if it had ended before. -/
def terminate (l : Lifecycle) : Lifecycle := l.enter .terminated

/-- Requests and notifications may be sent only while the session is ready. -/
def ensureReady (l : Lifecycle) : Except Fault Unit :=
  if l.phase = .ready then .ok () else .error (.notReady l.phase)

end Lifecycle

/-- One who watches the phase: the revision up to which it has looked. -/
structure Watcher where
  seen : Nat := 0
  deriving DecidableEq

namespace Watcher

/-- Whether the watcher was told to look again since it last did. -/
def isTold (w : Watcher) (l : Lifecycle) : Bool := w.seen ≠ l.revision

/-- Looks at the phase. -/
def look (_ : Watcher) (l : Lifecycle) : Phase × Watcher := (l.phase, ⟨l.revision⟩)

end Watcher

end LanguageClient
