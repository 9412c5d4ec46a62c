/-!
# LanguageClient.Phase -- the phases of a session

A session passes through five phases, forwards only.
-/

namespace LanguageClient

/-- How far a session has come. -/
inductive Phase where
  | uninitialized
  | initializing
  | ready
  | shuttingDown
  | terminated
  deriving DecidableEq, Repr

namespace Phase

/-- The place of a phase in the order. -/
def rank : Phase → Nat
  | uninitialized => 0
  | initializing => 1
  | ready => 2
  | shuttingDown => 3
  | terminated => 4

instance : LE Phase := ⟨fun a b => a.rank ≤ b.rank⟩

instance (a b : Phase) : Decidable (a ≤ b) := inferInstanceAs (Decidable (a.rank ≤ b.rank))

/-- The name of a phase in messages for people. -/
def text : Phase → String
  | uninitialized => "uninitialized"
  | initializing => "initializing"
  | ready => "ready"
  | shuttingDown => "shutting down"
  | terminated => "terminated"

/-- The phase of a name. -/
def ofText? (name : String) : Option Phase :=
  [uninitialized, initializing, ready, shuttingDown, terminated].find? (·.text = name)

end Phase

end LanguageClient
