import LanguageClient.Fault
import LanguageClient.Json.Fields

/-!
# LanguageClient.Protocol.Position -- places in documents

Positions, ranges and locations. A position counts lines and, within its line, units of UTF-16, both
from zero; positions are ordered as text is read. A range ends before its end.
-/

namespace LanguageClient

/-- A place between two characters of a document. -/
structure Position where
  line : UInt32
  character : UInt32
  deriving DecidableEq

namespace Position

open Json Fields in
def fields : Fields Position Position :=
  Position.mk <$> field "line" Codec.uint32 (·.line)
    <*> field "character" Codec.uint32 (·.character)

def codec : Json.Codec Position := .record "Position" fields

end Position

namespace Position

/-- The first place of a document. -/
def start : Position := ⟨0, 0⟩

/-- Positions are ordered by line, then by character. -/
def order (a b : Position) : Ordering := (compare a.line b.line).then (compare a.character b.character)

instance : Ord Position := ⟨order⟩

instance : LT Position := ⟨fun a b => a.line < b.line ∨ a.line = b.line ∧ a.character < b.character⟩

instance (a b : Position) : Decidable (a < b) := inferInstanceAs (Decidable (_ ∨ _))

end Position

/-- The text between two positions. -/
structure Range where
  start : Position
  stop : Position
  deriving DecidableEq

namespace Range

open Json Fields in
def fields : Fields Range Range :=
  Range.mk <$> field "start" Position.codec (·.start) <*> field "end" Position.codec (·.stop)

def codec : Json.Codec Range := .record "Range" fields

end Range

namespace Range

/-- Whether a position lies in the range; the end does not. -/
def contains (r : Range) (p : Position) : Bool := ¬ p < r.start ∧ p < r.stop

/-- Whether the range holds nothing, because it ends where it starts. -/
def isEmpty (r : Range) : Bool := r.start = r.stop

end Range

/-- A range in a document. -/
structure Location where
  uri : DocumentUri
  range : Range
  deriving DecidableEq

namespace Location

open Json Fields in
def fields : Fields Location Location :=
  Location.mk <$> field "uri" Codec.string (·.uri) <*> field "range" Range.codec (·.range)

def codec : Json.Codec Location := .record "Location" fields

end Location

/-- A place that refers to another. -/
structure LocationLink where
  originSelectionRange : Option Range := none
  targetUri : DocumentUri
  targetRange : Range
  /-- The part of the target to show as selected. -/
  targetSelectionRange : Range
  deriving DecidableEq

namespace LocationLink

open Json Fields in
def fields : Fields LocationLink LocationLink :=
  LocationLink.mk <$> optional "originSelectionRange" Range.codec (·.originSelectionRange)
    <*> field "targetUri" Codec.string (·.targetUri)
    <*> field "targetRange" Range.codec (·.targetRange)
    <*> field "targetSelectionRange" Range.codec (·.targetSelectionRange)

def codec : Json.Codec LocationLink := .record "LocationLink" fields

end LocationLink

namespace LocationLink

/-- The place that a link leads to. -/
def target (l : LocationLink) : Location := ⟨l.targetUri, l.targetSelectionRange⟩

end LocationLink

end LanguageClient
