import LanguageClient.Proofs.Json.Choice
import LanguageClient.Protocol.Position

/-!
# LanguageClient.Proofs.Protocol.Position -- places read back as written

Positions, ranges, locations and links round trip. A location is told from a link by its member `uri`, which
a link does not have, and from a list of either by the kind of its first item (`Location.refuses_object`,
`Location.refuses_list`).
-/

namespace LanguageClient

open Json Json.Fields Json.Codec

theorem Position.keeps (p : Position) : fields.Keeps ["line", "character"] p p :=
  ((keeps_field (uint32_roundTrips p.line)).map Position.mk).seq
    (keeps_field (uint32_roundTrips p.character))

theorem Position.roundTrips (p : Position) : codec.RoundTrips p := record_roundTrips p.keeps (by decide)

theorem Range.keeps (r : Range) : fields.Keeps ["start", "end"] r r :=
  ((keeps_field r.start.roundTrips).map Range.mk).seq (keeps_field r.stop.roundTrips)

theorem Range.roundTrips (r : Range) : codec.RoundTrips r := record_roundTrips r.keeps (by decide)

namespace Location

theorem keeps (l : Location) : fields.Keeps ["uri", "range"] l l :=
  ((keeps_field (string_roundTrips l.uri)).map Location.mk).seq (keeps_field l.range.roundTrips)

theorem roundTrips (l : Location) : codec.RoundTrips l := record_roundTrips l.keeps (by decide)

/-- An object that names no document is no location. -/
theorem refuses_object {members : List (String × Json)} (h : members.lookup "uri" = none) :
    codec.Refuses (.object members) := by
  have needed : fields.Needs "uri" := ((needs_field Codec.string (·.uri)).map Location.mk).before _
  exact needed.refuses h

/-- A list is read as a location only if it names a document first. -/
theorem refuses_list {items : List Json} (h : ∀ j ∈ items, ∃ members, j = .object members) :
    codec.Refuses (.list items) := by
  intro place l hread
  obtain ⟨j, k, uri, range, rfl, huri, -, -⟩ := read_pair_iff.mp hread
  obtain ⟨members, rfl⟩ := h j List.mem_cons_self
  cases huri

end Location

namespace LocationLink

theorem keeps (l : LocationLink) :
    fields.Keeps ["originSelectionRange", "targetUri", "targetRange", "targetSelectionRange"] l l :=
  ((((keeps_optional_all Range.roundTrips).map LocationLink.mk).seq
    (keeps_field (string_roundTrips l.targetUri))).seq
    (keeps_field l.targetRange.roundTrips)).seq
    (keeps_field l.targetSelectionRange.roundTrips)

theorem roundTrips (l : LocationLink) : codec.RoundTrips l := record_roundTrips l.keeps (by decide)

end LocationLink

end LanguageClient
