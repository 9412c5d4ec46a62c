import LanguageClient.Proofs.Json.Choice
import LanguageClient.Protocol.Markup

/-!
# LanguageClient.Proofs.Protocol.HoverContents -- the shape of what a hover shows

A content with markup, a marked string and a list of marked strings are told apart by trying them in order.
The first of them is a record of two fields, which may also be given as the list of its fields: so a list of
two texts is taken for a content with markup if the first text happens to be the name of a kind, and only
then (`MarkupContent.read_list_iff`). All other contents read back in the shape they have
(`HoverContents.shape_kept`).
-/

namespace LanguageClient

open Json Json.Fields Json.Codec

/-! ## The parts -/

theorem MarkupKind.roundTrips (k : MarkupKind) : codec.RoundTrips k :=
  names_roundTrips (by decide) (by cases k <;> decide)

theorem MarkupContent.keeps (m : MarkupContent) : fields.Keeps ["kind", "value"] m m :=
  ((keeps_field m.kind.roundTrips).map MarkupContent.mk).seq (keeps_field (string_roundTrips m.value))

theorem MarkupContent.roundTrips (m : MarkupContent) : codec.RoundTrips m := record_roundTrips m.keeps (by decide)

theorem LanguageString.keeps (l : LanguageString) : fields.Keeps ["language", "value"] l l :=
  ((keeps_field (string_roundTrips l.language)).map LanguageString.mk).seq
    (keeps_field (string_roundTrips l.value))

theorem LanguageString.roundTrips (l : LanguageString) : codec.RoundTrips l :=
  openRecord_roundTrips l.keeps (by decide)

theorem string_refuses_object (members : List (String × Json)) : Codec.string.Refuses (.object members) :=
  fun _ _ => nofun

theorem MarkedString.roundTrips (m : MarkedString) : codec.RoundTrips m := by
  apply choice_read
  cases m with
  | text value => rfl
  | code value =>
    exact (firstForm_of_refuses (string_refuses_object _)).trans (firstForm_of_read (value.roundTrips .kept))

/-- A list is no marked string. -/
theorem MarkedString.refuses_list (items : List Json) : codec.Refuses (.list items) := fun _ _ => nofun

/-! ## Contents with markup -/

/-- A text is the name of one kind at most. -/
theorem MarkupKind.read_text_iff {place : Place} {text : String} {k : MarkupKind} :
    codec.read place (.str text) = .ok k ↔ text = k.name := by
  constructor
  · intro hread
    have hnamed : named? all name text = .ok k := hread
    unfold named? at hnamed
    split at hnamed
    · next found hfound =>
      cases hnamed
      have hname : k.name = text := by simpa using List.find?_some hfound
      exact hname.symm
    · cases hnamed
  · rintro rfl
    exact k.roundTrips place

/-- A piece of code has two members, so it names no kind. -/
theorem MarkupKind.refuses_code (l : LanguageString) : codec.Refuses (LanguageString.codec.write l) := by
  intro place k hread
  have hmembers : LanguageString.codec.write l
      = .object [("language", .str l.language), ("value", .str l.value)] := rfl
  rw [hmembers] at hread
  cases hread

/-- Only a list of two texts, the name of a kind and any other, is taken for a content with markup. -/
theorem MarkupContent.read_list_iff {place : Place} {contents : List MarkedString} {m : MarkupContent} :
    codec.read place ((list MarkedString.codec).write contents) = .ok m
      ↔ contents = [.text m.kind.name, .text m.value] := by
  constructor
  · intro hread
    obtain ⟨j, k, kind, value, hitems, hkind, hvalue, rfl⟩ := read_pair_iff.mp hread
    obtain ⟨x, rest, rfl, rfl, hrest⟩ := List.map_eq_cons_iff.mp hitems
    obtain ⟨y, none', rfl, rfl, hnone⟩ := List.map_eq_cons_iff.mp hrest
    obtain rfl := List.map_eq_nil_iff.mp hnone
    cases x with
    | code piece => exact absurd hkind (MarkupKind.refuses_code piece place kind)
    | text name =>
      obtain rfl := MarkupKind.read_text_iff.mp hkind
      cases y with
      | code piece => cases hvalue
      | text value' =>
        cases hvalue
        rfl
  · rintro rfl
    exact read_pair_iff.mpr ⟨_, _, m.kind, m.value, rfl, m.kind.roundTrips place, rfl, rfl⟩

/-- A marked string is no content with markup. -/
theorem MarkupContent.refuses_marked (m : MarkedString) : codec.Refuses (MarkedString.codec.write m) := by
  cases m with
  | text value => exact fun _ _ => nofun
  | code value =>
    have needed : fields.Needs "kind" := ((needs_field MarkupKind.codec (·.kind)).map MarkupContent.mk).before _
    have hnone : (Assoc.ofList (LanguageString.fields.toMembers value)).lookup "kind" = none := by
      rw [value.keeps.lookup_written (by decide), value.keeps.lookup_eq_none (by decide)]
    exact needed.refuses hnone

/-! ## All shapes -/

namespace HoverContents

theorem markup_roundTrips (m : MarkupContent) : codec.RoundTrips (.markup m) :=
  choice_read (firstForm_of_read (m.roundTrips .kept))

theorem scalar_roundTrips (m : MarkedString) : codec.RoundTrips (.scalar m) :=
  choice_read ((firstForm_of_refuses (MarkupContent.refuses_marked m)).trans
    (firstForm_of_read (m.roundTrips .kept)))

/-- A list reads back unless it is taken for a content with markup. -/
theorem array_roundTrips {contents : List MarkedString}
    (h : ∀ (kind : MarkupKind) value, contents ≠ [.text kind.name, .text value]) :
    codec.RoundTrips (.array contents) := by
  have hmarkup : MarkupContent.codec.Refuses ((list MarkedString.codec).write contents) :=
    fun place m hread => h m.kind m.value (MarkupContent.read_list_iff.mp hread)
  have hscalar : MarkedString.codec.Refuses ((list MarkedString.codec).write contents) :=
    MarkedString.refuses_list _
  exact choice_read ((firstForm_of_refuses hmarkup).trans ((firstForm_of_refuses hscalar).trans
    (firstForm_of_read (list_roundTrips (fun m _ => m.roundTrips) .kept))))

/-- A list of two texts of which the first names a kind is read as a content with markup. -/
theorem read_pair (place : Place) (kind : MarkupKind) (value : String) :
    codec.read place (codec.write (.array [.text kind.name, .text value])) = .ok (.markup ⟨kind, value⟩) := by
  have hread : MarkupContent.codec.read .kept
      ((list MarkedString.codec).write [.text kind.name, .text value]) = .ok ⟨kind, value⟩ :=
    MarkupContent.read_list_iff.mpr rfl
  exact choice_read (firstForm_of_read hread) place

/-- **Contents read back in the shape they have, unless they are a list of two texts of which the first names
a kind of markup.** Such a list is read as a content with markup, and no contents are ever read as a single
marked string that were a list. -/
theorem shape_kept (h : HoverContents) :
    (codec.RoundTrips h ↔ ∀ (kind : MarkupKind) value, h ≠ .array [.text kind.name, .text value])
    ∧ ∀ (kind : MarkupKind) value, h = .array [.text kind.name, .text value] →
        ∀ place, codec.read place (codec.write h) = .ok (.markup ⟨kind, value⟩) := by
  refine ⟨⟨fun hback kind value heq => ?_, fun hother => ?_⟩, ?_⟩
  · have hmarkup := read_pair .document kind value
    rw [← heq, hback .document, heq] at hmarkup
    cases hmarkup
  · cases h with
    | markup content => exact markup_roundTrips content
    | scalar content => exact scalar_roundTrips content
    | array contents => exact array_roundTrips fun kind value heq => hother kind value (heq ▸ rfl)
  · rintro kind value rfl place
    exact read_pair place kind value

/-- A list of marked strings comes back as something else. -/
theorem pair_of_texts_lost : ¬ ∀ contents : List MarkedString,
    codec.ofJson (codec.write (.array contents)) = .ok (.array contents) := by
  intro h
  have hmarkup := read_pair .document .markdown "x"
  have harray := h [.text "markdown", .text "x"]
  cases hmarkup.symm.trans harray

end HoverContents

end LanguageClient
