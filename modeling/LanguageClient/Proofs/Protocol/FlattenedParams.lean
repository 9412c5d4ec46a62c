import LanguageClient.Proofs.Json.Verbatim
import LanguageClient.Proofs.Protocol.Position
import LanguageClient.Query

/-!
# LanguageClient.Proofs.Protocol.FlattenedParams -- params whose parts stand side by side

The members of a place, of the tokens and of the params themselves stand in one object; no two of them have
the same name, so the params read back as they were. With the options of a layout stand further properties
under any names. One that has the name of a declared option is sent in its place, and is read as that option;
options with no such property, and only they, read back (`FormattingOptions.roundTrips_iff`).
-/

namespace LanguageClient

open Json Json.Fields Json.Codec

/-! ## The parts that params share -/

/-- A token of either kind reads back as one of that kind. -/
theorem Id.roundTrips (id : Id) : codec.RoundTrips id := by
  apply choice_read
  cases id with
  | number n => exact firstForm_of_read (int64_roundTrips n .kept)
  | name s =>
    have hrefuses : int64.Refuses (.str s) := fun _ _ => nofun
    exact (firstForm_of_refuses hrefuses).trans (firstForm_of_read (string_roundTrips s .kept))

theorem TextDocumentIdentifier.keeps (d : TextDocumentIdentifier) : fields.Keeps ["uri"] d d :=
  (keeps_field (string_roundTrips d.uri)).map TextDocumentIdentifier.mk

theorem TextDocumentIdentifier.roundTrips (d : TextDocumentIdentifier) : codec.RoundTrips d :=
  record_roundTrips d.keeps (by decide)

theorem TextDocumentPositionParams.keeps (p : TextDocumentPositionParams) :
    fields.Keeps ["textDocument", "position"] p p :=
  ((keeps_field p.textDocument.roundTrips).map TextDocumentPositionParams.mk).seq
    (keeps_field p.position.roundTrips)

/-- A token is written as a number or as a text. -/
theorem token_roundTrips (token : Option ProgressToken) : Id.codec.optional.RoundTrips token :=
  optional_roundTrips (fun id _ => id.roundTrips) fun id => by cases id <;> nofun

theorem WorkDoneProgressParams.keeps (p : WorkDoneProgressParams) : fields.Keeps ["workDoneToken"] p p :=
  (keeps_optional (token_roundTrips p.workDoneToken)).map WorkDoneProgressParams.mk

theorem PartialResultParams.keeps (p : PartialResultParams) : fields.Keeps ["partialResultToken"] p p :=
  (keeps_optional (token_roundTrips p.partialResultToken)).map PartialResultParams.mk

/-! ## Params without names of the caller's -/

theorem CompletionContext.keeps (c : CompletionContext) :
    fields.Keeps ["triggerKind", "triggerCharacter"] c c :=
  ((keeps_field (uint8_roundTrips c.triggerKind)).map CompletionContext.mk).seq
    (keeps_optional_all string_roundTrips)

theorem CompletionContext.roundTrips (c : CompletionContext) : codec.RoundTrips c :=
  record_roundTrips c.keeps (by decide)

theorem CompletionParams.keeps (p : CompletionParams) :
    fields.Keeps ["textDocument", "position", "workDoneToken", "partialResultToken", "context"] p p :=
  ((((keeps_flattened p.place.keeps).map CompletionParams.mk).seq (keeps_flattened p.workDone.keeps)).seq
    (keeps_flattened p.partialResult.keeps)).seq
    (keeps_optional_all CompletionContext.roundTrips)

theorem CompletionParams.roundTrips (p : CompletionParams) : codec.RoundTrips p :=
  openRecord_roundTrips p.keeps (by decide)

theorem ReferenceContext.keeps (c : ReferenceContext) : fields.Keeps ["includeDeclaration"] c c :=
  (keeps_field (bool_roundTrips c.includeDeclaration)).map ReferenceContext.mk

theorem ReferenceContext.roundTrips (c : ReferenceContext) : codec.RoundTrips c :=
  record_roundTrips c.keeps (by decide)

theorem ReferenceParams.keeps (p : ReferenceParams) :
    fields.Keeps ["textDocument", "position", "workDoneToken", "partialResultToken", "context"] p p :=
  ((((keeps_flattened p.place.keeps).map ReferenceParams.mk).seq (keeps_flattened p.workDone.keeps)).seq
    (keeps_flattened p.partialResult.keeps)).seq (keeps_field p.context.roundTrips)

theorem ReferenceParams.roundTrips (p : ReferenceParams) : codec.RoundTrips p :=
  openRecord_roundTrips p.keeps (by decide)

theorem RenameParams.keeps (p : RenameParams) :
    fields.Keeps ["textDocument", "position", "newName", "workDoneToken"] p p :=
  (((keeps_flattened p.place.keeps).map RenameParams.mk).seq
    (keeps_field (string_roundTrips p.newName))).seq (keeps_flattened p.workDone.keeps)

theorem RenameParams.roundTrips (p : RenameParams) : codec.RoundTrips p :=
  openRecord_roundTrips p.keeps (by decide)

/-! ## Options with further properties -/

namespace FormattingOptions

open Json Fields in
/-- The fields of the declared options. -/
def declaredFields : Fields FormattingOptions (Dict Json → FormattingOptions) :=
  FormattingOptions.mk <$> field "tabSize" Codec.uint32 (·.tabSize)
    <*> field "insertSpaces" Codec.bool (·.insertSpaces)
    <*> optional "trimTrailingWhitespace" Codec.bool (·.trimTrailingWhitespace)
    <*> optional "insertFinalNewline" Codec.bool (·.insertFinalNewline)
    <*> optional "trimFinalNewlines" Codec.bool (·.trimFinalNewlines)

theorem fields_eq : fields = declaredFields <*> rest declared (·.properties) := rfl

theorem keeps (o : FormattingOptions) : declaredFields.Keeps declared o
    (mk o.tabSize o.insertSpaces o.trimTrailingWhitespace o.insertFinalNewline o.trimFinalNewlines) :=
  (((((keeps_field (uint32_roundTrips o.tabSize)).map FormattingOptions.mk).seq
    (keeps_field (bool_roundTrips o.insertSpaces))).seq
    (keeps_optional_all bool_roundTrips)).seq
    (keeps_optional_all bool_roundTrips)).seq
    (keeps_optional_all bool_roundTrips)

/-- The declared options, each with its value if it has one. -/
def provided (o : FormattingOptions) : List (String × Option Json) :=
  [("tabSize", some (.int o.tabSize.toNat)), ("insertSpaces", some (.bool o.insertSpaces)),
    ("trimTrailingWhitespace", o.trimTrailingWhitespace.map .bool),
    ("insertFinalNewline", o.insertFinalNewline.map .bool),
    ("trimFinalNewlines", o.trimFinalNewlines.map .bool)]

theorem toMembers_declared (o : FormattingOptions) :
    declaredFields.toMembers o = Assoc.present o.provided := by
  simp only [declaredFields, toMembers_seq, toMembers_map, toMembers_optional, Assoc.present, provided,
    List.flatMap_cons, List.flatMap_nil, Option.map_map, Function.comp_def, List.append_assoc, List.append_nil]
  rfl

/-- What is written under a name: the property of that name, or else the option. -/
theorem lookup_written (o : FormattingOptions) (name : String) :
    (Assoc.ofList (fields.toMembers o)).lookup name
      = (o.properties.get? name).or ((Assoc.present o.provided).lookup name) := by
  rw [fields_eq, o.keeps.lookup_beside (by decide), toMembers_declared]

/-- What is read as a property has not the name of a declared option. -/
theorem undeclared_of_read {place : Place} {members : List (String × Json)} {o : FormattingOptions}
    (hsorted : Assoc.Sorted members) (hread : fields.ofMembers place members = .ok o) {name : String}
    (hname : name ∈ declared) : o.properties.get? name = none := by
  -- whatever the declared options are read as, the properties are the members beside them
  simp only [fields, ofMembers_seq_iff, ofMembers_map_iff, ofMembers_rest_iff] at hread
  obtain ⟨_, _, ⟨_, _, ⟨_, _, ⟨_, _, ⟨_, _, ⟨_, -, rfl⟩, -, rfl⟩, -, rfl⟩, -, rfl⟩, -, rfl⟩,
    rfl, rfl⟩ := hread
  rw [get?_rest hsorted, if_pos hname]

/-- Options read back if and only if no property has the name of a declared option. -/
theorem roundTrips_iff (o : FormattingOptions) :
    codec.RoundTrips o ↔ ∀ name ∈ o.properties.keys, name ∉ declared := by
  have hfree : (∀ name ∈ o.properties.keys, name ∉ declared)
      ↔ ∀ name ∈ declared, o.properties.get? name = none := by
    simp only [Dict.mem_keys_iff, Option.isSome_iff_ne_none]
    exact ⟨fun h name hname => Classical.byContradiction fun hsome => h name hsome hname,
      fun h name hsome hname => hsome (h name hname)⟩
  rw [hfree]
  constructor
  · intro h name hname
    exact undeclared_of_read (Assoc.ofList_sorted _) (readMembers_iff.mp (h .document)) hname
  · exact fun h place => readMembers_iff.mpr (o.keeps.reads_beside (by decide) h place)

example : codec.write { tabSize := 4, insertSpaces := true, properties := .ofList [("tabSize", .str "wide")] }
    = .object [("insertSpaces", .bool true), ("tabSize", .str "wide")] := rfl

end FormattingOptions

namespace DocumentFormattingParams

/-- Params read back if their options do. -/
theorem keeps {p : DocumentFormattingParams} (h : FormattingOptions.codec.RoundTrips p.options) :
    fields.Keeps ["textDocument", "options", "workDoneToken"] p p :=
  (((keeps_field p.textDocument.roundTrips).map DocumentFormattingParams.mk).seq (keeps_field h)).seq
    (keeps_flattened p.workDone.keeps)

/-- The options of params are written under their name. -/
theorem lookup_options (p : DocumentFormattingParams) :
    (Assoc.ofList (fields.toMembers p)).lookup "options" = some (FormattingOptions.codec.write p.options) := by
  have hkeys : ((fields.toMembers p).map (·.1)).Sublist ["textDocument", "options", "workDoneToken"] :=
    (p.workDone.keeps.keys.cons_cons "options").cons_cons "textDocument"
  rw [Assoc.lookup_ofList (hkeys.nodup (by decide))]
  rfl

/-- Params read back if and only if no property of their options has the name of a declared option. -/
theorem roundTrips_iff (p : DocumentFormattingParams) :
    codec.RoundTrips p ↔ ∀ name ∈ p.options.properties.keys, name ∉ FormattingOptions.declared := by
  rw [← FormattingOptions.roundTrips_iff]
  constructor
  · intro h place
    have hread : fields.ofMembers place (Assoc.ofList (fields.toMembers p)) = .ok p :=
      readMembers_iff.mp (h place)
    simp only [fields, ofMembers_seq_iff, ofMembers_map_iff, ofMembers_field_iff] at hread
    obtain ⟨_, _, ⟨_, options, ⟨_, -, rfl⟩, ⟨j, hj, hoptions⟩, rfl⟩, -, heq⟩ := hread
    obtain rfl : options = p.options := congrArg DocumentFormattingParams.options heq
    obtain rfl : j = FormattingOptions.codec.write p.options := Option.some.inj (hj.symm.trans p.lookup_options)
    exact hoptions
  · exact fun h => openRecord_roundTrips (keeps h) (by decide)

end DocumentFormattingParams

/-! ## All of them -/

/-- What a server is sent when a document is to be laid out. -/
structure SendsOptions (p : DocumentFormattingParams) (sent options : Dict Json) : Prop where
  /-- The params are an object, and the options an object under their name in it. -/
  params : (Method.formatting.query p).params = some (.object sent.entries)
  written : DocumentFormattingParams.codec.write p = .object sent.entries
  nested : sent.get? "options" = some (.object options.entries)
  /-- A property takes the place of the declared option of its name. -/
  property : ∀ name value, p.options.properties.get? name = some value → options.get? name = some value
  /-- The other options are sent with their values, and nothing else is sent. -/
  other : ∀ name, p.options.properties.get? name = none →
    options.get? name = (Assoc.present p.options.provided).lookup name

theorem sendsOptions (p : DocumentFormattingParams) : ∃ sent options, SendsOptions p sent options := by
  have hwritten : ∀ name, (Dict.ofList (FormattingOptions.fields.toMembers p.options)).get? name
      = (p.options.properties.get? name).or ((Assoc.present p.options.provided).lookup name) :=
    p.options.lookup_written
  refine ⟨Dict.ofList (DocumentFormattingParams.fields.toMembers p),
    Dict.ofList (FormattingOptions.fields.toMembers p.options), rfl, rfl, p.lookup_options, ?_, ?_⟩
  · intro name value hvalue
    rw [hwritten, hvalue, Option.some_or]
  · intro name hnone
    rw [hwritten, hnone, Option.none_or]

/-- **Params read back as they were**, those of a layout if and only if no property has the name of a declared
option; a property that has such a name is sent in place of the option. -/
theorem params_read_back :
    (∀ p : CompletionParams, CompletionParams.codec.RoundTrips p)
      ∧ (∀ p : ReferenceParams, ReferenceParams.codec.RoundTrips p)
      ∧ (∀ p : RenameParams, RenameParams.codec.RoundTrips p)
      ∧ ∀ p : DocumentFormattingParams,
        (DocumentFormattingParams.codec.RoundTrips p
          ↔ ∀ name ∈ p.options.properties.keys,
            name ∉ ["tabSize", "insertSpaces", "trimTrailingWhitespace", "insertFinalNewline", "trimFinalNewlines"])
        ∧ ∃ sent options, SendsOptions p sent options :=
  ⟨CompletionParams.roundTrips, ReferenceParams.roundTrips, RenameParams.roundTrips,
    fun p => ⟨p.roundTrips_iff, sendsOptions p⟩⟩

end LanguageClient
