import LanguageClient.Proofs.Json.Verbatim
import LanguageClient.Protocol.ServerCapabilities

/-!
# LanguageClient.Proofs.Protocol.ServerCapabilities -- what a server announces is kept

Only how a server wants to be told of changes and how it completes must have a known form; all other members
may hold anything (`ServerCapabilities.takes_iff`). Those that are declared are written as they were read,
unless they were null, and those that are not are kept as they are (`ServerCapabilities.nothing_lost`).
-/

namespace LanguageClient

open Json Json.Fields Json.Codec

/-! ## The two members of a known form -/

/-- A kind is told by its number. -/
theorem TextDocumentSyncKind.read_iff {place : Place} {j : Json} {k : TextDocumentSyncKind} :
    codec.read place j = .ok k ↔ j = .int k.code.toNat :=
  codes_read_iff (by decide) (by cases k <;> decide)

theorem TextDocumentSyncKind.takes_iff {place : Place} {j : Json} :
    (∃ k, codec.read place j = .ok k) ↔ j = .int 0 ∨ j = .int 1 ∨ j = .int 2 := by
  simp only [read_iff]
  constructor
  · rintro ⟨k, rfl⟩
    cases k
    · exact .inl rfl
    · exact .inr (.inl rfl)
    · exact .inr (.inr rfl)
  · rintro (rfl | rfl | rfl)
    · exact ⟨.none, rfl⟩
    · exact ⟨.full, rfl⟩
    · exact ⟨.incremental, rfl⟩

/-- Where options stand makes no difference to whether they are read. -/
theorem TextDocumentSyncOptions.read_kept_iff {j : Json} {o : TextDocumentSyncOptions} :
    codec.read .kept j = .ok o ↔ codec.ofJson j = .ok o := by
  cases j with
  | object members => exact Iff.rfl
  | list items =>
    rw [Codec.ofJson, codec, read_list_iff, read_list_iff]
    exact Iff.rfl
  | _ => exact ⟨nofun, nofun⟩

/-- How a server wants to be told of changes is a number or options. -/
theorem TextDocumentSyncCapability.takes_iff {place : Place} {j : Json} :
    (∃ a, codec.read place j = .ok a)
      ↔ j = .int 0 ∨ j = .int 1 ∨ j = .int 2
        ∨ ∃ options, TextDocumentSyncOptions.codec.ofJson j = .ok options := by
  rw [codec, choice_takes_iff]
  simp only [List.mem_cons, List.not_mem_nil, or_false, exists_eq_or_imp, exists_eq_left, isSome_asForm_iff,
    TextDocumentSyncKind.takes_iff, TextDocumentSyncOptions.read_kept_iff, or_assoc]

/-! ## All members -/

theorem ProviderCapability.verbatim : codec.Verbatim := by
  intro place j
  cases j <;> exact ⟨_, rfl, rfl⟩

namespace ServerCapabilities

/-- An object announces capabilities if its two members of a known form can be read. -/
theorem takes_iff {place : Place} {members : List (String × Json)} : fields.Takes place members
    ↔ (∀ j ∈ members.lookup "textDocumentSync", j = .null
        ∨ ∃ a, TextDocumentSyncCapability.codec.read place j = .ok a)
      ∧ ∀ j ∈ members.lookup "completionProvider", j = .null
        ∨ ∃ a, CompletionOptions.codec.read place j = .ok a := by
  simp only [fields, takes_seq_iff, takes_map_iff, takes_rest, takes_verbatim raw_verbatim,
    takes_verbatim ProviderCapability.verbatim, and_true]
  rw [takes_optional_iff, takes_optional_iff]

/-- The declared members, each with what is written of it. -/
def provided (c : ServerCapabilities) : List (String × Option Json) :=
  [("textDocumentSync", c.textDocumentSync.map TextDocumentSyncCapability.codec.write),
    ("completionProvider", c.completionProvider.map CompletionOptions.codec.write),
    ("hoverProvider", c.hoverProvider.map ProviderCapability.codec.write),
    ("signatureHelpProvider", c.signatureHelpProvider.map raw.write),
    ("declarationProvider", c.declarationProvider.map ProviderCapability.codec.write),
    ("definitionProvider", c.definitionProvider.map ProviderCapability.codec.write),
    ("referencesProvider", c.referencesProvider.map ProviderCapability.codec.write),
    ("documentSymbolProvider", c.documentSymbolProvider.map ProviderCapability.codec.write),
    ("documentFormattingProvider", c.documentFormattingProvider.map ProviderCapability.codec.write),
    ("renameProvider", c.renameProvider.map ProviderCapability.codec.write),
    ("colorProvider", c.colorProvider.map ProviderCapability.codec.write),
    ("semanticTokensProvider", c.semanticTokensProvider.map raw.write),
    ("diagnosticProvider", c.diagnosticProvider.map raw.write)]

theorem names_provided (c : ServerCapabilities) : c.provided.map (·.1) = declared := rfl

theorem nodup_provided (c : ServerCapabilities) : (c.provided.map (·.1)).Nodup := by
  rw [names_provided]
  decide

theorem toMembers_eq (c : ServerCapabilities) :
    fields.toMembers c = Assoc.present c.provided ++ c.other.entries := by
  simp only [fields, toMembers_seq, toMembers_map, toMembers_optional, rest, Assoc.present, provided,
    List.flatMap_cons, List.flatMap_nil, Option.map_map, Function.comp_def, List.append_assoc, List.append_nil]

variable {place : Place} {members : List (String × Json)} {c : ServerCapabilities}

/-- What a record that was read holds of the members of the object. -/
structure Holds (members : List (String × Json)) (c : ServerCapabilities) : Prop where
  sync : c.textDocumentSync.isSome → (members.lookup "textDocumentSync").isSome
  completion : c.completionProvider.isSome → (members.lookup "completionProvider").isSome
  verbatim : ∀ p ∈ c.provided.drop 2, p.2 = (members.lookup p.1).filter (· ≠ .null)
  other : c.other = Dict.ofList (members.filter fun m => !declared.contains m.1)

theorem holds_of_read (h : fields.ofMembers place members = .ok c) : c.Holds members := by
  simp only [fields, ofMembers_seq_iff, ofMembers_map_iff, ofMembers_optional_iff, ofMembers_rest_iff] at h
  -- one after the other, from the last field to the first
  obtain ⟨_, _, ⟨_, _, ⟨_, _, ⟨_, _, ⟨_, _, ⟨_, _, ⟨_, _, ⟨_, _, ⟨_, _, ⟨_, _, ⟨_, _,
    ⟨_, _, ⟨_, _, ⟨_, hsync, rfl⟩, hcompletion, rfl⟩, hhover, rfl⟩, hsignature, rfl⟩,
    hdeclaration, rfl⟩, hdefinition, rfl⟩, hreferences, rfl⟩, hsymbol, rfl⟩, hformatting, rfl⟩,
    hrename, rfl⟩, hcolor, rfl⟩, htokens, rfl⟩, hdiagnostic, rfl⟩, hother, rfl⟩ := h
  have provider : ∀ {name : String} {o : Option ProviderCapability},
      ProviderCapability.codec.optional.read place ((members.lookup name).getD .null) = .ok o →
      o.map ProviderCapability.codec.write = (members.lookup name).filter (· ≠ .null) :=
    ProviderCapability.verbatim.written
  have any : ∀ {name : String} {o : Option Json},
      raw.optional.read place ((members.lookup name).getD .null) = .ok o →
      o.map raw.write = (members.lookup name).filter (· ≠ .null) := raw_verbatim.written
  refine ⟨isSome_of_optional_read hsync, isSome_of_optional_read hcompletion, ?_, hother.symm⟩
  simp only [provided, List.drop_succ_cons, List.drop_zero, List.forall_mem_cons]
  exact ⟨provider hhover, any hsignature, provider hdeclaration, provider hdefinition, provider hreferences,
    provider hsymbol, provider hformatting, provider hrename, provider hcolor, any htokens, any hdiagnostic, nofun⟩

/-! ### What is kept and what is written -/

/-- A member that is written is one of the others, or one of those that are declared. -/
theorem lookup_written (c : ServerCapabilities) (name : String) : (Assoc.ofList (fields.toMembers c)).lookup name
    = (c.other.get? name).or ((Assoc.present c.provided).lookup name) := by
  rw [toMembers_eq]
  exact Assoc.lookup_ofList_append ((Assoc.keys_present _).nodup c.nodup_provided)
    (Assoc.nodup_keys c.other.sorted) name

section Written

variable {o : Dict Json} (h : c.Holds o.entries)

include h

theorem Holds.get?_other (name : String) :
    c.other.get? name = if name ∈ declared then none else o.get? name := by
  rw [h.other]
  exact get?_rest o.sorted declared name

theorem Holds.lookup_provided {p : String × Option Json} (hp : p ∈ c.provided) :
    (Assoc.ofList (fields.toMembers c)).lookup p.1 = p.2 := by
  have hdeclared : p.1 ∈ declared := List.mem_map_of_mem hp
  rw [lookup_written, h.get?_other, if_pos hdeclared, Option.none_or, Assoc.lookup_present c.nodup_provided hp]

theorem Holds.lookup_undeclared {name : String} (hname : name ∉ declared) :
    (Assoc.ofList (fields.toMembers c)).lookup name = o.get? name := by
  have hnone : (Assoc.present c.provided).lookup name = none :=
    Assoc.lookup_eq_none fun hmem => hname ((Assoc.keys_present c.provided).mem hmem)
  rw [lookup_written, h.get?_other, if_neg hname, hnone, Option.or_none]

/-- Of each declared member that may hold anything, what was read is written again. -/
theorem Holds.lookup_declared {name : String} (hname : name ∈ declared) (hsync : name ≠ "textDocumentSync")
    (hcompletion : name ≠ "completionProvider") :
    (Assoc.ofList (fields.toMembers c)).lookup name = (o.get? name).filter (· ≠ .null) := by
  obtain ⟨p, hp, rfl⟩ := List.mem_map.mp (c.names_provided ▸ hname)
  have hrest : p ∈ c.provided.drop 2 := by
    rcases List.mem_cons.mp hp with rfl | hp
    · exact absurd rfl hsync
    · rcases List.mem_cons.mp hp with rfl | hp
      · exact absurd rfl hcompletion
      · exact hp
  rw [h.lookup_provided hp, h.verbatim p hrest]
  rfl

/-- No member is written that was not there. -/
theorem Holds.isSome_of_written {name : String}
    (hsome : ((Assoc.ofList (fields.toMembers c)).lookup name).isSome) : (o.get? name).isSome := by
  by_cases hname : name ∈ declared
  · by_cases hsync : name = "textDocumentSync"
    · subst hsync
      rw [h.lookup_provided List.mem_cons_self, Option.isSome_map] at hsome
      exact h.sync hsome
    · by_cases hcompletion : name = "completionProvider"
      · subst hcompletion
        rw [h.lookup_provided (List.mem_cons_of_mem _ List.mem_cons_self), Option.isSome_map] at hsome
        exact h.completion hsome
      · rw [h.lookup_declared hname hsync hcompletion] at hsome
        exact Option.isSome_of_isSome_filter _ _ hsome
  · rwa [h.lookup_undeclared hname] at hsome

end Written

/-- Nothing is lost of the members of an object that a session does not know. -/
structure NothingLost (o : Dict Json) : Prop where
  /-- Whether the object is read depends on two of its members alone. -/
  taken : (∃ c, codec.ofJson (.object o.entries) = .ok c)
    ↔ (∀ j ∈ o.get? "textDocumentSync", j = .null ∨ j = .int 0 ∨ j = .int 1 ∨ j = .int 2
        ∨ ∃ options, TextDocumentSyncOptions.codec.ofJson j = .ok options)
      ∧ ∀ j ∈ o.get? "completionProvider",
        j = .null ∨ ∃ options, CompletionOptions.codec.ofJson j = .ok options
  /-- The members that are not declared are kept as they are. -/
  kept : ∀ c, codec.ofJson (.object o.entries) = .ok c →
    ∀ name, c.other.get? name = if name ∈ declared then none else o.get? name
  /-- All members but these two are written as they were read, unless they are declared and null, and no others
  are written. -/
  back : ∀ c, codec.ofJson (.object o.entries) = .ok c → ∃ written : Dict Json,
    codec.write c = .object written.entries
      ∧ (∀ name, name ≠ "textDocumentSync" → name ≠ "completionProvider" → written.get? name
          = if name ∈ declared then (o.get? name).filter (· ≠ .null) else o.get? name)
      ∧ ∀ name, (written.get? name).isSome → (o.get? name).isSome

/-- **Of what a server announces nothing is lost that a session does not know.** -/
theorem nothing_lost (o : Dict Json) : NothingLost o := by
  have hread : ∀ {c}, codec.ofJson (.object o.entries) = .ok c → c.Holds o.entries :=
    fun h => holds_of_read (readMembers_iff.mp h)
  constructor
  · have htaken : (∃ c, codec.ofJson (.object o.entries) = .ok c) ↔ fields.Takes .document o.entries :=
      exists_congr fun _ => readMembers_iff
    rw [htaken, takes_iff]
    simp only [TextDocumentSyncCapability.takes_iff]
    exact Iff.rfl
  · exact fun c hc => (hread hc).get?_other
  · intro c hc
    have h := hread hc
    refine ⟨Dict.ofList (fields.toMembers c), rfl, fun name hsync hcompletion => ?_, fun name => ?_⟩
    · show (Assoc.ofList _).lookup name = _
      split
      · next hdeclared => exact h.lookup_declared hdeclared hsync hcompletion
      · next hother => exact h.lookup_undeclared hother
    · exact h.isSome_of_written

/-- A member that is null is left out if it is declared, and kept if it is not. -/
example : (codec.ofJson (.object [("hoverProvider", .null), ("inlayHintProvider", .null)])).map codec.write
    = .ok (.object [("inlayHintProvider", .null)]) := rfl

end ServerCapabilities

end LanguageClient
