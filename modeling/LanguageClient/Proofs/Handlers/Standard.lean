import LanguageClient.Handlers.Registry
import LanguageClient.Proofs.Json.Verbatim

/-!
# LanguageClient.Proofs.Handlers.Standard -- the standard handlers answer whatever they are asked

A typed handler answers every call: with its own answer if the params have the form of its method, and
otherwise that they have not, under the name of the method (`RequestMethod.handler_answers`). A question about
the configuration has the right form if and only if it holds a list of items and each of them is one
(`ConfigurationParams.read_iff`), whatever form the params and the items have. So of the five methods that the
standard registry has requests for, each is always answered (`HandlerRegistry.standard_answers`).
-/

namespace LanguageClient

open Json Json.Fields Json.Codec

/-! ## Typed handlers -/

/-- What a handler of a method answers to any params, absent params taken for null: what it is to answer if
they have the form that the method gives them, and otherwise an error that tells the method and the cause. -/
def RequestMethod.AnsweredBy {P R : Type} (m : RequestMethod P R) (handler : RequestHandler) (answer : P → Json) :
    Prop :=
  ∀ turn params,
    (∃ p, m.params.ofJson (params.getD .null) = .ok p ∧ (handler turn params).ending = .answered (.ok (answer p)))
    ∨ ∃ cause, m.params.ofJson (params.getD .null) = .error cause ∧ (handler turn params).ending
      = .answered (.error { code := -32602, message := m.name ++ ": " ++ cause.message })

theorem RequestMethod.handler_answers {P R : Type} (m : RequestMethod P R) {handle : Nat → P → Reaction R}
    {answer : P → Json} (h : ∀ turn p, ∃ result,
      (handle turn p).ending = .answered (.ok result) ∧ m.result.write result = answer p) :
    m.AnsweredBy (m.handler handle) answer := by
  intro turn params
  simp only [handler]
  cases hread : m.params.ofJson (params.getD .null) with
  | error cause => exact .inr ⟨cause, rfl, rfl⟩
  | ok p =>
    obtain ⟨result, hending, hanswer⟩ := h turn p
    refine .inl ⟨p, rfl, ?_⟩
    simp only [hending, Ending.map, Except.map, hanswer]

/-! ## Questions about the configuration -/

/-- A value that may be missing is null or a text. -/
def MayBeText (x : Option Json) : Prop := ∀ j ∈ x, j = .null ∨ ∃ s, j = .str s

section Reading

variable {place : Place}

theorem takes_string_iff {j : Json} : (∃ s, Codec.string.read place j = .ok s) ↔ ∃ s, j = .str s := by
  cases j <;> simp [Codec.string]

theorem takes_text_iff {x : Option Json} :
    (∃ o, Codec.string.optional.read place (x.getD .null) = .ok o) ↔ MayBeText x := by
  rw [optional_takes_iff]
  simp only [takes_string_iff, MayBeText]

namespace ConfigurationItem

/-- An item tells a scope and a part, each of them or none, as members or in a list of the two. -/
def IsItem : Json → Prop
  | .object members => MayBeText (members.lookup "scopeUri") ∧ MayBeText (members.lookup "section")
  | .list [scope, part] => MayBeText (some scope) ∧ MayBeText (some part)
  | _ => False

theorem takes_object_iff {members : List (String × Json)} :
    (∃ i, codec.read place (.object members) = .ok i) ↔ IsItem (.object members) := by
  have htakes : (∃ i, codec.read place (.object members) = .ok i) ↔ fields.Takes place members :=
    exists_congr fun _ => read_object_iff
  rw [htakes, fields, takes_seq_iff, takes_map_iff, takes_optional_iff, takes_optional_iff]
  simp only [takes_string_iff]
  exact Iff.rfl

theorem takes_list_iff {items : List Json} :
    (∃ i, codec.read place (.list items) = .ok i) ↔ IsItem (.list items) := by
  have hread : ∀ i, codec.read place (.list items) = .ok i
      ↔ ∃ scope part a b, items = [scope, part] ∧ Codec.string.optional.read place scope = .ok a
        ∧ Codec.string.optional.read place part = .ok b ∧ ConfigurationItem.mk a b = i :=
    fun _ => read_two_iff rfl rfl
  simp only [hread]
  -- a missing item is no missing value: a list is read only if it has both
  constructor
  · rintro ⟨-, scope, part, a, b, rfl, ha, hb, rfl⟩
    exact ⟨takes_text_iff.mp ⟨a, ha⟩, takes_text_iff.mp ⟨b, hb⟩⟩
  · intro h
    match items, h with
    | [scope, part], ⟨hscope, hpart⟩ =>
      obtain ⟨a, ha⟩ := takes_text_iff.mpr hscope
      obtain ⟨b, hb⟩ := takes_text_iff.mpr hpart
      exact ⟨_, scope, part, a, b, rfl, ha, hb, rfl⟩

/-- A value is read as an item if and only if it is one. -/
theorem takes_iff {j : Json} : (∃ i, codec.read place j = .ok i) ↔ IsItem j := by
  cases j with
  | object members => exact takes_object_iff
  | list items => exact takes_list_iff
  | _ => exact ⟨nofun, nofun⟩

end ConfigurationItem

namespace ConfigurationParams

/-- The items that params hold, as a member of their own or as the only item of a list. -/
def items? : Json → Option (List Json)
  | .object members =>
    match members.lookup "items" with
    | some (.list items) => some items
    | _ => none
  | .list [.list items] => some items
  | _ => none

/-- Params are read as their items are, in order. -/
theorem codec_read_iff {j : Json} {p : ConfigurationParams} : codec.read place j = .ok p
    ↔ ∃ items, items? j = some items ∧ readItems (ConfigurationItem.codec.read place) items = .ok p.items := by
  cases j with
  | object members =>
    simp only [codec, read_object_iff, fields, ofMembers_map_iff, ofMembers_field_iff, list_read_iff]
    constructor
    · rintro ⟨as, ⟨_, hlookup, items, rfl, hitems⟩, rfl⟩
      exact ⟨items, by simp only [items?, hlookup], hitems⟩
    · rintro ⟨items, hheld, hitems⟩
      simp only [items?] at hheld
      split at hheld
      · next hlookup =>
        cases hheld
        exact ⟨p.items, ⟨_, hlookup, items, rfl, hitems⟩, rfl⟩
      · cases hheld
  | list js =>
    simp only [codec, read_list_iff, fields, ofItems_map_iff, ofItems_field_iff, list_read_iff]
    constructor
    · rintro ⟨as, ⟨_, rfl, items, rfl, hitems⟩, rfl⟩
      exact ⟨items, rfl, hitems⟩
    · rintro ⟨items, hheld, hitems⟩
      match js, hheld with
      | [.list _], rfl => exact ⟨p.items, ⟨_, rfl, items, rfl, hitems⟩, rfl⟩
  | _ => exact ⟨nofun, nofun⟩

/-- **Params are read if and only if they hold a list of items**, and as many are read as they hold. -/
theorem read_iff {j : Json} {n : ℕ} : (∃ p, codec.read place j = .ok p ∧ p.items.length = n)
    ↔ ∃ items, items? j = some items ∧ (∀ x ∈ items, ConfigurationItem.IsItem x) ∧ items.length = n := by
  simp only [codec_read_iff, ← @ConfigurationItem.takes_iff place, ← Codec.takes_items_iff]
  constructor
  · rintro ⟨p, ⟨items, hheld, hitems⟩, rfl⟩
    exact ⟨items, hheld, ⟨p.items, hitems⟩, (readItems_iff.mp hitems).length_eq⟩
  · rintro ⟨items, hheld, ⟨as, hitems⟩, rfl⟩
    exact ⟨⟨as⟩, ⟨items, hheld, hitems⟩, (readItems_iff.mp hitems).length_eq.symm⟩

example : (Method.workspaceConfiguration.handler HandlerRegistry.unconfigured 0
    (some (.list [.list [.list [.null, .str "editor"], .object []]]))).ending
      = .answered (.ok (.list [.null, .null])) := rfl

end ConfigurationParams

end Reading

/-! ## The standard registry -/

namespace HandlerRegistry

/-- A registry has a handler of requests for a method, which answers any params. -/
def Answers {P R : Type} (r : HandlerRegistry) (m : RequestMethod P R) (answer : P → Json) : Prop :=
  ∃ handler, r.requestHandler? m.name = some handler ∧ m.AnsweredBy handler answer

/-- The methods that the standard registry has requests for. -/
theorem requestHandler?_standard (method : String) : (standard.requestHandler? method).isSome
    ↔ method ∈ ["window/workDoneProgress/create", "client/registerCapability", "client/unregisterCapability",
      "workspace/configuration", "window/showMessageRequest"] := by
  constructor
  · intro hsome
    simp only [requestHandler?] at hsome
    split at hsome
    · next handler hget =>
      have hmem := Assoc.mem_ofList (Assoc.mem_of_lookup hget)
      -- of the entries that are listed, those for notifications are ruled out
      simp only [List.mem_cons, Prod.mk.injEq, HandlerEntry.request.injEq, reduceCtorEq, and_false,
        List.not_mem_nil, or_false] at hmem
      rcases hmem with ⟨rfl, -⟩ | ⟨rfl, -⟩ | ⟨rfl, -⟩ | ⟨rfl, -⟩ | ⟨rfl, -⟩ <;> decide
    · cases hsome
  · intro hmem
    simp only [List.mem_cons, List.not_mem_nil, or_false] at hmem
    rcases hmem with rfl | rfl | rfl | rfl | rfl <;> rfl

/-- **The standard registry answers every params of the methods that it has requests for**: a question about
the configuration by a null for each item, what has the form of another of these methods by null, and anything
else by an error. A question is of the right form if and only if it holds a list of items. -/
theorem standard_answers :
    (∀ method, (standard.requestHandler? method).isSome
      ↔ method ∈ ["window/workDoneProgress/create", "client/registerCapability", "client/unregisterCapability",
        "workspace/configuration", "window/showMessageRequest"])
      ∧ standard.Answers Method.workDoneProgressCreate (fun _ => .null)
      ∧ standard.Answers Method.registerCapability (fun _ => .null)
      ∧ standard.Answers Method.unregisterCapability (fun _ => .null)
      ∧ standard.Answers Method.showMessageRequest (fun _ => .null)
      ∧ standard.Answers Method.workspaceConfiguration (fun p => .list (List.replicate p.items.length .null))
      ∧ ∀ j n, (∃ p, Method.workspaceConfiguration.params.ofJson j = .ok p ∧ p.items.length = n)
        ↔ ∃ items, ConfigurationParams.items? j = some items ∧ (∀ x ∈ items, ConfigurationItem.IsItem x)
          ∧ items.length = n := by
  refine ⟨requestHandler?_standard, ?_, ?_, ?_, ?_, ?_, fun j n => ConfigurationParams.read_iff⟩
  · exact ⟨_, rfl, RequestMethod.handler_answers _ fun _ _ => ⟨_, rfl, rfl⟩⟩
  · exact ⟨_, rfl, RequestMethod.handler_answers _ fun _ _ => ⟨_, rfl, rfl⟩⟩
  · exact ⟨_, rfl, RequestMethod.handler_answers _ fun _ _ => ⟨_, rfl, rfl⟩⟩
  · exact ⟨_, rfl, RequestMethod.handler_answers _ fun _ _ => ⟨_, rfl, rfl⟩⟩
  · exact ⟨_, rfl, RequestMethod.handler_answers _ fun _ _ => ⟨_, rfl, congrArg Json.list (List.map_id _)⟩⟩

end HandlerRegistry

end LanguageClient
