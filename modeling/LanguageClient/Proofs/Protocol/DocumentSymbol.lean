import LanguageClient.Proofs.Json.Levels
import LanguageClient.Proofs.Protocol.Position
import LanguageClient.Protocol.Symbol

/-!
# LanguageClient.Proofs.Protocol.DocumentSymbol -- trees of symbols read back as written

The reader of a tree is given a bound on its levels; no value reaches it, so a symbol is read as the record of
its fields whose children are read in the same way (`DocumentSymbol.read_eq`), and it is written so, too. By
induction on the tree every symbol round trips. A list of symbols is told from a flat one by its first symbol,
which names no `location`, unless it is empty. So an answer comes back with all its symbols, each in its place
within its parent (`DocumentSymbolResponse.symbols_kept`).
-/

namespace LanguageClient

open Json Json.Fields Json.Codec

/-! ## Symbols of a tree -/

namespace DocumentSymbol

/-! ### No value reaches the bound -/

theorem leaves_headFields : headFields.Leaves := by
  unfold headFields
  exact ((((((leaves_field _ _).map _).seq (leaves_optional _ _)).seq (leaves_field _ _)).seq
    (leaves_optional _ _)).seq (leaves_field _ _)).seq (leaves_field _ _)

/-- Symbols whose children are read alike are read alike, one level further. -/
theorem agree_record {levels : Nat} {c d : Codec DocumentSymbol} (h : c.Agree levels d) :
    (Codec.record "DocumentSymbol" (fields c)).Agree (levels + 1) (Codec.record "DocumentSymbol" (fields d)) :=
  Codec.Agree.record ((Fields.Agree.refl (node <$> headFields)).seq (leaves_headFields.map node)
    (agree_optional h.list (·.children))) "DocumentSymbol"

/-- What a value is read as does not hang on the bound. -/
theorem readWithin_eq {levels : Nat} : ∀ {more : Nat} {place : Place} {j : Json}, j.depth < levels →
    j.depth < more → readWithin levels place j = readWithin more place j := by
  induction levels with
  | zero => exact fun h _ => absurd h (Nat.not_lt_zero _)
  | succ levels ih =>
    intro more place j hlevels hmore
    obtain ⟨more, rfl⟩ := Nat.exists_eq_add_one_of_ne_zero (Nat.ne_zero_of_lt hmore)
    -- what stands in the value has fewer levels than it, so both bounds are enough for it
    have hagree : Codec.Agree j.depth ⟨readWithin levels, toJson⟩ ⟨readWithin more, toJson⟩ :=
      fun place k hk => ih (Nat.lt_of_lt_of_le hk (Nat.le_of_lt_succ hlevels))
        (Nat.lt_of_lt_of_le hk (Nat.le_of_lt_succ hmore))
    exact agree_record hagree place j (Nat.lt_succ_self _)

/-- A symbol is read as a record whose children are symbols. -/
theorem read_eq (place : Place) (j : Json) :
    codec.read place j = (Codec.record "DocumentSymbol" (fields codec)).read place j := by
  have hagree : Codec.Agree j.depth ⟨readWithin j.depth, toJson⟩ codec :=
    fun place k hk => readWithin_eq hk (Nat.lt_succ_self _)
  exact agree_record hagree place j (Nat.lt_succ_self _)

/-! ### What is written -/

theorem toJsonAll_eq (symbols : List DocumentSymbol) : toJsonAll symbols = symbols.map codec.write := by
  induction symbols with
  | nil => rfl
  | cons s symbols ih => rw [toJsonAll, ih, List.map_cons, codec]

/-- A symbol is written as a record whose children are symbols. -/
theorem write_eq (s : DocumentSymbol) : codec.write s = (Codec.record "DocumentSymbol" (fields codec)).write s := by
  obtain ⟨head, _ | children⟩ := s
  · exact congrArg Json.ofMembers (List.append_nil _).symm
  · show Json.ofMembers (_ ++ [(childrenKey, Json.list (toJsonAll children))]) = _
    rw [toJsonAll_eq]
    rfl

/-! ### Both together -/

theorem keeps_headFields (s : DocumentSymbol) :
    headFields.Keeps ["name", "detail", "kind", "deprecated", "range", "selectionRange"] s s.head :=
  ((((((@keeps_field _ _ s _ _ (·.head.name) (string_roundTrips _)).map SymbolHead.mk).seq
    (@keeps_optional_all _ _ s _ _ (·.head.detail) string_roundTrips nofun)).seq
    (@keeps_field _ _ s _ _ (·.head.kind) (uint8_roundTrips _))).seq
    (@keeps_optional_all _ _ s _ _ (·.head.outdated) bool_roundTrips nofun)).seq
    (@keeps_field _ _ s _ _ (·.head.range) (Range.roundTrips _))).seq
    (@keeps_field _ _ s _ _ (·.head.selectionRange) (Range.roundTrips _))

/-- The names of the members of a symbol. -/
def names : List String := ["name", "detail", "kind", "deprecated", "range", "selectionRange", childrenKey]

section Node

variable {head : SymbolHead} {children : Option (List DocumentSymbol)}
  (h : ∀ symbols ∈ children, ∀ s ∈ symbols, codec.RoundTrips s)

include h

theorem keeps : (fields codec).Keeps names (node head children) (node head children) :=
  ((keeps_headFields (node head children)).map node).seq
    (keeps_optional (optional_roundTrips fun symbols hsymbols => list_roundTrips (h symbols hsymbols)))

/-- A symbol round trips if its children do. -/
theorem roundTrips_node : codec.RoundTrips (node head children) := by
  intro place
  rw [write_eq, read_eq]
  exact record_roundTrips (keeps h) (by decide) place

end Node

mutual

theorem roundTrips : ∀ s : DocumentSymbol, codec.RoundTrips s
  | node _ none => roundTrips_node nofun
  | node _ (some children) => roundTrips_node fun _ heq => Option.some.inj heq ▸ roundTrips_all children

theorem roundTrips_all : ∀ symbols : List DocumentSymbol, ∀ s ∈ symbols, codec.RoundTrips s
  | [] => nofun
  | s :: symbols => List.forall_mem_cons.mpr ⟨roundTrips s, roundTrips_all symbols⟩

end

/-! ### Each in its place -/

/-- The symbols in a symbol, in order. -/
def inner (s : DocumentSymbol) : List DocumentSymbol := s.children.getD []

/-- The values in the list that an object has under a name. -/
def listed (name : String) : Json → List Json
  | .object members =>
    match members.lookup name with
    | some (.list items) => items
    | _ => []
  | _ => []

/-- What one comes to on a path that goes from each step to the child of a number. -/
def descendant? {α : Type} (children : α → List α) : α → List Nat → Option α
  | a, [] => some a
  | a, i :: path => (children a)[i]?.bind fun child => descendant? children child path

/-- Where the children of an image are the images of the children, paths lead to images. -/
theorem descendant?_map {α β : Type} {f : α → β} {children : α → List α} {children' : β → List β}
    (h : ∀ a, children' (f a) = (children a).map f) (path : List Nat) :
    ∀ a, descendant? children' (f a) path = (descendant? children a path).map f := by
  induction path with
  | nil => exact fun _ => rfl
  | cons i path ih =>
    intro a
    rw [descendant?, descendant?, h, List.getElem?_map]
    cases (children a)[i]? with
    | none => rfl
    | some child => exact ih child

/-- The members of a symbol that was written. -/
theorem lookup_written (s : DocumentSymbol) (name : String) :
    (Assoc.ofList ((fields codec).toMembers s)).lookup name = ((fields codec).toMembers s).lookup name := by
  obtain ⟨head, children⟩ := s
  exact (keeps fun _ _ s _ => roundTrips s).lookup_written (by decide) name

theorem lookup_eq_none (s : DocumentSymbol) {name : String} (h : name ∉ names) :
    (Assoc.ofList ((fields codec).toMembers s)).lookup name = none := by
  rw [lookup_written]
  obtain ⟨head, children⟩ := s
  exact (keeps fun _ _ s _ => roundTrips s).lookup_eq_none h

/-- The children of a symbol are written in a list under their name. -/
theorem listed_write (s : DocumentSymbol) : listed childrenKey (codec.write s) = s.inner.map codec.write := by
  have hlookup : (Assoc.ofList ((fields codec).toMembers s)).lookup childrenKey
      = s.children.map fun children => (list codec).write children := by
    have hhead : (headFields.toMembers s).lookup childrenKey = none :=
      (keeps_headFields s).lookup_eq_none (by decide)
    rw [lookup_written, fields, toMembers_seq, toMembers_map, List.lookup_append, hhead, Option.none_or,
      toMembers_optional]
    cases s.children <;> simp
  rw [write_eq]
  show (match (Assoc.ofList ((fields codec).toMembers s)).lookup childrenKey with
    | some (.list items) => items
    | _ => []) = _
  rw [hlookup, inner]
  cases s.children <;> rfl

end DocumentSymbol

/-! ## Symbols of a flat list -/

namespace SymbolInformation

theorem keeps (i : SymbolInformation) :
    fields.Keeps ["name", "kind", "deprecated", "location", "containerName"] i i :=
  (((((keeps_field (string_roundTrips i.name)).map SymbolInformation.mk).seq
    (keeps_field (uint8_roundTrips i.kind))).seq
    (keeps_optional_all bool_roundTrips)).seq
    (keeps_field i.location.roundTrips)).seq
    (keeps_optional_all string_roundTrips)

theorem roundTrips (i : SymbolInformation) : codec.RoundTrips i := record_roundTrips i.keeps (by decide)

/-- A symbol of a tree names no location, so it is none of a flat list. -/
theorem refuses_node (s : DocumentSymbol) : codec.Refuses (DocumentSymbol.codec.write s) := by
  have needed : fields.Needs "location" := by
    unfold fields
    exact ((needs_field _ _).last _).before _
  rw [DocumentSymbol.write_eq]
  exact needed.refuses (s.lookup_eq_none (by decide))

end SymbolInformation

/-! ## Answers -/

namespace DocumentSymbolResponse

/-- What an answer comes back as: a list of no symbols of a tree is one of a flat list. -/
def reread : DocumentSymbolResponse → DocumentSymbolResponse
  | nested [] => flat []
  | r => r

theorem length_reread (r : DocumentSymbolResponse) : r.reread.length = r.length := by
  rcases r with symbols | _ | ⟨s, symbols⟩ <;> rfl

theorem write_nested (symbols : List DocumentSymbol) :
    codec.write (nested symbols) = (list DocumentSymbol.codec).write symbols :=
  congrArg Json.list (DocumentSymbol.toJsonAll_eq symbols)

theorem read_write (r : DocumentSymbolResponse) (place : Place) :
    codec.read place (codec.write r) = .ok r.reread := by
  refine choice_read ?_ place
  rcases r with symbols | _ | ⟨s, symbols⟩
  · exact firstForm_of_read (list_roundTrips (fun i _ => i.roundTrips) .kept)
  · rfl
  · rw [write_nested]
    -- the first symbol is enough for the flat form to refuse the list
    have hrefuses : (list SymbolInformation.codec).Refuses ((list DocumentSymbol.codec).write (s :: symbols)) :=
      list_refuses ⟨_, List.mem_cons_self, SymbolInformation.refuses_node s⟩
    exact (firstForm_of_refuses hrefuses).trans
      (firstForm_of_read (list_roundTrips (fun s _ => s.roundTrips) .kept))

/-- All symbols of an answer come back, each in its place. -/
structure KeepsSymbols (r : DocumentSymbolResponse) : Prop where
  /-- The answer is read as it was, but for a list of no symbols of a tree. -/
  back : ∀ place, codec.read place (codec.write r) = .ok r.reread
  /-- Whatever it is read as, it has as many symbols. -/
  length : ∀ place back, codec.read place (codec.write r) = .ok back → back.length = r.length
  /-- A tree with a symbol is never taken for a flat list. -/
  neverFlat : ∀ s symbols, r = nested (s :: symbols) →
    ∀ place infos, codec.read place (codec.write r) ≠ .ok (flat infos)
  /-- In what is written of a tree, every path leads to what is written of the symbol to which it leads in the
  tree, and to nothing if it leads to none. -/
  placed : ∀ symbols, r = nested symbols → codec.write r = .list (symbols.map DocumentSymbol.codec.write)
    ∧ ∀ s ∈ symbols, ∀ path,
      DocumentSymbol.descendant? (DocumentSymbol.listed "children") (DocumentSymbol.codec.write s) path
        = (DocumentSymbol.descendant? DocumentSymbol.inner s path).map DocumentSymbol.codec.write

/-- **A tree of symbols comes back as it was**, however deep and broad it is. -/
theorem symbols_kept (r : DocumentSymbolResponse) : r.KeepsSymbols := by
  constructor
  · exact r.read_write
  · intro place back hback
    rw [r.read_write] at hback
    rw [← Except.ok.inj hback, length_reread]
  · rintro s symbols rfl place infos hback
    rw [read_write] at hback
    cases hback
  · rintro symbols rfl
    exact ⟨write_nested symbols, fun s _ path =>
      DocumentSymbol.descendant?_map DocumentSymbol.listed_write path s⟩

end DocumentSymbolResponse

end LanguageClient
