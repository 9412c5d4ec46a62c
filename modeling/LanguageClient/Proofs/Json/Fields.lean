import LanguageClient.Json.Fields

/-!
# LanguageClient.Proofs.Json.Fields -- reading the fields of a record

A record is read if and only if each of its fields is, so what a record is read as can be told field by
field, both from the members of an object (`ofMembers_seq_iff`) and from the items of a list
(`ofItems_seq_iff`).
-/

namespace LanguageClient.Json.Fields

variable {σ α β : Type} {place : Place} {members : List (String × Json)} {items rest : List Json}

/-! ## Several fields -/

theorem ofMembers_map_iff {f : α → β} {x : Fields σ α} {b : β} :
    (f <$> x).ofMembers place members = .ok b
      ↔ ∃ a, x.ofMembers place members = .ok a ∧ f a = b := by
  show (x.ofMembers place members).map f = .ok b ↔ _
  cases x.ofMembers place members <;> simp [Except.map]

theorem ofMembers_seq_iff {f : Fields σ (α → β)} {x : Fields σ α} {b : β} :
    (f <*> x).ofMembers place members = .ok b
      ↔ ∃ g a, f.ofMembers place members = .ok g ∧ x.ofMembers place members = .ok a ∧ g a = b := by
  show (Fields.seq f x).ofMembers place members = .ok b ↔ _
  unfold Fields.seq
  cases hf : f.ofMembers place members <;> cases hx : x.ofMembers place members <;> simp [hf, hx]

@[simp] theorem toMembers_map (f : α → β) (x : Fields σ α) (s : σ) : (f <$> x).toMembers s = x.toMembers s := rfl

@[simp] theorem toMembers_seq (f : Fields σ (α → β)) (x : Fields σ α) (s : σ) :
    (f <*> x).toMembers s = f.toMembers s ++ x.toMembers s := rfl

theorem ofItems_map_iff {f : α → β} {x : Fields σ α} {b : β} :
    (f <$> x).ofItems place items = .ok (b, rest)
      ↔ ∃ a, x.ofItems place items = .ok (a, rest) ∧ f a = b := by
  show (x.ofItems place items).map _ = .ok (b, rest) ↔ _
  rcases x.ofItems place items with _ | ⟨a, left⟩
  · simp [Except.map]
  · simp only [Except.map, Except.ok.injEq, Prod.mk.injEq]
    constructor
    · rintro ⟨rfl, rfl⟩
      exact ⟨a, ⟨rfl, rfl⟩, rfl⟩
    · rintro ⟨_, ⟨rfl, rfl⟩, rfl⟩
      exact ⟨rfl, rfl⟩

theorem ofItems_seq_iff {f : Fields σ (α → β)} {x : Fields σ α} {b : β} :
    (f <*> x).ofItems place items = .ok (b, rest)
      ↔ ∃ g a mid, f.ofItems place items = .ok (g, mid) ∧ x.ofItems place mid = .ok (a, rest)
          ∧ g a = b := by
  show (Fields.seq f x).ofItems place items = .ok (b, rest) ↔ _
  unfold Fields.seq
  rcases hf : f.ofItems place items with _ | ⟨g, mid⟩
  · simp [hf]
  · rcases hx : x.ofItems place mid with _ | ⟨a, left⟩
    · simp [hf, hx, Except.map]
    · simp only [hf, hx, Except.map, Except.ok.injEq, Prod.mk.injEq]
      constructor
      · rintro ⟨rfl, rfl⟩
        exact ⟨g, a, mid, ⟨rfl, rfl⟩, hx, rfl⟩
      · rintro ⟨_, _, _, ⟨rfl, rfl⟩, hx', rfl⟩
        rw [hx] at hx'
        obtain ⟨rfl, rfl⟩ := Prod.mk.inj (Except.ok.inj hx')
        exact ⟨rfl, rfl⟩

/-! ## One field -/

/-- A field that must be there is read if it is there and reads. -/
theorem ofMembers_field_iff {name : String} {c : Codec α} {get : σ → α} {a : α} :
    (field name c get).ofMembers place members = .ok a
      ↔ ∃ j, members.lookup name = some j ∧ c.read place j = .ok a := by
  show member name c none place members = .ok a ↔ _
  unfold member
  cases members.lookup name with
  | none => simp
  | some j => cases hread : c.read place j <;> simp [hread]

/-- A field of any value that may be absent: absent and null are the same. -/
theorem ofMembers_optional_raw (name : String) (get : σ → Option Json) :
    (optional name Codec.raw get).ofMembers place members
      = .ok ((members.lookup name).filter (· ≠ .null)) := by
  show member name Codec.raw.optional (some none) place members = _
  unfold member
  cases members.lookup name with
  | none => rfl
  | some j => cases j <;> rfl

/-- A field that may be absent: absent and null are the same. -/
theorem ofMembers_optional_iff {name : String} {c : Codec α} {get : σ → Option α} {o : Option α} :
    (optional name c get).ofMembers place members = .ok o
      ↔ c.optional.read place ((members.lookup name).getD .null) = .ok o := by
  show member name c.optional (some none) place members = .ok o ↔ _
  unfold member
  cases members.lookup name with
  | none => simp [Codec.optional]
  | some j => cases hread : c.optional.read place j <;> simp [hread]

/-- The fields of a part are read from a copy of the members. -/
theorem ofMembers_flattened_iff {part : Fields α α} {get : σ → α} {a : α} :
    (flattened part get).ofMembers place members = .ok a ↔ part.ofMembers .kept members = .ok a := by
  simp only [flattened]
  cases part.ofMembers .kept members <;> simp

/-- An item is read if there is one and it reads. -/
theorem nextItem_iff {c : Codec α} {a : α} :
    nextItem c place items = .ok (a, rest) ↔ ∃ j, items = j :: rest ∧ c.read place j = .ok a := by
  unfold nextItem
  cases items with
  | nil => simp
  | cons j left =>
    cases hread : c.read place j with
    | error m => simp [hread]
    | ok a' =>
      simp only [hread, Except.ok.injEq, Prod.mk.injEq]
      constructor
      · rintro ⟨rfl, rfl⟩
        exact ⟨j, rfl, hread⟩
      · rintro ⟨_, heq, hread'⟩
        obtain ⟨rfl, rfl⟩ := List.cons.inj heq
        rw [hread] at hread'
        exact ⟨Except.ok.inj hread', rfl⟩

theorem ofItems_field_iff {name : String} {c : Codec α} {get : σ → α} {a : α} :
    (field name c get).ofItems place items = .ok (a, rest)
      ↔ ∃ j, items = j :: rest ∧ c.read place j = .ok a :=
  nextItem_iff

theorem ofItems_optional_raw_iff {name : String} {get : σ → Option Json} {x : Option Json} :
    (optional name Codec.raw get).ofItems place items = .ok (x, rest)
      ↔ ∃ j, items = j :: rest ∧ x = (some j).filter (· ≠ .null) := by
  have hread : ∀ j, Codec.raw.optional.read place j = .ok ((some j).filter (· ≠ .null)) := by
    intro j
    cases j <;> rfl
  show nextItem Codec.raw.optional place items = .ok (x, rest) ↔ _
  simp only [nextItem_iff, hread, Except.ok.injEq, @eq_comm _ x]

/-! ## Whole records -/

theorem readMembers_iff {fields : Fields α α} {a : α} :
    Codec.readMembers fields place members = .ok a ↔ fields.ofMembers place members = .ok a := by
  unfold Codec.readMembers
  cases fields.ofMembers place members <;> simp

theorem read_object_iff {name : String} {fields : Fields α α} {a : α} :
    (Codec.record name fields).read place (.object members) = .ok a
      ↔ fields.ofMembers place members = .ok a :=
  readMembers_iff

/-- A record is read from a list if its fields take all items. -/
theorem read_list_iff {name : String} {fields : Fields α α} {a : α} :
    (Codec.record name fields).read place (.list items) = .ok a
      ↔ fields.ofItems place items = .ok (a, []) := by
  simp only [Codec.record]
  rcases hitems : fields.ofItems place items with (_ | _) | ⟨b, _ | ⟨j, left⟩⟩
  · simp
  · simp
  · simp
  · cases place <;> simp

/-- A record of two fields is read from a list of exactly these, whether they may be missing from an object
or not. -/
theorem read_two_iff {γ : Type} {name : String} {c : Codec α} {d : Codec β} {x : Fields γ α} {y : Fields γ β}
    {mk : α → β → γ} {r : γ} (hx : x.ofItems = nextItem c) (hy : y.ofItems = nextItem d) :
    (Codec.record name (mk <$> x <*> y)).read place (.list items) = .ok r
      ↔ ∃ j k a b, items = [j, k] ∧ c.read place j = .ok a ∧ d.read place k = .ok b ∧ mk a b = r := by
  rw [read_list_iff, ofItems_seq_iff]
  simp only [ofItems_map_iff, hx, hy, nextItem_iff]
  constructor
  · rintro ⟨g, b, mid, ⟨a, ⟨j, rfl, ha⟩, rfl⟩, ⟨k, rfl, hb⟩, rfl⟩
    exact ⟨j, k, a, b, rfl, ha, hb, rfl⟩
  · rintro ⟨j, k, a, b, rfl, ha, hb, rfl⟩
    exact ⟨mk a, b, [k], ⟨a, ⟨j, rfl, ha⟩, rfl⟩, ⟨k, rfl, hb⟩, rfl⟩

theorem read_pair_iff {γ : Type} {name first second : String} {c : Codec α} {d : Codec β} {mk : α → β → γ}
    {getFirst : γ → α} {getSecond : γ → β} {r : γ} :
    (Codec.record name (mk <$> field first c getFirst <*> field second d getSecond)).read place (.list items)
        = .ok r
      ↔ ∃ j k a b, items = [j, k] ∧ c.read place j = .ok a ∧ d.read place k = .ok b ∧ mk a b = r :=
  read_two_iff rfl rfl

end LanguageClient.Json.Fields
