import LanguageClient.Proofs.Dict
import LanguageClient.Proofs.Json.Fields

/-!
# LanguageClient.Proofs.Json.RoundTrips -- what is written reads back

A form is put together from other forms, and reads back what it has written if they do. For records this is
said of their fields one by one: `Fields.Keeps` tells the names under which some fields are written, and that
they are read from every object that has the same under these names, whatever else it has. So two lists of
fields keep what each of them does, provided that no name is used twice (`Fields.Keeps.seq`), and a record
whose fields are kept round trips (`Codec.record_roundTrips`).
-/

namespace LanguageClient.Json

namespace Codec

variable {α : Type} {c : Codec α}

/-! ## Scalars -/

theorem bool_roundTrips (b : Bool) : bool.RoundTrips b := fun _ => rfl

theorem string_roundTrips (s : String) : string.RoundTrips s := fun _ => rfl

/-- An integer reads back if its range has it. -/
theorem integer_roundTrips {wanted : String} {ofInt? : Int → Option α} {toInt : α → Int} {a : α}
    (h : ofInt? (toInt a) = some a) : (integer wanted ofInt? toInt).RoundTrips a := by
  intro place
  simp only [integer, h]

theorem uint32_roundTrips (n : UInt32) : uint32.RoundTrips n := by
  apply integer_roundTrips
  have hlt : n.toNat < 2 ^ 32 := n.toNat_lt
  rw [if_pos ⟨by omega, by omega⟩, Int.toNat_natCast, UInt32.ofNat_toNat]

theorem int32_roundTrips (n : Int32) : int32.RoundTrips n := by
  apply integer_roundTrips
  rw [if_pos ⟨n.le_toInt, n.toInt_lt⟩, Int32.ofInt_toInt]

theorem int64_roundTrips (n : Int64) : int64.RoundTrips n := by
  apply integer_roundTrips
  rw [if_pos ⟨n.le_toInt, n.toInt_lt⟩, Int64.ofInt_toInt]

/-! ## Compound forms -/

/-- What is not null is read as a value that is there. -/
theorem optional_read {j : Json} (h : j ≠ .null) (place : Place) :
    c.optional.read place j = (c.read place j).map some := by
  cases j with
  | null => exact absurd rfl h
  | _ => rfl

/-- A value that may be missing reads back if it is not written as null. -/
theorem optional_roundTrips {o : Option α} (h : ∀ a ∈ o, c.RoundTrips a)
    (hnull : ∀ a, c.write a ≠ .null := by nofun) : c.optional.RoundTrips o := by
  intro place
  cases o with
  | none => rfl
  | some a => exact (optional_read (hnull a) place).trans (congrArg (Except.map some) (h a rfl place))

/-- Items are read if each of them is. -/
theorem readItems_iff {read : Json → Except Mismatch α} {items : List Json} {as : List α} :
    readItems read items = .ok as ↔ List.Forall₂ (fun j a => read j = .ok a) items as := by
  induction items generalizing as with
  | nil => simp [readItems, eq_comm]
  | cons j items ih =>
    rw [readItems, List.forall₂_cons_left_iff]
    cases hread : read j with
    | error m => simp
    | ok a =>
      cases hrest : readItems read items with
      | error m => simp [← ih, hrest, Except.map]
      | ok rest => simp [← ih, hrest, Except.map, eq_comm]

theorem takes_items_iff {read : Json → Except Mismatch α} {items : List Json} :
    (∃ as, readItems read items = .ok as) ↔ ∀ j ∈ items, ∃ a, read j = .ok a := by
  simp only [readItems_iff]
  induction items with
  | nil => simp
  | cons j items ih =>
    simp only [List.forall_mem_cons, ← ih, List.forall₂_cons_left_iff]
    constructor
    · rintro ⟨_, a, as, ha, has, rfl⟩
      exact ⟨⟨a, ha⟩, as, has⟩
    · rintro ⟨⟨a, ha⟩, as, has⟩
      exact ⟨_, a, as, ha, has, rfl⟩

theorem list_read_iff {place : Place} {j : Json} {as : List α} :
    (list c).read place j = .ok as ↔ ∃ items, j = .list items ∧ readItems (c.read place) items = .ok as := by
  cases j <;> simp [list]

theorem readItems_map {read : Json → Except Mismatch α} {as : List α}
    (h : ∀ a ∈ as, read (c.write a) = .ok a) : readItems read (as.map c.write) = .ok as :=
  readItems_iff.mpr (List.forall₂_map_left_iff.mpr (List.forall₂_same.mpr h))

theorem list_roundTrips {as : List α} (h : ∀ a ∈ as, c.RoundTrips a) : (list c).RoundTrips as :=
  fun place => readItems_map fun a ha => h a ha place

theorem readEntries_map {read : Json → Except Mismatch α} {entries : List (String × α)}
    (h : ∀ e ∈ entries, read (c.write e.2) = .ok e.2) :
    readEntries read (entries.map fun e => (e.1, c.write e.2)) = .ok entries := by
  induction entries with
  | nil => rfl
  | cons e entries ih =>
    obtain ⟨hfirst, hrest⟩ := List.forall_mem_cons.mp h
    rw [List.map_cons, readEntries, hfirst]
    simp only [ih hrest, Except.map]

theorem dict_roundTrips {d : Dict α} (h : ∀ e ∈ d.entries, c.RoundTrips e.2) : (dict c).RoundTrips d := by
  intro place
  have hsorted : Assoc.Sorted (d.entries.map fun e => (e.1, c.write e.2)) := List.pairwise_map.mpr d.sorted
  -- the entries are in key order, so they are written as they stand
  have hwrite : (dict c).write d = .object (d.entries.map fun e => (e.1, c.write e.2)) :=
    congrArg Json.object (Assoc.ofList_eq_self hsorted)
  have hback : Dict.ofList d.entries = d := by
    obtain ⟨entries, sorted⟩ := d
    exact Dict.mk.injEq .. |>.mpr (Assoc.ofList_eq_self sorted)
  rw [hwrite]
  show (readEntries (c.read place) _).map Dict.ofList = .ok d
  rw [readEntries_map fun e he => h e he place]
  exact congrArg Except.ok hback

end Codec

/-! ## Fields -/

namespace Fields

variable {σ α β : Type} {names more : List String} {s : σ} {a : α}

/-- Some fields of a record `s` are written under the given names, in this order, and read as `a` from all
members that have the same under these names. -/
structure Keeps (x : Fields σ α) (names : List String) (s : σ) (a : α) : Prop where
  keys : ((x.toMembers s).map (·.1)).Sublist names
  reads : names.Nodup → ∀ members : List (String × Json),
    (∀ name ∈ names, members.lookup name = (x.toMembers s).lookup name) →
    ∀ place, x.ofMembers place members = .ok a

theorem Keeps.map {x : Fields σ α} (h : x.Keeps names s a) (f : α → β) : (f <$> x).Keeps names s (f a) where
  keys := h.keys
  reads distinct members hsame place := ofMembers_map_iff.mpr ⟨a, h.reads distinct members hsame place, rfl⟩

/-- Nothing is written under a name that is not among the names. -/
theorem Keeps.lookup_eq_none {x : Fields σ α} (h : x.Keeps names s a) {name : String} (hname : name ∉ names) :
    (x.toMembers s).lookup name = none :=
  Assoc.lookup_eq_none fun hmem => hname (h.keys.mem hmem)

theorem Keeps.seq {f : Fields σ (α → β)} {x : Fields σ α} {g : α → β} (hf : f.Keeps names s g)
    (hx : x.Keeps more s a) : (f <*> x).Keeps (names ++ more) s (g a) where
  keys := by
    rw [toMembers_seq, List.map_append]
    exact hf.keys.append hx.keys
  reads distinct members hsame place := by
    obtain ⟨hnames, hmore, hapart⟩ := List.nodup_append'.mp distinct
    have hlookup : ∀ name, ((f <*> x).toMembers s).lookup name
        = ((f.toMembers s).lookup name).or ((x.toMembers s).lookup name) := fun name => List.lookup_append
    refine ofMembers_seq_iff.mpr ⟨g, a, hf.reads hnames members ?_ place, hx.reads hmore members ?_ place, rfl⟩
    · intro name hmem
      rw [hsame name (List.mem_append_left _ hmem), hlookup, hx.lookup_eq_none (hapart hmem), Option.or_none]
    · intro name hmem
      have hother : name ∉ names := fun h => hapart h hmem
      rw [hsame name (List.mem_append_right _ hmem), hlookup, hf.lookup_eq_none hother, Option.none_or]

section One

variable {name : String} {c : Codec α}

theorem keeps_field {get : σ → α} (h : c.RoundTrips (get s)) : (field name c get).Keeps [name] s (get s) where
  keys := List.Sublist.refl _
  reads _ members hsame place := by
    have hlookup : members.lookup name = some (c.write (get s)) :=
      (hsame name List.mem_cons_self).trans (by simp [field])
    exact ofMembers_field_iff.mpr ⟨_, hlookup, h place⟩

theorem toMembers_optional (get : σ → Option α) (s : σ) :
    (optional name c get).toMembers s = ((get s).map fun a => (name, c.write a)).toList := by
  simp only [optional]
  cases get s <;> rfl

theorem keeps_optional {get : σ → Option α} (h : c.optional.RoundTrips (get s)) :
    (optional name c get).Keeps [name] s (get s) where
  keys := by
    rw [toMembers_optional]
    cases get s
    · exact List.nil_sublist _
    · exact List.Sublist.refl _
  reads _ members hsame place := by
    have hlookup : (members.lookup name).getD .null = c.optional.write (get s) := by
      rw [hsame name List.mem_cons_self, toMembers_optional]
      cases get s <;> simp [Codec.optional]
    exact ofMembers_optional_iff.mpr (hlookup ▸ h place)

theorem keeps_optional_all {get : σ → Option α} (h : ∀ a, c.RoundTrips a)
    (hnull : ∀ a, c.write a ≠ .null := by nofun) : (optional name c get).Keeps [name] s (get s) :=
  keeps_optional (Codec.optional_roundTrips (fun a _ => h a) hnull)

theorem keeps_nullable {get : σ → Option α} (h : c.optional.RoundTrips (get s)) :
    (nullable name c get).Keeps [name] s (get s) where
  keys := List.Sublist.refl _
  reads _ members hsame place := by
    have hlookup : members.lookup name = some (c.optional.write (get s)) :=
      (hsame name List.mem_cons_self).trans (by simp [nullable])
    show member name c.optional (some none) place members = _
    simp only [member, hlookup, h place]

end One

/-- The fields of a part stand among those of the record, under the names that they have in the part. -/
theorem keeps_flattened {part : Fields β β} {get : σ → β} (h : part.Keeps names (get s) (get s)) :
    (flattened part get).Keeps names s (get s) where
  keys := h.keys
  reads distinct members hsame _ := ofMembers_flattened_iff.mpr (h.reads distinct members hsame .kept)

/-- The members of a record that was written. -/
theorem Keeps.lookup_written {fields : Fields α α} (h : fields.Keeps names a a) (distinct : names.Nodup)
    (name : String) : (Assoc.ofList (fields.toMembers a)).lookup name = (fields.toMembers a).lookup name :=
  Assoc.lookup_ofList (h.keys.nodup distinct) name

end Fields

/-! ## Records -/

namespace Codec

variable {α : Type} {fields : Fields α α} {names : List String} {a : α}

theorem record_roundTrips {name : String} (h : fields.Keeps names a a) (distinct : names.Nodup) :
    (record name fields).RoundTrips a :=
  fun place => Fields.read_object_iff.mpr
    (h.reads distinct _ (fun name _ => h.lookup_written distinct name) place)

theorem openRecord_roundTrips {name : String} (h : fields.Keeps names a a) (distinct : names.Nodup) :
    (openRecord name fields).RoundTrips a :=
  fun place => Fields.readMembers_iff.mpr
    (h.reads distinct _ (fun name _ => h.lookup_written distinct name) place)

end Codec

end LanguageClient.Json
