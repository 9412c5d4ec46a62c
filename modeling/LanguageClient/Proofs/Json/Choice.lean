import LanguageClient.Json.Choice
import LanguageClient.Proofs.Json.RoundTrips

/-!
# LanguageClient.Proofs.Json.Choice -- which form a value is read as

Of the forms of a choice the first that takes a value gives it, so what one form has written is read as that
form only if every form before it refuses it (`Codec.Refuses`). A record refuses an object without a member
that it needs (`Fields.Needs`), above all what another record has written under other names. A choice told by
a kind takes the kind off again before it reads the rest (`Codec.byKind_roundTrips`).
-/

namespace LanguageClient.Json

namespace Codec

variable {α β : Type} {c : Codec β} {j : Json}

/-! ## Enumerations -/

/-- Whatever tells the values of an enumeration apart finds each of them. -/
theorem find?_of_nodup {γ : Type} [BEq γ] [LawfulBEq γ] {all : List α} {key : α → γ} {a : α}
    (distinct : (all.map key).Nodup) (h : a ∈ all) : all.find? (fun b => key b == key a) = some a := by
  have hsome : (all.find? (fun b => key b == key a)).isSome :=
    List.find?_isSome.mpr ⟨a, h, beq_self_eq_true _⟩
  obtain ⟨b, hb⟩ := Option.isSome_iff_exists.mp hsome
  have hkey : key b = key a := by simpa using List.find?_some hb
  rw [hb, List.inj_on_of_nodup_map distinct (List.mem_of_find?_eq_some hb) h hkey]

theorem names_roundTrips {all : List α} {nameOf : α → String} {a : α} (distinct : (all.map nameOf).Nodup)
    (h : a ∈ all) : (names all nameOf).RoundTrips a := by
  intro place
  show named? all nameOf (nameOf a) = .ok a
  rw [named?, find?_of_nodup distinct h]

theorem uint8_read_iff {place : Place} {n : UInt8} : uint8.read place j = .ok n ↔ j = .int n.toNat := by
  constructor
  · intro hread
    cases j with
    | int m =>
      simp only [uint8, integer] at hread
      split at hread
      · next a hrange =>
        split at hrange
        · next hbounds =>
          cases hrange
          cases hread
          have hlt : m.toNat < 2 ^ 8 := by omega
          rw [UInt8.toNat_ofNat_of_lt' hlt, Int.toNat_of_nonneg hbounds.1]
        · cases hrange
      · cases hread
    | _ => cases hread
  · rintro rfl
    have hlt : n.toNat < 2 ^ 8 := n.toNat_lt
    simp only [uint8, integer]
    rw [if_pos ⟨by omega, by omega⟩, Int.toNat_natCast, UInt8.ofNat_toNat]

theorem uint8_roundTrips (n : UInt8) : uint8.RoundTrips n := fun _ => uint8_read_iff.mpr rfl

/-- A value of an enumeration is read from its number, and from nothing else. -/
theorem codes_read_iff {place : Place} {enumeration : String} {all : List α} {codeOf : α → UInt8} {a : α}
    (distinct : (all.map codeOf).Nodup) (h : a ∈ all) :
    (codes enumeration all codeOf).read place j = .ok a ↔ j = .int (codeOf a).toNat := by
  have hnumber : uint8.read place j = .ok (codeOf a) ↔ j = .int (codeOf a).toNat := uint8_read_iff
  rw [← hnumber]
  simp only [codes]
  constructor
  · intro hread
    split at hread
    · cases hread
    · next n hn =>
      split at hread
      · next found hfound =>
        cases hread
        have hcode : codeOf a = n := by simpa using List.find?_some hfound
        rw [hn, hcode]
      · cases hread
  · intro hread
    simp only [hread, find?_of_nodup distinct h]

/-! ## Forms that are tried in order -/

/-- A form takes a value of no kind. -/
def Refuses (c : Codec β) (j : Json) : Prop := ∀ place b, c.read place j ≠ .ok b

variable {forms : List (Json → Option α)} {wrap : β → α}

theorem firstForm_of_refuses (h : c.Refuses j) : firstForm (asForm c wrap :: forms) j = firstForm forms j := by
  have hnone : asForm c wrap j = none := by
    unfold asForm
    cases hread : c.read .kept j with
    | error m => rfl
    | ok b => exact absurd hread (h .kept b)
  simp only [firstForm, List.findSome?_cons, hnone]

theorem firstForm_of_read {b : β} (h : c.read .kept j = .ok b) :
    firstForm (asForm c wrap :: forms) j = some (wrap b) := by
  simp only [firstForm, List.findSome?_cons, asForm, h]

/-- The first form that takes a value gives what it is read as. -/
theorem choice_read {name : String} {write : α → Json} {a : α} (h : firstForm forms j = some a) (place : Place) :
    (choice name forms write).read place j = .ok a := by
  simp only [choice, h]

/-! ## What is refused -/

theorem list_refuses {items : List Json} (h : ∃ x ∈ items, c.Refuses x) : (list c).Refuses (.list items) := by
  intro place bs hread
  obtain ⟨x, hx, hrefuses⟩ := h
  obtain ⟨b, hb⟩ := takes_items_iff.mp ⟨bs, hread⟩ x hx
  exact hrefuses place b hb

end Codec

namespace Fields

variable {σ α β : Type} {name : String}

/-- Some fields are read only from objects that have a member of the name. -/
def Needs (x : Fields σ α) (name : String) : Prop :=
  ∀ place members a, x.ofMembers place members = .ok a → ∃ j, members.lookup name = some j

theorem needs_field (c : Codec α) (get : σ → α) : (field name c get).Needs name := by
  intro place members a hread
  obtain ⟨j, hj, -⟩ := ofMembers_field_iff.mp hread
  exact ⟨j, hj⟩

theorem Needs.map {x : Fields σ α} (h : x.Needs name) (f : α → β) : (f <$> x).Needs name := by
  intro place members b hread
  obtain ⟨a, ha, -⟩ := ofMembers_map_iff.mp hread
  exact h place members a ha

theorem Needs.before {f : Fields σ (α → β)} (h : f.Needs name) (x : Fields σ α) : (f <*> x).Needs name := by
  intro place members b hread
  obtain ⟨g, -, hg, -, -⟩ := ofMembers_seq_iff.mp hread
  exact h place members g hg

theorem Needs.last {x : Fields σ α} (h : x.Needs name) (f : Fields σ (α → β)) : (f <*> x).Needs name := by
  intro place members b hread
  obtain ⟨-, a, -, ha, -⟩ := ofMembers_seq_iff.mp hread
  exact h place members a ha

variable {fields : Fields α α} {members : List (String × Json)}

theorem Needs.refuses (h : fields.Needs name) {record : String} (hnone : members.lookup name = none) :
    (Codec.record record fields).Refuses (.object members) := by
  intro place a hread
  obtain ⟨j, hj⟩ := h place members a (read_object_iff.mp hread)
  rw [hnone] at hj
  cases hj

end Fields

/-! ## A form told by its kind -/

namespace Codec

variable {α β : Type} {kind : String} {members : List (String × Json)}

/-- The kind joins the members of an object. -/
theorem lookup_withKind (hsorted : Assoc.Sorted members) (hfree : members.lookup kindKey = none) (name : String) :
    (Assoc.ofList ((kindKey, .str kind) :: members)).lookup name
      = if name = kindKey then some (.str kind) else members.lookup name := by
  have hfresh : kindKey ∉ members.map (·.1) := by
    intro hmem
    obtain ⟨m, hm, hkey⟩ := List.mem_map.mp hmem
    have hsome := Assoc.lookup_of_mem hsorted hm
    rw [hkey, hfree] at hsome
    cases hsome
  have hdistinct : (((kindKey, Json.str kind) :: members).map (·.1)).Nodup :=
    List.nodup_cons.mpr ⟨hfresh, Assoc.nodup_keys hsorted⟩
  rw [Assoc.lookup_ofList hdistinct, Assoc.lookup_cons]

/-- Without the kind the members are left as they were. -/
theorem erase_withKind (hsorted : Assoc.Sorted members) (hfree : members.lookup kindKey = none) :
    Assoc.erase (Assoc.ofList ((kindKey, .str kind) :: members)) kindKey = members := by
  refine Assoc.eq_of_lookup (Assoc.erase_sorted (Assoc.ofList_sorted _) _) hsorted fun name => ?_
  rw [Assoc.lookup_erase, lookup_withKind hsorted hfree]
  split
  · next heq => rw [heq, hfree]
  · rfl

section Written

variable {fields : Fields β β} {names : List String} {b : β} (h : fields.Keeps names b b)
  (distinct : (kindKey :: names).Nodup)

include h distinct

/-- What the kind joins is found beside it. -/
theorem lookup_kinded (name : String) :
    (Assoc.ofList ((kindKey, .str kind) :: Assoc.ofList (fields.toMembers b))).lookup name
      = if name = kindKey then some (.str kind) else (fields.toMembers b).lookup name := by
  obtain ⟨hfresh, hnames⟩ := List.nodup_cons.mp distinct
  have hfree : (Assoc.ofList (fields.toMembers b)).lookup kindKey = none := by
    rw [h.lookup_written hnames, h.lookup_eq_none hfresh]
  rw [lookup_withKind (Assoc.ofList_sorted _) hfree, h.lookup_written hnames]

/-- What is neither the kind nor a name of the record is not found. -/
theorem lookup_kinded_eq_none {name : String} (hname : name ∉ kindKey :: names) :
    (Assoc.ofList ((kindKey, .str kind) :: Assoc.ofList (fields.toMembers b))).lookup name = none := by
  obtain ⟨hkey, hother⟩ := not_or.mp (List.mem_cons.not.mp hname)
  rw [lookup_kinded h distinct, if_neg hkey, h.lookup_eq_none hother]

/-- A record without a kind reads back under its kind. -/
theorem byKind_roundTrips {name record : String} {kinds : List (Kind α)} {write : α → Json} {wrap : β → α}
    (hkind : kinds.find? (fun k => k.kind == kind) = some (asKind kind (Codec.record record fields) wrap))
    (hwrite : write (wrap b) = withKind kind ((Codec.record record fields).write b)) :
    (byKind name kinds write).RoundTrips (wrap b) := by
  intro place
  obtain ⟨hfresh, hnames⟩ := List.nodup_cons.mp distinct
  have hfree : (Assoc.ofList (fields.toMembers b)).lookup kindKey = none := by
    rw [h.lookup_written hnames, h.lookup_eq_none hfresh]
  have hlookup : (Assoc.ofList ((kindKey, Json.str kind) :: Assoc.ofList (fields.toMembers b))).lookup kindKey
      = some (.str kind) := by
    rw [lookup_kinded h distinct, if_pos rfl]
  have hread : (asKind kind (Codec.record record fields) wrap).read (.object (Assoc.ofList (fields.toMembers b)))
      = .ok (wrap b) := by
    show ((Codec.record record fields).read .kept ((Codec.record record fields).write b)).map wrap = _
    rw [record_roundTrips h hnames .kept]
    rfl
  show (byKind name kinds write).read place (write (wrap b)) = _
  rw [hwrite]
  show (byKind name kinds write).read place (.object (Assoc.ofList (_ :: Assoc.ofList (fields.toMembers b)))) = _
  simp only [byKind, hlookup, kindOf, hkind, erase_withKind (Assoc.ofList_sorted _) hfree]
  exact hread

end Written

end Codec

end LanguageClient.Json
