import LanguageClient.Proofs.Json.Choice

/-!
# LanguageClient.Proofs.Json.Verbatim -- what is taken, and what is written as it was read

An object is taken as a record if each field takes what it finds there (`Fields.Takes`). A form that takes
every value and writes what it has read is `Codec.Verbatim`: a field of such a form never keeps a record from
being read, and a member that it has read is written again as it was, unless it was null.
-/

namespace LanguageClient

/-! ## Members that may be missing -/

namespace Assoc

variable {α : Type}

/-- The pairs of the keys that have a value. -/
def present (pairs : List (String × Option α)) : List (String × α) :=
  pairs.flatMap fun p => (p.2.map fun v => (p.1, v)).toList

theorem keys_present (pairs : List (String × Option α)) :
    ((present pairs).map (·.1)).Sublist (pairs.map (·.1)) := by
  induction pairs with
  | nil => exact List.Sublist.refl _
  | cons p pairs ih =>
    obtain ⟨k, _ | v⟩ := p
    · exact ih.cons k
    · exact ih.cons_cons k

theorem lookup_present {pairs : List (String × Option α)} (distinct : (pairs.map (·.1)).Nodup)
    {p : String × Option α} (hp : p ∈ pairs) : (present pairs).lookup p.1 = p.2 := by
  induction pairs with
  | nil => cases hp
  | cons q pairs ih =>
    obtain ⟨hfresh, hrest⟩ := List.nodup_cons.mp distinct
    have happend : present (q :: pairs) = (q.2.map fun v => (q.1, v)).toList ++ present pairs := rfl
    rw [happend, List.lookup_append]
    rcases List.mem_cons.mp hp with rfl | hp
    · have hnone : (present pairs).lookup p.1 = none :=
        lookup_eq_none fun hmem => hfresh ((keys_present pairs).mem hmem)
      rw [hnone, Option.or_none]
      cases p.2 <;> simp
    · have hne : p.1 ≠ q.1 := fun heq => hfresh (List.mem_map.mpr ⟨p, hp, heq⟩)
      have hother : ((q.2.map fun v => (q.1, v)).toList).lookup p.1 = none := by
        cases q.2 <;> simp [lookup_cons, hne]
      rw [hother, Option.none_or, ih hrest hp]

end Assoc

namespace Json

variable {σ α β : Type} {place : Place}

namespace Codec

variable {c : Codec α}

/-! ## Forms -/

/-- A value that may be missing is read if it is null or reads. -/
theorem optional_takes_iff {x : Option Json} :
    (∃ o, c.optional.read place (x.getD .null) = .ok o)
      ↔ ∀ j ∈ x, j = .null ∨ ∃ a, c.read place j = .ok a := by
  cases x with
  | none => exact ⟨fun _ => nofun, fun _ => ⟨none, rfl⟩⟩
  | some j =>
    rw [Option.getD_some]
    by_cases hnull : j = .null
    · subst hnull
      exact ⟨fun _ _ hj => .inl (Option.some.inj hj).symm, fun _ => ⟨none, rfl⟩⟩
    · rw [optional_read hnull]
      cases hread : c.read place j <;> simp [hnull, hread, Except.map]

/-- A value that is missing or null gives none. -/
theorem isSome_of_optional_read {x : Option Json} {o : Option α}
    (hread : c.optional.read place (x.getD .null) = .ok o) (hsome : o.isSome) : x.isSome := by
  cases x with
  | none =>
    obtain rfl : none = o := Except.ok.inj hread
    cases hsome
  | some j => rfl

/-- A form that takes every value, and writes what it has read. -/
def Verbatim (c : Codec α) : Prop := ∀ place j, ∃ a, c.read place j = .ok a ∧ c.write a = j

theorem raw_verbatim : raw.Verbatim := fun _ j => ⟨j, rfl, rfl⟩

/-- A value that was read where it may be missing is written again, unless it was null. -/
theorem Verbatim.written (h : c.Verbatim) {x : Option Json} {o : Option α}
    (hread : c.optional.read place (x.getD .null) = .ok o) : o.map c.write = x.filter (· ≠ .null) := by
  cases x with
  | none =>
    obtain rfl : none = o := Except.ok.inj hread
    rfl
  | some j =>
    rw [Option.getD_some] at hread
    by_cases hnull : j = .null
    · subst hnull
      obtain rfl : none = o := Except.ok.inj hread
      rfl
    · obtain ⟨a, ha, hwrite⟩ := h place j
      rw [optional_read hnull, ha] at hread
      obtain rfl : some a = o := Except.ok.inj hread
      simp [hwrite, hnull, Option.filter]

/-- A choice takes what one of its forms takes. -/
theorem choice_takes_iff {name : String} {forms : List (Json → Option α)} {write : α → Json} {j : Json} :
    (∃ a, (choice name forms write).read place j = .ok a) ↔ ∃ form ∈ forms, (form j).isSome := by
  have hfirst : (firstForm forms j).isSome ↔ ∃ form ∈ forms, (form j).isSome := List.findSome?_isSome_iff
  rw [← hfirst]
  simp only [choice]
  cases firstForm forms j <;> simp

theorem isSome_asForm_iff {c : Codec β} {wrap : β → α} {j : Json} :
    (asForm c wrap j).isSome ↔ ∃ b, c.read .kept j = .ok b := by
  unfold asForm
  cases c.read .kept j <;> simp

end Codec

/-! ## Fields -/

namespace Fields

variable {name : String} {members : List (String × Json)}

/-- Some fields are read from the members of an object. -/
def Takes (x : Fields σ α) (place : Place) (members : List (String × Json)) : Prop :=
  ∃ a, x.ofMembers place members = .ok a

theorem takes_map_iff {f : α → β} {x : Fields σ α} : (f <$> x).Takes place members ↔ x.Takes place members := by
  simp only [Takes, ofMembers_map_iff]
  exact ⟨fun ⟨_, a, ha, _⟩ => ⟨a, ha⟩, fun ⟨a, ha⟩ => ⟨_, a, ha, rfl⟩⟩

theorem takes_seq_iff {f : Fields σ (α → β)} {x : Fields σ α} :
    (f <*> x).Takes place members ↔ f.Takes place members ∧ x.Takes place members := by
  simp only [Takes, ofMembers_seq_iff]
  constructor
  · rintro ⟨-, g, a, hg, ha, -⟩
    exact ⟨⟨g, hg⟩, ⟨a, ha⟩⟩
  · rintro ⟨⟨g, hg⟩, ⟨a, ha⟩⟩
    exact ⟨_, g, a, hg, ha, rfl⟩

theorem takes_optional_iff {c : Codec α} {get : σ → Option α} : (optional name c get).Takes place members
    ↔ ∀ j ∈ members.lookup name, j = .null ∨ ∃ a, c.read place j = .ok a := by
  simp only [Takes, ofMembers_optional_iff]
  exact Codec.optional_takes_iff

/-- A form that takes every value never keeps a record from being read. -/
theorem takes_verbatim {c : Codec α} (h : c.Verbatim) (get : σ → Option α) :
    (optional name c get).Takes place members := by
  refine takes_optional_iff.mpr fun j _ => .inr ?_
  obtain ⟨a, ha, -⟩ := h place j
  exact ⟨a, ha⟩

/-- All members but the declared ones are kept, whatever they are. -/
theorem ofMembers_rest_iff {declared : List String} {get : σ → Dict Json} {d : Dict Json} :
    (rest declared get).ofMembers place members = .ok d
      ↔ Dict.ofList (members.filter fun m => !declared.contains m.1) = d := by
  simp [rest]

/-- What is kept of the members of an object is found under the names that are not declared. -/
theorem get?_rest (hsorted : Assoc.Sorted members) (declared : List String) (name : String) :
    (Dict.ofList (members.filter fun m => !declared.contains m.1)).get? name
      = if name ∈ declared then none else members.lookup name := by
  show (Assoc.ofList _).lookup name = _
  rw [Assoc.ofList_eq_self (List.Pairwise.filter _ hsorted),
    Assoc.lookup_filter members (fun name => !declared.contains name)]
  by_cases hname : name ∈ declared <;> simp [hname]

theorem takes_rest (declared : List String) (get : σ → Dict Json) : (rest declared get).Takes place members :=
  ⟨_, ofMembers_rest_iff.mpr rfl⟩

section Beside

variable {declared : List String} {x : Fields σ (Dict Json → α)} {get : σ → Dict Json} {s : σ}
  {g : Dict Json → α} (h : x.Keeps declared s g) (distinct : declared.Nodup)

include h distinct

/-- Of the declared members and the others that are written, the others take the place of the declared. -/
theorem Keeps.lookup_beside (name : String) :
    (Assoc.ofList ((x <*> rest declared get).toMembers s)).lookup name
      = ((get s).get? name).or ((x.toMembers s).lookup name) :=
  Assoc.lookup_ofList_append (h.keys.nodup distinct) (Assoc.nodup_keys (get s).sorted) name

/-- If no other has a declared name, what is written reads back. -/
theorem Keeps.reads_beside (hfree : ∀ name ∈ declared, (get s).get? name = none) (place : Place) :
    (x <*> rest declared get).ofMembers place (Assoc.ofList ((x <*> rest declared get).toMembers s))
      = .ok (g (get s)) := by
  refine ofMembers_seq_iff.mpr ⟨g, get s, h.reads distinct _ (fun name hname => ?_) place, ?_, rfl⟩
  · rw [h.lookup_beside distinct, hfree name hname, Option.none_or]
  · refine ofMembers_rest_iff.mpr (Dict.eq_of_get? fun name => ?_)
    rw [get?_rest (Assoc.ofList_sorted _)]
    split
    · next hname => exact (hfree name hname).symm
    · next hname => rw [h.lookup_beside distinct, h.lookup_eq_none hname, Option.or_none]

end Beside

end Fields

end Json

end LanguageClient
