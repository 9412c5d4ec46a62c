import LanguageClient.Proofs.Json.Canonical
import LanguageClient.Proofs.Json.Fields

/-!
# LanguageClient.Proofs.Json.Levels -- a bound on the levels of a value

A form that refers to itself is read with a bound on the levels that may still come. Two forms that read all
values of fewer levels alike agree (`Codec.Agree`), and what is put together from them agrees on values of
one level more (`Codec.Agree.record`), as a record reads nothing but what stands in it. So a bound that no
value reaches may be left out.
-/

namespace LanguageClient.Json

variable {σ α β : Type} {levels : Nat}

namespace Codec

/-- Values of fewer levels are read alike. -/
def Agree (levels : Nat) (c d : Codec α) : Prop :=
  ∀ place j, j.depth < levels → c.read place j = d.read place j

variable {c d : Codec α}

theorem Agree.optional (h : c.Agree levels d) : c.optional.Agree levels d.optional := by
  intro place j hj
  cases j with
  | null => rfl
  | _ => exact congrArg (Except.map some) (h place _ hj)

theorem readItems_congr {read read' : Json → Except Mismatch α} {items : List Json}
    (h : ∀ j ∈ items, read j = read' j) : readItems read items = readItems read' items := by
  induction items with
  | nil => rfl
  | cons j items ih =>
    obtain ⟨hfirst, hrest⟩ := List.forall_mem_cons.mp h
    rw [readItems, readItems, hfirst, ih hrest]

theorem Agree.list (h : c.Agree levels d) : (list c).Agree levels (list d) := by
  intro place j hj
  cases j with
  | list items =>
    refine readItems_congr fun x hx => h place x (Nat.lt_trans ?_ hj)
    exact depth_lt_of_child (j := .list items) hx
  | _ => rfl

end Codec

/-! ## Fields -/

namespace Fields

variable {name : String}

/-- Members and items of fewer levels are read alike. -/
structure Agree (levels : Nat) (x y : Fields σ α) : Prop where
  size : x.size = y.size
  ofMembers : ∀ place members, (∀ m ∈ members, m.2.depth < levels) →
    x.ofMembers place members = y.ofMembers place members
  ofItems : ∀ place items, (∀ j ∈ items, j.depth < levels) → x.ofItems place items = y.ofItems place items

theorem Agree.refl (x : Fields σ α) : x.Agree levels x := ⟨rfl, fun _ _ _ => rfl, fun _ _ _ => rfl⟩

/-- The items that are left are among those that were there. -/
def Leaves (x : Fields σ α) : Prop :=
  ∀ place items a rest, x.ofItems place items = .ok (a, rest) → rest ⊆ items

theorem leaves_nextItem {c : Codec α} {place : Place} {items rest : List Json} {a : α}
    (h : nextItem c place items = .ok (a, rest)) : rest ⊆ items := by
  obtain ⟨j, rfl, -⟩ := nextItem_iff.mp h
  exact List.subset_cons_self ..

theorem leaves_field (c : Codec α) (get : σ → α) : (field name c get).Leaves := fun _ _ _ _ => leaves_nextItem

theorem leaves_optional (c : Codec α) (get : σ → Option α) : (optional name c get).Leaves :=
  fun _ _ _ _ => leaves_nextItem

theorem Leaves.map {x : Fields σ α} (h : x.Leaves) (f : α → β) : (f <$> x).Leaves := by
  intro place items b rest hread
  obtain ⟨a, ha, -⟩ := ofItems_map_iff.mp hread
  exact h place items a rest ha

theorem Leaves.seq {f : Fields σ (α → β)} {x : Fields σ α} (hf : f.Leaves) (hx : x.Leaves) :
    (f <*> x).Leaves := by
  intro place items b rest hread
  obtain ⟨g, a, mid, hg, ha, -⟩ := ofItems_seq_iff.mp hread
  exact List.Subset.trans (hx place mid a rest ha) (hf place items g mid hg)

/-- The later fields find no items but those that the earlier fields have left. -/
theorem Agree.seq {f g : Fields σ (α → β)} {x y : Fields σ α} (hf : f.Agree levels g) (hleaves : f.Leaves)
    (hx : x.Agree levels y) : (f <*> x).Agree levels (g <*> y) where
  size := congrArg₂ (· + ·) hf.size hx.size
  ofMembers place members hmembers := by
    show (Fields.seq f x).ofMembers place members = (Fields.seq g y).ofMembers place members
    simp only [Fields.seq, hf.ofMembers place members hmembers, hx.ofMembers place members hmembers]
  ofItems place items hitems := by
    show (Fields.seq f x).ofItems place items = (Fields.seq g y).ofItems place items
    simp only [Fields.seq, ← hf.ofItems place items hitems]
    cases hread : f.ofItems place items with
    | error e => rfl
    | ok p =>
      have hleft : ∀ j ∈ p.2, j.depth < levels := fun j hj => hitems j (hleaves place items p.1 p.2 hread hj)
      simp only [hx.ofItems place p.2 hleft]

theorem agree_optional {c d : Codec α} (h : c.Agree levels d) (get : σ → Option α) :
    (optional name c get).Agree levels (optional name d get) where
  size := rfl
  ofMembers place members hmembers := by
    show member name c.optional (some none) place members = member name d.optional (some none) place members
    unfold member
    cases hlookup : members.lookup name with
    | none => rfl
    | some j => simp only [h.optional place j (hmembers _ (Assoc.mem_of_lookup hlookup))]
  ofItems place items hitems := by
    show nextItem c.optional place items = nextItem d.optional place items
    cases items with
    | nil => rfl
    | cons j items => simp only [nextItem, h.optional place j (hitems j List.mem_cons_self)]

end Fields

/-- A record reads nothing but what stands in it. -/
theorem Codec.Agree.record {x y : Fields α α} (h : x.Agree levels y) (name : String) :
    (Codec.record name x).Agree (levels + 1) (Codec.record name y) := by
  intro place j hj
  have hchild : ∀ k ∈ j.children, k.depth < levels := fun k hk => by
    have := depth_lt_of_child hk
    omega
  cases j with
  | object members =>
    have hmembers : ∀ m ∈ members, m.2.depth < levels := fun m hm => hchild m.2 (List.mem_map_of_mem hm)
    simp only [Codec.record, Codec.readMembers, h.ofMembers place members hmembers]
  | list items => simp only [Codec.record, h.ofItems place items hchild, h.size]
  | _ => rfl

end LanguageClient.Json
