import LanguageClient.Proofs.Dict
import LanguageClient.Proofs.Json.Values

/-!
# LanguageClient.Proofs.Json.Canonical -- what is read is in canonical form

Whatever the reader returns is canonical and nests no deeper than it allows (`within_of_parse?`), and
a canonical value without floating point numbers is its own normal form, so it is read exactly as
printed. `Json.children` are the values that stand in a value; they inherit all of this from it.
-/

namespace LanguageClient.Json

/-! ## Items and members -/

theorem canonicalItems_iff {xs : List Json} : CanonicalItems xs ↔ ∀ x ∈ xs, x.Canonical := by
  induction xs with
  | nil => simp [CanonicalItems]
  | cons x xs ih => simp [CanonicalItems, ih]

theorem canonicalMembers_iff {ms : List (String × Json)} :
    CanonicalMembers ms ↔ ∀ m ∈ ms, m.2.Canonical := by
  induction ms with
  | nil => simp [CanonicalMembers]
  | cons m ms ih => simp [CanonicalMembers, ih]

theorem floatFreeItems_iff {xs : List Json} : FloatFreeItems xs ↔ ∀ x ∈ xs, x.FloatFree := by
  induction xs with
  | nil => simp [FloatFreeItems]
  | cons x xs ih => simp [FloatFreeItems, ih]

theorem floatFreeMembers_iff {ms : List (String × Json)} :
    FloatFreeMembers ms ↔ ∀ m ∈ ms, m.2.FloatFree := by
  induction ms with
  | nil => simp [FloatFreeMembers]
  | cons m ms ih => simp [FloatFreeMembers, ih]

theorem plainMembers_iff {ms : List (String × Json)} : PlainMembers ms ↔ ∀ m ∈ ms, m.2.Plain := by
  induction ms with
  | nil => simp [PlainMembers]
  | cons m ms ih => simp [PlainMembers, ih]

theorem depthItems_le_iff {xs : List Json} {n : Nat} :
    depthItems xs ≤ n ↔ ∀ x ∈ xs, x.depth ≤ n := by
  induction xs with
  | nil => simp [depthItems]
  | cons x xs ih => rw [depthItems, Nat.max_le, ih, List.forall_mem_cons]

theorem depthMembers_le_iff {ms : List (String × Json)} {n : Nat} :
    depthMembers ms ≤ n ↔ ∀ m ∈ ms, m.2.depth ≤ n := by
  induction ms with
  | nil => simp [depthMembers]
  | cons m ms ih => rw [depthMembers, Nat.max_le, ih, List.forall_mem_cons]

/-! ## Normal forms -/

mutual

/-- A canonical value is its own normal form. -/
theorem normal_eq_self : ∀ (j : Json), j.Canonical → j.normal = j
  | .null, _ => rfl
  | .bool _, _ => rfl
  | .int _, _ => rfl
  | .float _, _ => rfl
  | .str _, _ => rfl
  | .list items, h => by
    rw [normal, normalItems_eq_self items h]
  | .object members, h => by
    rw [normal, normalMembers_eq_self members h.2, ofMembers, Assoc.ofList_eq_self h.1]

theorem normalItems_eq_self : ∀ (xs : List Json), CanonicalItems xs → normalItems xs = xs
  | [], _ => rfl
  | x :: xs, h => by
    rw [normalItems, normal_eq_self x h.1, normalItems_eq_self xs h.2]

theorem normalMembers_eq_self : ∀ (ms : List (String × Json)), CanonicalMembers ms →
    normalMembers ms = ms
  | [], _ => rfl
  | (k, x) :: rest, h => by
    rw [normalMembers, normal_eq_self x h.1, normalMembers_eq_self rest h.2]

end

mutual

theorem plain_of_canonical : ∀ (j : Json), j.Canonical → j.FloatFree → j.Plain
  | .null, _, _ => trivial
  | .bool _, _, _ => trivial
  | .int _, h, _ => h
  | .float _, _, h => h
  | .str _, _, _ => trivial
  | .list items, h, hf => plainItems_of_canonical items h hf
  | .object members, h, hf => plainMembers_of_canonical members h.2 hf

theorem plainItems_of_canonical : ∀ (xs : List Json), CanonicalItems xs → FloatFreeItems xs →
    PlainItems xs
  | [], _, _ => trivial
  | x :: xs, h, hf => ⟨plain_of_canonical x h.1 hf.1, plainItems_of_canonical xs h.2 hf.2⟩

theorem plainMembers_of_canonical : ∀ (ms : List (String × Json)), CanonicalMembers ms →
    FloatFreeMembers ms → PlainMembers ms
  | [], _, _ => trivial
  | (_, x) :: rest, h, hf => ⟨plain_of_canonical x h.1 hf.1, plainMembers_of_canonical rest h.2 hf.2⟩

end

/-! ## What the reader returns -/

/-- A value is canonical and nests no deeper than so many levels. -/
def Within (levels : Nat) (j : Json) : Prop := j.Canonical ∧ j.depth ≤ levels

theorem within_of_value? {n : Numeral} {j : Json} (h : n.value? = some j) : Within 0 j := by
  have hfloat : n.float?.map Json.float = some j → Within 0 j := by
    intro hmap
    obtain ⟨x, -, rfl⟩ := Option.map_eq_some_iff.mp hmap
    exact ⟨trivial, Nat.le_refl _⟩
  unfold Numeral.value? at h
  simp only at h
  -- a numeral without fraction and exponent is an integer if its range has it, and else a float
  split at h
  · split at h
    · split at h
      · next hrange =>
        obtain rfl := Option.some.inj h
        refine ⟨⟨?_, ?_⟩, Nat.le_refl _⟩ <;> omega
      · exact hfloat h
    · split at h
      · next hrange =>
        obtain rfl := Option.some.inj h
        refine ⟨⟨?_, ?_⟩, Nat.le_refl _⟩ <;> omega
      · exact hfloat h
  · exact hfloat h

theorem within_of_readScalar {cs rest : List Char} {j : Json} (h : readScalar cs = some (j, rest)) :
    Within 0 j := by
  unfold readScalar at h
  split at h
  · obtain ⟨rfl, -⟩ := Prod.mk.inj (Option.some.inj h)
    exact ⟨trivial, Nat.le_refl _⟩
  · obtain ⟨rfl, -⟩ := Prod.mk.inj (Option.some.inj h)
    exact ⟨trivial, Nat.le_refl _⟩
  · obtain ⟨rfl, -⟩ := Prod.mk.inj (Option.some.inj h)
    exact ⟨trivial, Nat.le_refl _⟩
  · obtain ⟨_, -, heq⟩ := Option.map_eq_some_iff.mp h
    obtain ⟨rfl, -⟩ := Prod.mk.inj heq
    exact ⟨trivial, Nat.le_refl _⟩
  · unfold readNumber at h
    obtain ⟨⟨n, rest'⟩, -, hvalue⟩ := Option.bind_eq_some_iff.mp h
    obtain ⟨_, hsome, heq⟩ := Option.map_eq_some_iff.mp hvalue
    obtain ⟨rfl, -⟩ := Prod.mk.inj heq
    exact within_of_value? hsome

section Sequences

variable {α : Type} {read : List Char → Option (α × List Char)} {close : Char} {P : α → Prop}

theorem forall_of_readElements (hread : ∀ cs x rest, read cs = some (x, rest) → P x) (rounds : Nat) :
    ∀ (cs : List Char) (xs : List α) (rest : List Char),
      readElements read close rounds cs = some (xs, rest) → ∀ x ∈ xs, P x := by
  -- one round for each element
  induction rounds with
  | zero => intro cs xs rest h; cases h
  | succ rounds ih =>
    intro cs xs rest h
    rw [readElements] at h
    obtain ⟨⟨x, rest'⟩, hx, h⟩ := Option.bind_eq_some_iff.mp h
    have hfirst : P x := hread _ _ _ hx
    simp only at h
    split at h
    · cases h
    · split at h
      · obtain ⟨⟨ys, _⟩, hys, heq⟩ := Option.map_eq_some_iff.mp h
        obtain ⟨rfl, -⟩ := Prod.mk.inj heq
        exact List.forall_mem_cons.mpr ⟨hfirst, ih _ _ _ hys⟩
      · split at h
        · obtain ⟨rfl, -⟩ := Prod.mk.inj (Option.some.inj h)
          simpa using hfirst
        · cases h

/-- What holds of every element that is read holds of all elements of a sequence. -/
theorem forall_of_readSequence (hread : ∀ cs x rest, read cs = some (x, rest) → P x)
    {cs rest : List Char} {xs : List α} (h : readSequence read close cs = some (xs, rest)) :
    ∀ x ∈ xs, P x := by
  unfold readSequence at h
  split at h
  · cases h
  · split at h
    · obtain ⟨rfl, -⟩ := Prod.mk.inj (Option.some.inj h)
      exact fun _ hx => absurd hx List.not_mem_nil
    · exact forall_of_readElements hread _ _ _ _ h

end Sequences

theorem forall_of_readMember {read : List Char → Option (Json × List Char)} {P : Json → Prop}
    (hread : ∀ cs j rest, read cs = some (j, rest) → P j) (cs : List Char) (m : String × Json)
    (rest : List Char) (h : readMember read cs = some (m, rest)) : P m.2 := by
  unfold readMember at h
  split at h
  · obtain ⟨⟨key, _⟩, -, h⟩ := Option.bind_eq_some_iff.mp h
    simp only at h
    split at h
    · obtain ⟨⟨j, _⟩, hj, heq⟩ := Option.map_eq_some_iff.mp h
      obtain ⟨rfl, -⟩ := Prod.mk.inj heq
      exact hread _ _ _ hj
    · cases h
  · cases h

/-- The reader of a value returns a canonical one with no more levels than it may have. -/
theorem within_of_readValue (levels : Nat) :
    ∀ (cs : List Char) (j : Json) (rest : List Char),
      readValue levels cs = some (j, rest) → Within levels j := by
  induction levels with
  | zero => exact fun _ _ _ h => within_of_readScalar h
  | succ levels ih =>
    intro cs j rest h
    unfold readValue at h
    split at h
    · obtain ⟨⟨xs, _⟩, hxs, heq⟩ := Option.map_eq_some_iff.mp h
      obtain ⟨rfl, -⟩ := Prod.mk.inj heq
      have hall := forall_of_readSequence ih hxs
      refine ⟨canonicalItems_iff.mpr fun x hx => (hall x hx).1, ?_⟩
      exact Nat.succ_le_succ (depthItems_le_iff.mpr fun x hx => (hall x hx).2)
    · obtain ⟨⟨ms, _⟩, hms, heq⟩ := Option.map_eq_some_iff.mp h
      obtain ⟨rfl, -⟩ := Prod.mk.inj heq
      have hall := forall_of_readSequence (P := fun m => Within levels m.2)
        (fun cs m rest hm => forall_of_readMember ih cs m rest hm) hms
      have hmembers : ∀ m ∈ Assoc.ofList ms, Within levels m.2 :=
        fun m hm => hall m (Assoc.mem_ofList hm)
      -- the object has its members in key order, and no others than those that were read
      refine ⟨⟨Assoc.ofList_sorted ms, canonicalMembers_iff.mpr fun m hm => (hmembers m hm).1⟩, ?_⟩
      exact Nat.succ_le_succ (depthMembers_le_iff.mpr fun m hm => (hmembers m hm).2)
    · obtain ⟨hcanonical, hdepth⟩ := within_of_readScalar h
      exact ⟨hcanonical, Nat.le_trans hdepth (Nat.zero_le _)⟩

/-- Whatever a text is read as is canonical and within the levels that a text may have. -/
theorem within_of_parse? {text : String} {j : Json} (h : parse? text = some j) :
    Within maxDepth j := by
  unfold parse? parseChars? at h
  obtain ⟨⟨j', rest⟩, hread, h⟩ := Option.bind_eq_some_iff.mp h
  simp only at h
  split at h
  · obtain rfl := Option.some.inj h
    exact within_of_readValue _ _ _ _ hread
  · cases h

/-! ## The values in a value -/

/-- The items of a list, and the values of the members of an object. -/
def children : Json → List Json
  | .list items => items
  | .object members => members.map (·.2)
  | _ => []

variable {j x : Json}

theorem canonical_of_child (h : j.Canonical) (hx : x ∈ j.children) : x.Canonical := by
  cases j with
  | list items => exact canonicalItems_iff.mp h x hx
  | object members =>
    obtain ⟨m, hm, rfl⟩ := List.mem_map.mp hx
    exact canonicalMembers_iff.mp h.2 m hm
  | _ => exact absurd hx List.not_mem_nil

theorem floatFree_of_child (h : j.FloatFree) (hx : x ∈ j.children) : x.FloatFree := by
  cases j with
  | list items => exact floatFreeItems_iff.mp h x hx
  | object members =>
    obtain ⟨m, hm, rfl⟩ := List.mem_map.mp hx
    exact floatFreeMembers_iff.mp h m hm
  | _ => exact absurd hx List.not_mem_nil

theorem depth_lt_of_child (hx : x ∈ j.children) : x.depth < j.depth := by
  cases j with
  | list items => exact Nat.lt_succ_of_le (depthItems_le_iff.mp (Nat.le_refl _) x hx)
  | object members =>
    obtain ⟨m, hm, rfl⟩ := List.mem_map.mp hx
    exact Nat.lt_succ_of_le (depthMembers_le_iff.mp (Nat.le_refl _) m hm)
  | _ => exact absurd hx List.not_mem_nil

end LanguageClient.Json
