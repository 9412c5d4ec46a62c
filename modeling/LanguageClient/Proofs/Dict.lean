import LanguageClient.Dict
import Mathlib.Data.List.Nodup

/-!
# LanguageClient.Proofs.Dict -- looking up in dictionaries

Inserting sets the value of its key and of no other (`lookup_insert`), and taking a key out leaves the
others (`lookup_erase`). So a dictionary made of pairs with distinct keys has their values
(`lookup_ofList`), and is the list of the pairs in key order, however they were ordered (`ofList_eq_self`,
`ofList_of_perm`).
-/

namespace LanguageClient.Assoc

variable {α : Type}

theorem lookup_cons (l : String) (v : α) (rest : List (String × α)) (k : String) :
    List.lookup k ((l, v) :: rest) = if k = l then some v else rest.lookup k := by
  by_cases h : k = l
  · simp [h]
  · rw [List.lookup_cons, beq_false_of_ne h, if_neg h]

theorem lookup_insert (key : String) (value : α) (pairs : List (String × α)) (k : String) :
    (insert key value pairs).lookup k = if k = key then some value else pairs.lookup k := by
  induction pairs with
  | nil => rw [insert, lookup_cons]
  | cons p rest ih =>
    obtain ⟨l, v⟩ := p
    rw [insert]
    split
    · rw [lookup_cons]
    · split
      · next heq =>
        subst heq
        rw [lookup_cons, lookup_cons]
        split <;> rfl
      · next hne =>
        rw [lookup_cons, lookup_cons, ih]
        by_cases hl : k = l
        · have hk : k ≠ key := fun heq => hne (heq ▸ hl)
          rw [if_pos hl, if_neg hk, if_pos hl]
        · rw [if_neg hl, if_neg hl]

/-- Of pairs that are chosen by their keys, those that are chosen are found. -/
theorem lookup_filter (pairs : List (String × α)) (chosen : String → Bool) (k : String) :
    (pairs.filter fun p => chosen p.1).lookup k = if chosen k then pairs.lookup k else none := by
  induction pairs with
  | nil => simp
  | cons p rest ih =>
    obtain ⟨l, v⟩ := p
    by_cases hl : chosen l
    · rw [List.filter_cons_of_pos (by exact hl), lookup_cons, lookup_cons, ih]
      by_cases hk : k = l
      · rw [if_pos hk, if_pos hk, if_pos (hk ▸ hl)]
      · rw [if_neg hk, if_neg hk]
    · rw [List.filter_cons_of_neg (by exact hl), lookup_cons, ih]
      by_cases hk : k = l
      · rw [if_neg (hk ▸ hl), if_neg (hk ▸ hl)]
      · rw [if_neg hk]

theorem lookup_erase (pairs : List (String × α)) (key k : String) :
    (erase pairs key).lookup k = if k = key then none else pairs.lookup k := by
  rw [erase, lookup_filter pairs (fun l => decide (l ≠ key))]
  by_cases h : k = key <;> simp [h]

theorem lookup_map {β : Type} (f : α → β) (pairs : List (String × α)) (k : String) :
    (pairs.map (fun p => (p.1, f p.2))).lookup k = (pairs.lookup k).map f := by
  induction pairs with
  | nil => rfl
  | cons p rest ih =>
    obtain ⟨l, v⟩ := p
    rw [List.map_cons, lookup_cons, lookup_cons, ih]
    split <;> rfl

theorem mem_of_lookup {pairs : List (String × α)} {k : String} {v : α}
    (h : pairs.lookup k = some v) : (k, v) ∈ pairs := by
  induction pairs with
  | nil => simp at h
  | cons p rest ih =>
    obtain ⟨l, w⟩ := p
    rw [lookup_cons] at h
    split at h
    · next hl =>
      obtain rfl := Option.some.inj h
      exact hl ▸ List.mem_cons_self
    · exact List.mem_cons_of_mem _ (ih h)

theorem nodup_keys {pairs : List (String × α)} (h : Sorted pairs) : (pairs.map (·.1)).Nodup := by
  apply List.pairwise_map.mpr
  apply h.imp
  intro p q hlt heq
  rw [heq] at hlt
  exact String.lt_irrefl _ hlt

/-- Every pair of a list in key order is found. -/
theorem lookup_of_mem {pairs : List (String × α)} (h : Sorted pairs) {p : String × α} (hp : p ∈ pairs) :
    pairs.lookup p.1 = some p.2 := by
  induction pairs with
  | nil => cases hp
  | cons q rest ih =>
    obtain ⟨hq, hrest⟩ := List.pairwise_cons.mp h
    rw [lookup_cons]
    rcases List.mem_cons.mp hp with rfl | hp
    · rw [if_pos rfl]
    · have hne : p.1 ≠ q.1 := by
        intro heq
        have hlt := hq p hp
        rw [heq] at hlt
        exact String.lt_irrefl _ hlt
      rw [if_neg hne]
      exact ih hrest hp

theorem lookup_eq_none {pairs : List (String × α)} {k : String} (h : k ∉ pairs.map (·.1)) :
    pairs.lookup k = none := by
  cases hlookup : pairs.lookup k with
  | none => rfl
  | some v => exact absurd (List.mem_map.mpr ⟨(k, v), mem_of_lookup hlookup, rfl⟩) h

/-- Pairs with distinct keys are put over the pairs that are there. -/
theorem lookup_foldl_insert {pairs : List (String × α)} (h : (pairs.map (·.1)).Nodup) (k : String) :
    ∀ acc : List (String × α),
      (pairs.foldl (fun ms p => insert p.1 p.2 ms) acc).lookup k = (pairs.lookup k).or (acc.lookup k) := by
  induction pairs with
  | nil => simp
  | cons p rest ih =>
    obtain ⟨l, v⟩ := p
    intro acc
    obtain ⟨hfresh, hrest⟩ := List.nodup_cons.mp h
    rw [List.foldl_cons, ih hrest, lookup_insert, lookup_cons]
    by_cases hl : k = l
    · subst hl
      simp [lookup_eq_none hfresh]
    · rw [if_neg hl, if_neg hl]

/-- Pairs with distinct keys all count. -/
theorem lookup_ofList {pairs : List (String × α)} (h : (pairs.map (·.1)).Nodup) (k : String) :
    (ofList pairs).lookup k = pairs.lookup k := by
  rw [ofList, lookup_foldl_insert h, List.lookup_nil, Option.or_none]

/-- Pairs take the place of earlier ones with the same keys. -/
theorem lookup_ofList_append {pairs more : List (String × α)} (h : (pairs.map (·.1)).Nodup)
    (h' : (more.map (·.1)).Nodup) (k : String) :
    (ofList (pairs ++ more)).lookup k = (more.lookup k).or (pairs.lookup k) := by
  rw [ofList, List.foldl_append, lookup_foldl_insert h', ← ofList, lookup_ofList h]

/-- Every pair of a dictionary is one of those that it was made of. -/
theorem mem_ofList {pairs : List (String × α)} {p : String × α} (h : p ∈ ofList pairs) :
    p ∈ pairs := by
  have go : ∀ (pairs acc : List (String × α)),
      p ∈ pairs.foldl (fun ms p => insert p.1 p.2 ms) acc → p ∈ pairs ∨ p ∈ acc := by
    intro pairs
    induction pairs with
    | nil => exact fun _ h => .inr h
    | cons q rest ih =>
      intro acc hmem
      rcases ih _ hmem with hmem | hmem
      · exact .inl (List.mem_cons_of_mem _ hmem)
      · rcases mem_insert hmem with rfl | hmem
        · exact .inl List.mem_cons_self
        · exact .inr hmem
  exact (go pairs [] h).elim id (fun hnil => absurd hnil List.not_mem_nil)

/-- A pair whose key is above all others goes to the end. -/
theorem insert_eq_append {key : String} {value : α} {pairs : List (String × α)}
    (h : ∀ p ∈ pairs, p.1 < key) : insert key value pairs = pairs ++ [(key, value)] := by
  induction pairs with
  | nil => rfl
  | cons p rest ih =>
    obtain ⟨k, v⟩ := p
    have hlt : k < key := h (k, v) List.mem_cons_self
    have hnot : ¬ key < k := fun hgt => String.lt_irrefl k (String.lt_trans hlt hgt)
    have hne : key ≠ k := fun heq => String.lt_irrefl k (heq ▸ hlt)
    rw [insert, if_neg hnot, if_neg hne, ih (fun p hp => h p (List.mem_cons_of_mem _ hp))]
    rfl

theorem ofList_eq_self {pairs : List (String × α)} (h : Sorted pairs) : ofList pairs = pairs := by
  -- each pair goes behind those that came before it
  have go : ∀ (pairs acc : List (String × α)), Sorted (acc ++ pairs) →
      pairs.foldl (fun ms p => insert p.1 p.2 ms) acc = acc ++ pairs := by
    intro pairs
    induction pairs with
    | nil => simp
    | cons p rest ih =>
      obtain ⟨k, v⟩ := p
      intro acc hsorted
      have hbelow : ∀ q ∈ acc, q.1 < k := fun q hq =>
        (List.pairwise_append.mp hsorted).2.2 q hq (k, v) List.mem_cons_self
      have hassoc : acc ++ (k, v) :: rest = (acc ++ [(k, v)]) ++ rest := by simp
      simp only [List.foldl_cons]
      rw [insert_eq_append hbelow, hassoc, ih _ (hassoc ▸ hsorted)]
  exact go pairs [] h

/-- A new key goes in among the others. -/
theorem perm_insert {key : String} {value : α} {pairs : List (String × α)}
    (h : key ∉ pairs.map (·.1)) : (insert key value pairs).Perm ((key, value) :: pairs) := by
  induction pairs with
  | nil => exact .refl _
  | cons p rest ih =>
    obtain ⟨k, v⟩ := p
    rw [List.map_cons, List.mem_cons, not_or] at h
    obtain ⟨hne, hrest⟩ := h
    rw [insert]
    split
    · exact .refl _
    · exact ((ih hrest).cons _).trans (.swap _ _ _)

/-- Pairs with distinct keys all go in. -/
theorem perm_ofList {pairs : List (String × α)} (h : (pairs.map (·.1)).Nodup) :
    (ofList pairs).Perm pairs := by
  have go : ∀ (pairs acc : List (String × α)), ((acc ++ pairs).map (·.1)).Nodup →
      (pairs.foldl (fun ms p => insert p.1 p.2 ms) acc).Perm (acc ++ pairs) := by
    intro pairs
    induction pairs with
    | nil => exact fun acc _ => .of_eq (List.append_nil acc).symm
    | cons p rest ih =>
      intro acc hnodup
      have hmiddle : (acc ++ p :: rest).Perm (p :: acc ++ rest) := List.perm_middle
      have hfront : ((p :: acc ++ rest).map (·.1)).Nodup := (hmiddle.map _).nodup_iff.mp hnodup
      have hfresh : p.1 ∉ acc.map (·.1) := by
        rw [List.cons_append, List.map_cons, List.map_append] at hfront
        exact fun hmem => (List.nodup_cons.mp hfront).1 (List.mem_append_left _ hmem)
      have hinsert : (insert p.1 p.2 acc ++ rest).Perm (p :: acc ++ rest) :=
        (perm_insert hfresh).append_right rest
      exact ((ih _ ((hinsert.map _).nodup_iff.mpr hfront)).trans hinsert).trans hmiddle.symm
  exact go pairs [] h

/-- Of the same pairs there is one list in key order. -/
theorem Sorted.eq_of_perm {pairs pairs' : List (String × α)} (h : Sorted pairs) (h' : Sorted pairs')
    (hperm : pairs.Perm pairs') : pairs = pairs' := by
  apply hperm.eq_of_pairwise (fun p q _ _ hpq hqp => ?_) h h'
  exact absurd (String.lt_trans hpq hqp) (String.lt_irrefl _)

/-- A list in key order is made of its pairs in any order. -/
theorem ofList_of_perm {fields pairs : List (String × α)} (hsorted : Sorted pairs)
    (h : fields.Perm pairs) : ofList fields = pairs := by
  have hperm : (ofList fields).Perm pairs :=
    (perm_ofList ((h.map _).nodup_iff.mpr (nodup_keys hsorted))).trans h
  exact (ofList_sorted fields).eq_of_perm hsorted hperm

/-- Lists in key order in which all is found alike are the same. -/
theorem eq_of_lookup {pairs pairs' : List (String × α)} (h : Sorted pairs) (h' : Sorted pairs')
    (hsame : ∀ key, pairs.lookup key = pairs'.lookup key) : pairs = pairs' := by
  have hmem : ∀ p, p ∈ pairs ↔ p ∈ pairs' := by
    rintro ⟨key, value⟩
    constructor
    · intro hp
      exact mem_of_lookup ((hsame key).symm.trans (lookup_of_mem h hp))
    · intro hp
      exact mem_of_lookup ((hsame key).trans (lookup_of_mem h' hp))
  have hdistinct : ∀ {qs : List (String × α)}, Sorted qs → qs.Nodup := by
    intro qs hqs
    exact List.Nodup.of_map _ (nodup_keys hqs)
  exact h.eq_of_perm h' ((List.perm_ext_iff_of_nodup (hdistinct h) (hdistinct h')).mpr hmem)

end LanguageClient.Assoc

namespace LanguageClient

namespace Dict

variable {α : Type}

theorem get?_insert (d : Dict α) (key : String) (value : α) (k : String) :
    (d.insert key value).get? k = if k = key then some value else d.get? k :=
  Assoc.lookup_insert key value d.entries k

theorem get?_erase (d : Dict α) (key k : String) :
    (d.erase key).get? k = if k = key then none else d.get? k :=
  Assoc.lookup_erase d.entries key k

/-- The keys are those that have a value. -/
theorem mem_keys_iff (d : Dict α) (key : String) : key ∈ d.keys ↔ (d.get? key).isSome := by
  constructor
  · intro hmem
    obtain ⟨p, hp, rfl⟩ := List.mem_map.mp hmem
    exact Option.isSome_iff_exists.mpr ⟨p.2, Assoc.lookup_of_mem d.sorted hp⟩
  · intro hsome
    obtain ⟨value, hget⟩ := Option.isSome_iff_exists.mp hsome
    exact List.mem_map.mpr ⟨(key, value), Assoc.mem_of_lookup hget, rfl⟩

/-- Dictionaries in which all is found alike are the same. -/
theorem eq_of_get? {d d' : Dict α} (h : ∀ key, d.get? key = d'.get? key) : d = d' := by
  obtain ⟨entries, sorted⟩ := d
  obtain ⟨entries', sorted'⟩ := d'
  obtain rfl : entries = entries' := Assoc.eq_of_lookup sorted sorted' h
  rfl

end Dict

end LanguageClient
