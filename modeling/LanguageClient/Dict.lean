/-!
# LanguageClient.Dict -- dictionaries with string keys

Pairs in strictly ascending order of their keys, so that two dictionaries with the same entries are
equal. `Assoc` holds the operations on bare lists of pairs, with the lemma that inserting keeps the
order; `Dict` is the type that carries the order.
-/

namespace LanguageClient

namespace Assoc

variable {α β : Type}

/-- Sets the value of a key, in key order; a pair of that key is replaced. -/
def insert (key : String) (value : α) : List (String × α) → List (String × α)
  | [] => [(key, value)]
  | (k, v) :: rest =>
    if key < k then (key, value) :: (k, v) :: rest
    else if key = k then (key, value) :: rest
    else (k, v) :: insert key value rest

/-- The pairs in key order; of two pairs with one key the later counts. -/
def ofList (pairs : List (String × α)) : List (String × α) :=
  pairs.foldl (fun ms (k, v) => insert k v ms) []

/-- The pairs without those of one key. -/
def erase (pairs : List (String × α)) (key : String) : List (String × α) :=
  pairs.filter (·.1 ≠ key)

/-- Keys strictly ascend. -/
def Sorted (pairs : List (String × α)) : Prop := pairs.Pairwise (·.1 < ·.1)

instance (pairs : List (String × α)) : Decidable (Sorted pairs) :=
  inferInstanceAs (Decidable (List.Pairwise _ _))

theorem key_trichotomy {a b : String} (h : ¬ a < b) (h' : a ≠ b) : b < a := by
  rcases Decidable.em (b < a) with hb | hb
  · exact hb
  · exact absurd (String.le_antisymm (String.not_lt.mp hb) (String.not_lt.mp h)) h'

theorem mem_insert {key : String} {value : α} {pairs : List (String × α)} {p : String × α}
    (h : p ∈ insert key value pairs) : p = (key, value) ∨ p ∈ pairs := by
  induction pairs with
  | nil => simpa [insert] using h
  | cons q rest ih =>
    obtain ⟨k, v⟩ := q
    simp only [insert] at h
    split at h
    · simpa using h
    · split at h
      · rcases List.mem_cons.mp h with h | h
        · exact .inl h
        · exact .inr (List.mem_cons_of_mem _ h)
      · rcases List.mem_cons.mp h with h | h
        · exact .inr (h ▸ List.mem_cons_self)
        · exact (ih h).imp_right (List.mem_cons_of_mem _)

theorem insert_sorted (key : String) (value : α) {pairs : List (String × α)} (h : Sorted pairs) :
    Sorted (insert key value pairs) := by
  induction pairs with
  | nil => exact List.pairwise_singleton _ _
  | cons q rest ih =>
    obtain ⟨k, v⟩ := q
    obtain ⟨hk, hrest⟩ := List.pairwise_cons.mp h
    simp only [insert]
    split
    · next lt =>
      refine List.pairwise_cons.mpr ⟨fun p hp => ?_, h⟩
      rcases List.mem_cons.mp hp with rfl | hp
      · exact lt
      · exact String.lt_trans lt (hk p hp)
    · next nlt =>
      split
      · next eq => exact List.pairwise_cons.mpr ⟨fun p hp => eq ▸ hk p hp, hrest⟩
      · next ne =>
        refine List.pairwise_cons.mpr ⟨fun p hp => ?_, ih hrest⟩
        rcases mem_insert hp with rfl | hp
        · exact key_trichotomy nlt ne
        · exact hk p hp

theorem ofList_sorted (pairs : List (String × α)) : Sorted (ofList pairs) := by
  have go : ∀ (pairs acc : List (String × α)), Sorted acc →
      Sorted (pairs.foldl (fun ms (k, v) => insert k v ms) acc) := by
    intro pairs
    induction pairs with
    | nil => exact fun _ h => h
    | cons p rest ih => exact fun acc h => ih _ (insert_sorted p.1 p.2 h)
  exact go pairs [] List.Pairwise.nil

theorem erase_sorted {pairs : List (String × α)} (h : Sorted pairs) (key : String) :
    Sorted (erase pairs key) := List.Pairwise.filter _ h

end Assoc

/-- A dictionary with string keys. -/
structure Dict (α : Type) where
  entries : List (String × α)
  sorted : Assoc.Sorted entries
  deriving DecidableEq

namespace Dict

variable {α : Type}

instance : EmptyCollection (Dict α) := ⟨⟨[], List.Pairwise.nil⟩⟩

instance : Inhabited (Dict α) := ⟨∅⟩

/-- Sets the value of a key. -/
def insert (d : Dict α) (key : String) (value : α) : Dict α :=
  ⟨Assoc.insert key value d.entries, Assoc.insert_sorted key value d.sorted⟩

/-- The dictionary of a list of pairs; of two pairs with one key the later counts. -/
def ofList (pairs : List (String × α)) : Dict α := ⟨Assoc.ofList pairs, Assoc.ofList_sorted pairs⟩

/-- The value of a key. -/
def get? (d : Dict α) (key : String) : Option α := d.entries.lookup key

/-- Takes a key out. -/
def erase (d : Dict α) (key : String) : Dict α :=
  ⟨Assoc.erase d.entries key, Assoc.erase_sorted d.sorted key⟩

/-- Whether a key has a value. -/
def contains (d : Dict α) (key : String) : Bool := (d.get? key).isSome

/-- The keys in ascending order. -/
def keys (d : Dict α) : List String := d.entries.map (·.1)

/-- The number of entries. -/
def size (d : Dict α) : Nat := d.entries.length

end Dict

end LanguageClient
