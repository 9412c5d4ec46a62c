import LanguageClient.Proofs.Json.Strings

/-!
# LanguageClient.Proofs.Json.Values -- values read as printed

A value without floating point numbers is read as printed, except that its objects come out in key order
(`readValue_chars`, `parseChars?_chars`). Items and members are printed and read in the same way, so
what is said of sequences is said once, of any elements that are read as they stand.
-/

namespace LanguageClient.Json

/-! ## Values that are read as printed -/

mutual

/-- No floating point number occurs, and all integers are words. -/
def Plain : Json → Prop
  | .float _ => False
  | .int n => IsWord n
  | .list items => PlainItems items
  | .object members => PlainMembers members
  | _ => True

def PlainItems : List Json → Prop
  | [] => True
  | x :: xs => x.Plain ∧ PlainItems xs

def PlainMembers : List (String × Json) → Prop
  | [] => True
  | (_, x) :: rest => x.Plain ∧ PlainMembers rest

end

mutual

/-- A value with its objects in key order; of two members with one key the later counts. -/
def normal : Json → Json
  | .list items => .list (normalItems items)
  | .object members => ofMembers (normalMembers members)
  | j => j

def normalItems : List Json → List Json
  | [] => []
  | x :: xs => x.normal :: normalItems xs

def normalMembers : List (String × Json) → List (String × Json)
  | [] => []
  | (k, x) :: rest => (k, x.normal) :: normalMembers rest

end

theorem normalItems_eq (xs : List Json) : normalItems xs = xs.map normal := by
  induction xs with
  | nil => rfl
  | cons x xs ih => rw [normalItems, ih, List.map_cons]

theorem normalMembers_eq (ms : List (String × Json)) :
    normalMembers ms = ms.map (fun m => (m.1, m.2.normal)) := by
  induction ms with
  | nil => rfl
  | cons m ms ih => rw [normalMembers, ih, List.map_cons]

/-! ## First characters -/

/-- A text that starts with something other than a blank, a comma or a closing bracket. -/
def Starts (cs : List Char) : Prop :=
  ∃ c rest, cs = c :: rest ∧ isBlank c = false ∧ c ≠ ']' ∧ c ≠ '}'

theorem Starts.skipBlank {cs : List Char} (h : Starts cs) (rest : List Char) :
    skipBlank (cs ++ rest) = cs ++ rest := by
  obtain ⟨c, cs, rfl, hblank, -, -⟩ := h
  rw [List.cons_append, Json.skipBlank, List.dropWhile_cons, if_neg (by simp [hblank])]

theorem starts_of_isDigit {c : Char} (h : isDigit c = true) (cs : List Char) : Starts (c :: cs) := by
  refine ⟨c, cs, rfl, ?_, ?_, ?_⟩
  · cases hblank : isBlank c with
    | false => rfl
    | true =>
      simp only [isBlank, Bool.or_eq_true, beq_iff_eq] at hblank
      rcases hblank with ((rfl | rfl) | rfl) | rfl <;> exact absurd h (by decide)
  · rintro rfl
    exact absurd h (by decide)
  · rintro rfl
    exact absurd h (by decide)

theorem starts_intChars (n : Int) : Starts (intChars n) := by
  obtain ⟨c, cs, hchars, hc | rfl⟩ := intChars_cons n
  · rw [hchars]
    exact starts_of_isDigit hc cs
  · exact ⟨'-', cs, hchars, by decide, by decide, by decide⟩

theorem starts_quoted (s : String) (cs : List Char) : Starts (quoted s ++ cs) :=
  ⟨'"', _, rfl, by decide, by decide, by decide⟩

theorem starts_chars {j : Json} (h : j.Plain) : Starts j.chars := by
  cases j with
  | null => exact ⟨'n', _, rfl, by decide, by decide, by decide⟩
  | bool b => cases b <;> exact ⟨_, _, rfl, by decide, by decide, by decide⟩
  | int n =>
    rw [chars]
    exact starts_intChars n
  | float x => exact h.elim
  | str s =>
    rw [chars, ← List.append_nil (quoted s)]
    exact starts_quoted s []
  | list items =>
    cases items <;> (rw [chars]; exact ⟨'[', _, rfl, by decide, by decide, by decide⟩)
  | object members =>
    rcases members with _ | ⟨⟨k, x⟩, rest⟩ <;>
      (rw [chars]; exact ⟨'\x7b', _, rfl, by decide, by decide, by decide⟩)

/-! ## Sequences -/

section Sequences

variable {α β : Type} {read : List Char → Option (α × List Char)} {text : β → List Char}
  {value : β → α} {close : Char}

/-- The elements after the first, each behind a comma, and the closing character. -/
def charsAfter (text : β → List Char) (close : Char) : List β → List Char
  | [] => [close]
  | b :: bs => ',' :: (text b ++ charsAfter text close bs)

/-- The elements and the closing character. -/
def charsSequence (text : β → List Char) (close : Char) : List β → List Char
  | [] => [close]
  | b :: bs => text b ++ charsAfter text close bs

/-- A character that ends a list or an object. -/
def Closes (c : Char) : Prop := c = ']' ∨ c = '\x7d'

theorem Closes.ne_comma (h : Closes close) : close ≠ ',' := by
  rcases h with rfl | rfl <;> decide

theorem Closes.endsNumber (h : Closes close) (rest : List Char) : EndsNumber (close :: rest) := by
  rintro c hc
  cases hc
  rcases h with rfl | rfl <;> decide

theorem Closes.skipBlank (h : Closes close) (rest : List Char) :
    skipBlank (close :: rest) = close :: rest := by
  rcases h with rfl | rfl <;> rfl

theorem Starts.ne_close {c : Char} {cs : List Char} (h : Starts (c :: cs)) (hclose : Closes close) :
    c ≠ close := by
  obtain ⟨_, _, heq, -, hbracket, hbrace⟩ := h
  obtain ⟨rfl, rfl⟩ := List.cons.inj heq
  rcases hclose with rfl | rfl
  · exact hbracket
  · exact hbrace

theorem endsNumber_comma (rest : List Char) : EndsNumber (',' :: rest) := by
  rintro c hc
  cases hc
  decide

/-- An element is read as it stands, whatever follows that does not go on with a number. -/
def ReadsBack (read : List Char → Option (α × List Char)) (text : β → List Char) (value : β → α)
    (b : β) : Prop :=
  Starts (text b) ∧ ∀ rest, EndsNumber rest → read (text b ++ rest) = some (value b, rest)

theorem readElements_eq (hclose : Closes close) (bs : List β) :
    ∀ (b : β) (rounds : Nat) (rest : List Char),
      (∀ x ∈ b :: bs, ReadsBack read text value x) → bs.length < rounds →
      readElements read close rounds (text b ++ charsAfter text close bs ++ rest)
        = some (value b :: bs.map value, rest) := by
  induction bs with
  | nil =>
    intro b rounds rest hread hrounds
    obtain ⟨rounds, rfl⟩ := Nat.exists_eq_add_one_of_ne_zero (Nat.ne_of_gt hrounds)
    obtain ⟨hstart, hback⟩ := hread b List.mem_cons_self
    -- an element is followed by a comma or by the closing character, and no number goes on with either
    rw [charsAfter, List.append_assoc, List.singleton_append, readElements, hstart.skipBlank,
      hback _ (hclose.endsNumber rest)]
    simp [hclose.skipBlank, hclose.ne_comma]
  | cons next bs ih =>
    intro b rounds rest hread hrounds
    obtain ⟨rounds, rfl⟩ := Nat.exists_eq_add_one_of_ne_zero (Nat.ne_of_gt (Nat.zero_lt_of_lt hrounds))
    obtain ⟨hstart, hback⟩ := hread b List.mem_cons_self
    have hskip : ∀ cs, skipBlank (',' :: cs) = ',' :: cs := fun _ => rfl
    have hmore := ih next rounds rest (fun x hx => hread x (List.mem_cons_of_mem _ hx))
      (Nat.lt_of_succ_lt_succ hrounds)
    rw [List.append_assoc] at hmore
    rw [charsAfter, List.append_assoc, List.cons_append, readElements, hstart.skipBlank,
      hback _ (endsNumber_comma _)]
    simp [hskip, hmore]

theorem length_charsAfter (text : β → List Char) (close : Char) (bs : List β) :
    bs.length < (charsAfter text close bs).length := by
  induction bs with
  | nil => simp [charsAfter]
  | cons b bs ih =>
    simp only [charsAfter, List.length_cons, List.length_append]
    omega

/-- A sequence of elements that are read as they stand is read up to its closing character. -/
theorem readSequence_eq (hclose : Closes close) (bs : List β)
    (hread : ∀ b ∈ bs, ReadsBack read text value b) (rest : List Char) :
    readSequence read close (charsSequence text close bs ++ rest) = some (bs.map value, rest) := by
  unfold readSequence
  cases bs with
  | nil => simp [charsSequence, hclose.skipBlank]
  | cons b bs =>
    have hstart := (hread b List.mem_cons_self).1
    -- the reader makes as many rounds as there are characters, and each element has one at least
    have hlong : bs.length < (text b ++ charsAfter text close bs ++ rest).length := by
      have hafter := length_charsAfter text close bs
      simp only [List.length_append]
      omega
    have helements := readElements_eq hclose bs b _ rest hread hlong
    rw [charsSequence, List.append_assoc, hstart.skipBlank, ← List.append_assoc]
    obtain ⟨c, cs, htext, -⟩ := id hstart
    rw [htext] at hstart helements ⊢
    simp only [List.cons_append] at helements ⊢
    rw [if_neg (hstart.ne_close hclose), helements]
    rfl

end Sequences

/-! ## Whole values -/

/-- A member as it is printed. -/
def memberChars (m : String × Json) : List Char := quoted m.1 ++ ':' :: m.2.chars

theorem chars_list (items : List Json) :
    (Json.list items).chars = '[' :: charsSequence chars ']' items := by
  have hafter : ∀ xs : List Json, charsItems xs = charsAfter chars ']' xs := by
    intro xs
    induction xs with
    | nil => rfl
    | cons x xs ih => rw [charsItems, charsAfter, ih]
  cases items with
  | nil => rfl
  | cons x xs => rw [chars, charsSequence, hafter]

theorem chars_object (members : List (String × Json)) :
    (Json.object members).chars = '\x7b' :: charsSequence memberChars '\x7d' members := by
  have hafter : ∀ ms : List (String × Json), charsMembers ms = charsAfter memberChars '\x7d' ms := by
    intro ms
    induction ms with
    | nil => rfl
    | cons m ms ih => simp [charsMembers, charsAfter, ih, memberChars]
  rcases members with _ | ⟨⟨k, x⟩, rest⟩
  · rfl
  · simp [chars, charsSequence, hafter, memberChars]

theorem readScalar_of_isDigit {c : Char} (h : isDigit c = true ∨ c = '-') (cs : List Char) :
    readScalar (c :: cs) = readNumber (c :: cs) := by
  have hne : c ≠ 'n' ∧ c ≠ 't' ∧ c ≠ 'f' ∧ c ≠ '"' := by
    refine ⟨?_, ?_, ?_, ?_⟩ <;> (rintro rfl; exact absurd h (by decide))
  obtain ⟨hn, ht, hf, hq⟩ := hne
  unfold readScalar
  split
  · next heq => exact absurd (List.cons.inj heq).1 hn
  · next heq => exact absurd (List.cons.inj heq).1 ht
  · next heq => exact absurd (List.cons.inj heq).1 hf
  · next heq => exact absurd (List.cons.inj heq).1 hq
  · rfl

theorem head_intChars (n : Int) (rest : List Char) :
    ∀ c ∈ (intChars n ++ rest).head?, c ≠ '[' ∧ c ≠ '\x7b' := by
  obtain ⟨d, cs, hchars, hd⟩ := intChars_cons n
  rw [hchars]
  rintro c hc
  obtain rfl : d = c := Option.some.inj hc
  refine ⟨?_, ?_⟩ <;> (rintro rfl; exact absurd hd (by decide))

theorem readScalar_intChars {n : Int} (hn : IsWord n) {rest : List Char} (h : EndsNumber rest) :
    readScalar (intChars n ++ rest) = some (.int n, rest) := by
  obtain ⟨c, cs, hchars, hc⟩ := intChars_cons n
  rw [← readNumber_intChars hn h, hchars, List.cons_append, readScalar_of_isDigit hc]

theorem readScalar_quoted (s : String) (rest : List Char) :
    readScalar (quoted s ++ rest) = some (.str s, rest) := by
  unfold quoted
  rw [List.cons_append, List.append_assoc, List.singleton_append]
  show (readString (s.toList.flatMap escapeChar ++ '"' :: rest)).map _ = _
  rw [readString_quoted]
  simp

theorem readValue_scalar (levels : Nat) {cs : List Char} (h : ∀ c ∈ cs.head?, c ≠ '[' ∧ c ≠ '\x7b') :
    readValue levels cs = readScalar cs := by
  cases levels with
  | zero => rfl
  | succ levels =>
    unfold readValue
    split
    · exact absurd rfl (h '[' rfl).1
    · exact absurd rfl (h '\x7b' rfl).2
    · rfl

theorem readMember_chars {read : List Char → Option (Json × List Char)} {m : String × Json}
    (h : ReadsBack read chars normal m.2) :
    ReadsBack (readMember read) memberChars (fun m => (m.1, m.2.normal)) m := by
  refine ⟨starts_quoted m.1 _, fun rest hrest => ?_⟩
  obtain ⟨hstart, hback⟩ := h
  unfold memberChars quoted
  rw [List.cons_append, List.append_assoc, List.cons_append, List.append_assoc, List.singleton_append,
    List.cons_append]
  show (readString (m.1.toList.flatMap escapeChar ++ '"' :: ':' :: (m.2.chars ++ rest))).bind _ = _
  rw [readString_quoted]
  show ((read (skipBlank (m.2.chars ++ rest))).map _) = _
  rw [hstart.skipBlank, hback rest hrest]
  simp

mutual

-- the induction is on the value; each list and each object that is entered takes one level
/-- A value is read as printed, whatever follows that does not go on with a number. -/
theorem readValue_chars : ∀ (j : Json), j.Plain → ∀ levels, j.depth ≤ levels →
    ReadsBack (readValue levels) chars normal j
  | .null, h, levels, _ => ⟨starts_chars h, fun rest _ => by
      rw [readValue_scalar levels (by rintro c ⟨⟩; decide)]
      rfl⟩
  | .bool b, h, levels, _ => ⟨starts_chars h, fun rest _ => by
      rw [readValue_scalar levels (by cases b <;> (rintro c ⟨⟩; decide))]
      cases b <;> rfl⟩
  | .int n, h, levels, _ => ⟨starts_chars h, fun rest hrest => by
      rw [chars, readValue_scalar levels (head_intChars n rest), readScalar_intChars h hrest]
      rfl⟩
  | .float x, h, _, _ => h.elim
  | .str s, h, levels, _ => ⟨starts_chars h, fun rest _ => by
      rw [chars, readValue_scalar levels (by rintro c ⟨⟩; decide), readScalar_quoted]
      rfl⟩
  | .list items, h, 0, hd => absurd hd (by simp [depth])
  | .list items, h, levels + 1, hd => ⟨starts_chars h, fun rest _ => by
      have hitems := readItems_chars items h levels (Nat.le_of_succ_le_succ hd)
      rw [chars_list, List.cons_append, readValue, readSequence_eq (.inl rfl) items hitems rest]
      rw [normal, normalItems_eq]
      rfl⟩
  | .object members, h, 0, hd => absurd hd (by simp [depth])
  | .object members, h, levels + 1, hd => ⟨starts_chars h, fun rest _ => by
      have hmembers := readMembers_chars members h levels (Nat.le_of_succ_le_succ hd)
      rw [chars_object, List.cons_append, readValue, readSequence_eq (.inr rfl) members
        (fun m hm => readMember_chars (hmembers m hm)) rest]
      rw [normal, normalMembers_eq]
      rfl⟩

theorem readItems_chars : ∀ (items : List Json), PlainItems items → ∀ levels,
    depthItems items ≤ levels → ∀ x ∈ items, ReadsBack (readValue levels) chars normal x
  | x :: xs, h, levels, hd, y, hy => by
    have hfirst := readValue_chars x h.1 levels (Nat.max_le.mp hd).1
    have hothers := readItems_chars xs h.2 levels (Nat.max_le.mp hd).2
    rcases List.mem_cons.mp hy with rfl | hy
    · exact hfirst
    · exact hothers y hy

theorem readMembers_chars : ∀ (members : List (String × Json)), PlainMembers members → ∀ levels,
    depthMembers members ≤ levels → ∀ m ∈ members, ReadsBack (readValue levels) chars normal m.2
  | (k, x) :: rest, h, levels, hd, m, hm => by
    have hfirst := readValue_chars x h.1 levels (Nat.max_le.mp hd).1
    have hothers := readMembers_chars rest h.2 levels (Nat.max_le.mp hd).2
    rcases List.mem_cons.mp hm with rfl | hm
    · exact hfirst
    · exact hothers m hm

end

/-- **A printed text is read as the value it was printed from, with its objects in key order.** -/
theorem parseChars?_chars {j : Json} (h : j.Plain) (hd : j.depth ≤ maxDepth) :
    parseChars? j.chars = some j.normal := by
  obtain ⟨hstart, hback⟩ := readValue_chars j h maxDepth hd
  have hread := hback [] (by rintro c hc; cases hc)
  have hskip := hstart.skipBlank []
  rw [List.append_nil] at hread hskip
  unfold parseChars?
  rw [hskip, hread]
  rfl

end LanguageClient.Json
