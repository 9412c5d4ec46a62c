import LanguageClient.Json.Printer
import LanguageClient.Json.Reader
import LanguageClient.Proofs.Text.Digits

/-!
# LanguageClient.Proofs.Json.Strings -- strings and integers read as printed

A string that was printed is read up to its closing quote whatever follows (`readString_quoted`). An
integer has no closing mark: it is read as printed if what follows cannot go on with it
(`readNumber_intChars`).
-/

namespace LanguageClient.Json

/-! ## Strings -/

theorem hexUnit?_control : ∀ n < 0x20,
    hexUnit? '0' '0' (hexDigit (n / 16)) (hexDigit (n % 16)) = some n := by
  decide

/-- An escaped character is read as that character. -/
theorem readString_escapeChar (c : Char) (cs : List Char) :
    readString (escapeChar c ++ cs) = (readString cs).map (fun (s, rest) => (c :: s, rest)) := by
  unfold escapeChar
  -- seven characters have a letter of their own, then come the control characters, then all others
  split
  · next h => subst h; rfl
  split
  · next h => subst h; rfl
  split
  · next h => subst h; rfl
  split
  · next h => subst h; rfl
  split
  · next h => subst h; rfl
  split
  · next h => subst h; rfl
  split
  · next h => subst h; rfl
  split
  · next hquote hslash _ _ _ _ _ h =>
    have hunit := hexUnit?_control c.toNat h
    have htrailing : isTrailing c.toNat = false := by
      simp only [isTrailing, Bool.and_eq_false_iff, decide_eq_false_iff_not]
      omega
    have hleading : isLeading c.toNat = false := by
      simp only [isLeading, Bool.and_eq_false_iff, decide_eq_false_iff_not]
      omega
    simp only [List.cons_append, List.nil_append, readString, hunit, htrailing, hleading,
      Char.ofNat_toNat]
    rfl
  · next hquote hslash _ _ _ _ _ h =>
    show readString (c :: cs) = _
    rw [readString]
    · simp [h, hslash]
    · exact fun heq => hquote heq
    · exact fun _ _ _ _ _ heq => absurd heq hslash
    · exact fun _ _ heq => absurd heq hslash

/-- A printed string is read up to its closing quote. -/
theorem readString_quoted (cs rest : List Char) :
    readString (cs.flatMap escapeChar ++ '"' :: rest) = some (cs, rest) := by
  induction cs with
  | nil => rfl
  | cons c cs ih =>
    rw [List.flatMap_cons, List.append_assoc, readString_escapeChar, ih]
    rfl

/-! ## Integers -/

/-- Something that cannot go on with a number before it. -/
def EndsNumber (cs : List Char) : Prop :=
  ∀ c ∈ cs.head?, isDigit c = false ∧ c ≠ '.' ∧ c ≠ 'e' ∧ c ≠ 'E'

theorem readDigits_toDigits (n : Nat) {rest : List Char} (h : EndsNumber rest) :
    readDigits (Nat.toDigits 10 n ++ rest) = ((Nat.toDigits 10 n).map digitValue, rest) := by
  have hstop : rest.takeWhile isDigit = [] ∧ rest.dropWhile isDigit = rest := by
    cases rest with
    | nil => exact ⟨rfl, rfl⟩
    | cons c rest =>
      have hdigit : isDigit c = false := (h c rfl).1
      simp [hdigit]
  have hall : ∀ c ∈ Nat.toDigits 10 n, isDigit c = true := fun _ hc => isDigit_of_mem_toDigits hc
  unfold readDigits
  rw [List.takeWhile_append_of_pos hall, List.dropWhile_append_of_pos hall, hstop.1, hstop.2,
    List.append_nil]

theorem readWhole_toDigits (n : Nat) {rest : List Char} (h : EndsNumber rest) :
    readWhole (Nat.toDigits 10 n ++ rest) = some ((Nat.toDigits 10 n).map digitValue, rest) := by
  unfold readWhole
  rw [readDigits_toDigits n h]
  split
  · next heq =>
    have hnil : (Nat.toDigits 10 n).map digitValue = [] := congrArg Prod.fst heq
    exact absurd (List.map_eq_nil_iff.mp hnil) Nat.toDigits_ne_nil
  · next heq =>
    -- a zero in front of another digit, which only zero has, and zero has no other digit
    have hzero := congrArg Prod.fst heq
    obtain ⟨c, cs, hdigits, hc⟩ := toDigits_cons n
    simp only [hdigits, List.map_cons, List.cons.injEq] at hzero
    obtain rfl : c = '0' := eq_zero_of_digitValue hc hzero.1
    have hcs : cs = [] := (toDigits_leading hdigits).2
    simp [hcs] at hzero
  · rfl

theorem readFraction_of_ends {rest : List Char} (h : EndsNumber rest) :
    readFraction rest = some ([], rest) := by
  unfold readFraction
  split
  · next cs => exact absurd rfl (h '.' rfl).2.1
  · rfl

theorem readExponent_of_ends {rest : List Char} (h : EndsNumber rest) :
    readExponent rest = some (none, rest) := by
  unfold readExponent
  split
  · next cs => exact absurd rfl (h 'e' rfl).2.2.1
  · next cs => exact absurd rfl (h 'E' rfl).2.2.2
  · rfl

theorem readNumeral_toDigits (n : Nat) {rest : List Char} (h : EndsNumber rest) :
    readNumeral (Nat.toDigits 10 n ++ rest)
      = some (⟨false, (Nat.toDigits 10 n).map digitValue, [], none⟩, rest) := by
  have hsign : ∀ cs, Nat.toDigits 10 n ++ rest ≠ '-' :: cs := by
    intro cs heq
    obtain ⟨c, ds, hdigits, hc⟩ := toDigits_cons n
    rw [hdigits, List.cons_append] at heq
    rw [(List.cons.inj heq).1] at hc
    exact absurd hc (by decide)
  unfold readNumeral
  split
  next heq =>
    split at heq
    · next cs hcs => exact absurd hcs (hsign cs)
    · obtain ⟨rfl, rfl⟩ := Prod.mk.inj heq
      simp [readWhole_toDigits n h, readFraction_of_ends h, readExponent_of_ends h]

theorem readNumeral_minus (n : Nat) {rest : List Char} (h : EndsNumber rest) :
    readNumeral ('-' :: (Nat.toDigits 10 n ++ rest))
      = some (⟨true, (Nat.toDigits 10 n).map digitValue, [], none⟩, rest) := by
  simp [readNumeral, readWhole_toDigits n h, readFraction_of_ends h, readExponent_of_ends h]

/-- An integer starts with a digit or with a sign. -/
theorem intChars_cons (n : Int) :
    ∃ c cs, intChars n = c :: cs ∧ (isDigit c = true ∨ c = '-') := by
  unfold intChars
  split
  · exact ⟨'-', _, rfl, .inr rfl⟩
  · obtain ⟨c, cs, hdigits, hc⟩ := toDigits_cons n.natAbs
    exact ⟨c, cs, hdigits, .inl hc⟩

/-- An integer that fits 64 bits is read as printed. -/
theorem readNumber_intChars {n : Int} (hn : IsWord n) {rest : List Char} (h : EndsNumber rest) :
    readNumber (intChars n ++ rest) = some (.int n, rest) := by
  obtain ⟨hlow, hhigh⟩ := hn
  unfold readNumber intChars
  split
  · next hneg =>
    have hvalue : (-(n.natAbs : Int)) = n := by omega
    rw [List.cons_append, readNumeral_minus n.natAbs h]
    simp only [Option.bind_some, Numeral.value?, digitsValue_toDigits, and_self, if_true]
    rw [if_pos (by omega), hvalue]
    rfl
  · next hpos =>
    have hvalue : (n.natAbs : Int) = n := by omega
    rw [readNumeral_toDigits n.natAbs h]
    simp only [Option.bind_some, Numeral.value?, digitsValue_toDigits, and_self, if_true,
      Bool.false_eq_true, if_false]
    rw [if_pos (by omega), hvalue]
    rfl

end LanguageClient.Json
