import LanguageClient.Json.Reader

/-!
# LanguageClient.Proofs.Text.Digits -- the digits of a number

A natural number is written in decimal digits without a needless zero, and its digits have its value.
-/

namespace LanguageClient.Json

theorem isDigit_eq (c : Char) : isDigit c = c.isDigit := by
  unfold isDigit Char.isDigit
  rw [Bool.eq_iff_iff]
  simp [Char.le_def]

theorem isDigit_of_mem_toDigits {n : Nat} {c : Char} (h : c ∈ Nat.toDigits 10 n) :
    isDigit c = true := by
  rw [isDigit_eq]
  exact Nat.isDigit_of_mem_toDigits (by decide) (by decide) h

/-- A number has a first digit. -/
theorem toDigits_cons (n : Nat) : ∃ c cs, Nat.toDigits 10 n = c :: cs ∧ isDigit c = true := by
  obtain ⟨c, cs, hdigits⟩ := List.exists_cons_of_ne_nil (Nat.toDigits_ne_nil (n := n) (b := 10))
  exact ⟨c, cs, hdigits, isDigit_of_mem_toDigits (hdigits ▸ List.mem_cons_self)⟩

theorem all_isDigit_toDigits (n : Nat) : (Nat.toDigits 10 n).all isDigit = true :=
  List.all_eq_true.mpr fun _ hc => isDigit_of_mem_toDigits hc

theorem eq_zero_of_digitValue {c : Char} (hc : isDigit c = true) (h : digitValue c = 0) :
    c = '0' := by
  simp only [isDigit, Bool.and_eq_true, decide_eq_true_eq, Char.le_def] at hc
  have hlow : 48 ≤ c.toNat := UInt32.le_iff_toNat_le.mp hc.1
  have hzero : c.toNat - 48 = 0 := h
  apply Char.toNat_inj.mp
  show c.toNat = 48
  omega

/-- The digits of a number have its value. -/
theorem digitsValue_toDigits (n : Nat) :
    digitsValue ((Nat.toDigits 10 n).map digitValue) = n := by
  -- the fold starts anywhere, so that the digits can be taken off from the front
  have hvalue : ∀ (cs : List Char) (m : Nat),
      (cs.map digitValue).foldl (fun n d => n * 10 + d) m = Nat.ofDigitChars 10 cs m := by
    intro cs
    induction cs with
    | nil => simp
    | cons c cs ih =>
      intro m
      rw [List.map_cons, List.foldl_cons, ih, Nat.ofDigitChars_cons, Nat.mul_comm 10 m]
      rfl
  rw [digitsValue, hvalue]
  exact Nat.ofDigitChars_ten_toDigits

/-- Only the number zero is written with a zero in front. -/
theorem toDigits_leading {n : Nat} {cs : List Char} (h : Nat.toDigits 10 n = '0' :: cs) :
    n = 0 ∧ cs = [] := by
  induction n using Nat.strongRecOn generalizing cs with
  | ind n ih =>
    rcases Nat.lt_or_ge n 10 with hlt | hge
    · rw [Nat.toDigits_of_lt_base hlt] at h
      obtain ⟨hzero, rfl⟩ := List.cons.inj h
      exact ⟨Nat.digitChar_eq_zero.mp hzero, rfl⟩
    · -- the leading digit is that of the number without its last digit
      rw [Nat.toDigits_of_base_le (by decide) hge] at h
      obtain ⟨d, ds, hds, -⟩ := toDigits_cons (n / 10)
      rw [hds, List.cons_append] at h
      obtain ⟨rfl, -⟩ := List.cons.inj h
      have hzero := (ih (n / 10) (by omega) hds).1
      omega

end LanguageClient.Json
