import LanguageClient.Proofs.Framing.HeaderGrammar

/-!
# LanguageClient.Proofs.Framing.Charset -- character sets and letter case

The character set `utf-8` may be spelled in letters of either case, but its short form `utf8` and the name of
the parameter only in lower case. `CharsetCheck` says what follows from that: a content type in which these two
are in lower case is judged without regard to letter case (`lower_of_plain`), and two that are judged alike make no
difference to a reader (`Block.Matches`). Other spellings do make one (`charset_spelling_matters`).
-/

namespace LanguageClient

open Text

namespace Text

/-! ## Lower case -/

theorem toNat_ofNat {n : Nat} (h : n < 0xD800) : (Char.ofNat n).toNat = n := by
  rw [Char.ofNat, dif_pos (.inl h)]
  rfl

theorem toNat_lowerChar (c : Char) :
    (lowerChar c).toNat = if 65 ≤ c.toNat ∧ c.toNat ≤ 90 then c.toNat + 32 else c.toNat := by
  have hiff : ('A' ≤ c ∧ c ≤ 'Z') ↔ (65 ≤ c.toNat ∧ c.toNat ≤ 90) := by
    simp only [Char.le_def, UInt32.le_iff_toNat_le]
    rfl
  unfold lowerChar
  by_cases h : 'A' ≤ c ∧ c ≤ 'Z'
  · have hrange := hiff.mp h
    rw [if_pos h, if_pos hrange, toNat_ofNat (by omega)]
  · rw [if_neg h, if_neg (fun hrange => h (hiff.mpr hrange))]

/-- A character is a letter in lower case after lowering, or stays what it is. -/
theorem lowerChar_eq_or (c : Char) : lowerChar c = c ∨
    (65 ≤ c.toNat ∧ c.toNat ≤ 90 ∧ (lowerChar c).toNat = c.toNat + 32) := by
  by_cases h : 65 ≤ c.toNat ∧ c.toNat ≤ 90
  · exact .inr ⟨h.1, h.2, by rw [toNat_lowerChar, if_pos h]⟩
  · left
    apply Char.toNat_inj.mp
    rw [toNat_lowerChar, if_neg h]

theorem isBlank_lowerChar (c : Char) : isBlank (lowerChar c) = isBlank c := by
  rcases lowerChar_eq_or c with h | ⟨hlow, hhigh, hlowered⟩
  · rw [h]
  · rw [Bool.eq_iff_iff]
    simp only [isBlank, hlowered, Bool.or_eq_true, Bool.and_eq_true, decide_eq_true_eq, beq_iff_eq]
    omega

/-- Lowering neither makes nor removes a character that is no letter. -/
theorem lowerChar_eq_iff {c sep : Char} (h : sep.toNat < 65) : lowerChar c = sep ↔ c = sep := by
  rcases lowerChar_eq_or c with heq | ⟨hlow, hhigh, hlowered⟩
  · rw [heq]
  · constructor
    · intro heq
      rw [heq] at hlowered
      omega
    · rintro rfl
      omega

@[simp] theorem toList_lower (s : String) : (lower s).toList = s.toList.map lowerChar := by
  rw [lower, String.toList_ofList]

/-- Dropping from the ends takes the same characters off in either case. -/
theorem stripChars_map {drop : Char → Bool} (h : ∀ c, drop (lowerChar c) = drop c) (cs : List Char) :
    stripChars drop (cs.map lowerChar) = (stripChars drop cs).map lowerChar := by
  have hsame : drop ∘ lowerChar = drop := funext h
  unfold stripChars
  rw [List.dropWhile_map, hsame, ← List.map_reverse, List.dropWhile_map, hsame, List.map_reverse]

/-- A text is divided at the same places in either case. -/
theorem pieces_map {sep : Char} (h : sep.toNat < 65) (cs : List Char) :
    pieces sep (cs.map lowerChar) = (pieces sep cs).map (List.map lowerChar) := by
  induction cs with
  | nil => rfl
  | cons c cs ih =>
    rw [List.map_cons, pieces, pieces]
    by_cases hc : c = sep
    · rw [if_pos hc, if_pos ((lowerChar_eq_iff h).mpr hc), ih]
      rfl
    · rw [if_neg hc, if_neg (fun heq => hc ((lowerChar_eq_iff h).mp heq)), ih]
      cases pieces sep cs <;> rfl

end Text

/-! ## The parameter of a content type -/

/-- What names the character set. -/
def charsetLead : List Char := "charset=".toList

/-- The parts of a content type, without the blanks around them. -/
def contentTypeParts (contentType : String) : List (List Char) :=
  (pieces ';' contentType.toList).map (stripChars isBlank)

/-- A value without the blanks and then the quotes around it. -/
def unquoted (value : List Char) : List Char := stripChars (· == '"') (stripChars isBlank value)

/-- In a content type the short form and the name of the parameter are in lower case. -/
structure IsPlain (contentType : String) : Prop where
  name : ∀ part ∈ contentTypeParts contentType, charsetLead <+: part.map lowerChar → charsetLead <+: part
  shortForm : ∀ v, charsetParameter? contentType = some v → EqIgnoringCase v "utf8" → v = "utf8"

/-- The character set, looked for and told in lower case, is absent or one of the two forms of UTF-8. -/
def NamesUtf8 (contentType : String) : Prop :=
  charsetParameter? (lower contentType) = none ∨ charsetParameter? (lower contentType) = some "utf-8" ∨
    charsetParameter? (lower contentType) = some "utf8"

/-- What a reader finds, told without the words of its faults, and what it leaves. -/
def Frame.told (found : Except Fault Frame × List UInt8) : Except String (List UInt8) × List UInt8 :=
  ((found.1.map (·.body)).mapError Fault.kind, found.2)

/-- How a content type is judged. -/
structure CharsetCheck (s : String) : Prop where
  /-- The rule: the short form exactly, or the long form in letters of either case. -/
  rule : IsUtf8 s ↔ charsetParameter? s = none ∨
    ∃ v, charsetParameter? s = some v ∧ (v = "utf8" ∨ EqIgnoringCase v "utf-8")
  /-- So the short form is refused in another spelling. -/
  alias_refused : ∀ v, charsetParameter? s = some v → EqIgnoringCase v "utf8" → v ≠ "utf8" → ¬ IsUtf8 s
  /-- A character set is not seen under a name in another spelling. -/
  name_passed_over : (∀ part ∈ contentTypeParts s, ¬ charsetLead <+: part) → IsUtf8 s
  /-- Where both are in lower case, letter case does not count. -/
  plain : IsPlain s → (IsUtf8 s ↔ NamesUtf8 s)
  /-- Then one spelling can stand for another in every header block. -/
  exchange : ∀ s', EqIgnoringCase s s' → IsPlain s → IsPlain s' →
    ∀ (failure : Option IoFault) (fields : List (String × String)) (name name' : String)
      (bytes bytes' line line' rest : List UInt8),
      Header.Begins bytes fields (line ++ 0x0A :: rest) → Header.Begins bytes' fields (line' ++ 0x0A :: rest) →
      Header.NamesType name → Header.NamesType name' →
      Header.IsField line name s → Header.IsField line' name' s' →
      Frame.told (Frame.read failure bytes) = Frame.told (Frame.read failure bytes')

theorem charsetParameter?_eq (contentType : String) : charsetParameter? contentType
    = ((contentTypeParts contentType).findSome? (dropLead? charsetLead)).map fun value =>
        String.ofList (unquoted value) := by
  unfold contentTypeParts
  rw [List.findSome?_map]
  rfl

theorem isUtf8_iff (s : String) : IsUtf8 s ↔ charsetParameter? s = none ∨
    ∃ v, charsetParameter? s = some v ∧ (v = "utf8" ∨ EqIgnoringCase v "utf-8") := by
  unfold IsUtf8 charsetOf
  cases hparameter : charsetParameter? s with
  | none => simp [EqIgnoringCase]
  | some v =>
    by_cases halias : v = "utf8"
    · subst halias
      simp [EqIgnoringCase]
    · split
      · next heq => cases heq
      · next heq => exact absurd (Option.some.inj heq) halias
      · next w _ heq =>
        obtain rfl := Option.some.inj heq
        simp [halias]

theorem contentTypeParts_lower (contentType : String) :
    contentTypeParts (lower contentType) = (contentTypeParts contentType).map (List.map lowerChar) := by
  unfold contentTypeParts
  rw [toList_lower, pieces_map (by decide), List.map_map, List.map_map]
  apply List.map_congr_left
  intro part _
  exact stripChars_map isBlank_lowerChar part

theorem unquoted_map (value : List Char) : unquoted (value.map lowerChar) = (unquoted value).map lowerChar := by
  have hquote : ∀ c, (lowerChar c == '"') = (c == '"') := by
    intro c
    rw [Bool.eq_iff_iff, beq_iff_eq, beq_iff_eq]
    exact lowerChar_eq_iff (by decide)
  unfold unquoted
  rw [stripChars_map isBlank_lowerChar, stripChars_map hquote]

/-- A part that names the character set in lower case, if in any, names the same in lower case. -/
theorem dropLead?_map {part : List Char}
    (h : charsetLead <+: part.map lowerChar → charsetLead <+: part) :
    dropLead? charsetLead (part.map lowerChar) = (dropLead? charsetLead part).map (List.map lowerChar) := by
  unfold dropLead?
  by_cases hlead : charsetLead <+: part
  · have hlowered : charsetLead <+: part.map lowerChar := by
      have hmap := hlead.map lowerChar
      rwa [show charsetLead.map lowerChar = charsetLead from rfl] at hmap
    rw [if_pos (List.isPrefixOf_iff_prefix.mpr hlead), if_pos (List.isPrefixOf_iff_prefix.mpr hlowered),
      ← List.map_drop]
    rfl
  · have hlowered : ¬ charsetLead <+: part.map lowerChar := fun hmap => hlead (h hmap)
    rw [if_neg (fun heq => hlead (List.isPrefixOf_iff_prefix.mp heq)),
      if_neg (fun heq => hlowered (List.isPrefixOf_iff_prefix.mp heq))]
    rfl

/-- Where its name is in lower case, the parameter of a content type in lower case is in lower case. -/
theorem lower_of_plain {contentType : String}
    (h : ∀ part ∈ contentTypeParts contentType, charsetLead <+: part.map lowerChar → charsetLead <+: part) :
    charsetParameter? (lower contentType) = (charsetParameter? contentType).map lower := by
  rw [charsetParameter?_eq, charsetParameter?_eq, contentTypeParts_lower, List.findSome?_map]
  revert h
  generalize contentTypeParts contentType = parts
  intro h
  induction parts with
  | nil => rfl
  | cons part parts ih =>
    rw [List.findSome?_cons, List.findSome?_cons]
    have hfirst := dropLead?_map (h part List.mem_cons_self)
    rw [Function.comp_apply, hfirst]
    cases dropLead? charsetLead part with
    | none => exact ih fun other hother => h other (List.mem_cons_of_mem _ hother)
    | some value =>
      simp only [Option.map_some]
      rw [unquoted_map, lower, String.toList_ofList]

theorem isUtf8_of_plain {s : String} (h : IsPlain s) : IsUtf8 s ↔ NamesUtf8 s := by
  rw [isUtf8_iff]
  unfold NamesUtf8
  rw [lower_of_plain h.name]
  have hlong : ∀ v, EqIgnoringCase v "utf-8" ↔ lower v = "utf-8" := fun v => Iff.rfl
  cases hparameter : charsetParameter? s with
  | none => simp
  | some v =>
    have halias : v = "utf8" ↔ lower v = "utf8" := by
      constructor
      · rintro rfl
        rfl
      · exact h.shortForm v hparameter
    simp only [Option.some.injEq, exists_eq_left', Option.map_some, reduceCtorEq, false_or]
    rw [halias, hlong, or_comm]

/-! ## What a reader makes of it -/

namespace Block

/-- Blocks that are the same, but for content types that are judged alike. -/
structure Matches (b b' : Block) : Prop where
  started : b.started = b'.started
  contentLength : b.contentLength = b'.contentLength
  additional : b.additional = b'.additional
  contentType : IsUtf8 b.contentType ↔ IsUtf8 b'.contentType

/-- What becomes of such blocks: they end alike, but for the words of a refused character set. -/
inductive Next.Matches : Next → Next → Prop
  | more {b b' : Block} (h : b.Matches b') : Matches (.more b) (.more b')
  | headers {h h' : Headers} (length : h.contentLength = h'.contentLength) : Matches (.headers h) (.headers h')
  | fault (f : FramingFault) : Matches (.fault f) (.fault f)
  | charset (c c' : String) : Matches (.fault (.unsupportedCharset c)) (.fault (.unsupportedCharset c'))

inductive Scan.Matches : Scan → Scan → Prop
  | headers {h h' : Headers} (length : h.contentLength = h'.contentLength) (rest : List UInt8) :
    Matches (.done (.ok h) rest) (.done (.ok h') rest)
  | fault (f f' : FramingFault) (rest : List UInt8) : Matches (.done (.error f) rest) (.done (.error f') rest)
  | short : Matches .short .short

variable {b b' : Block}

theorem Matches.addField (h : b.Matches b') (name value : String) :
    (b.addField name value).Matches (b'.addField name value) := by
  unfold Block.addField
  split
  · split
    · exact .fault _
    · split
      · exact .fault _
      · exact .more ⟨rfl, rfl, h.additional, h.contentType⟩
  · split
    · exact .more ⟨rfl, h.contentLength, h.additional, Iff.rfl⟩
    · exact .more ⟨rfl, h.contentLength, by simp only [h.additional], h.contentType⟩

theorem Matches.finish (h : b.Matches b') : b.finish.Matches b'.finish := by
  unfold Block.finish
  rw [h.contentLength]
  split
  · exact .fault _
  · dsimp only
    by_cases hutf8 : IsUtf8 b.contentType
    · rw [if_pos hutf8, if_pos (h.contentType.mp hutf8)]
      exact .headers rfl
    · rw [if_neg hutf8, if_neg (fun hutf8' => hutf8 (h.contentType.mpr hutf8'))]
      exact .charset _ _

theorem Matches.addLine (h : b.Matches b') (line : List UInt8) : (b.addLine line).Matches (b'.addLine line) := by
  unfold Block.addLine
  dsimp only
  split
  · next text _ =>
    unfold Block.addText
    split
    · rw [h.started]
      split
      · exact h.finish
      · exact .more h
    · split
      · exact .fault _
      · exact h.addField _ _
  · exact .fault _

theorem Matches.scan (h : b.Matches b') (line bytes : List UInt8) :
    (b.scan line bytes).Matches (b'.scan line bytes) := by
  induction bytes generalizing b b' line with
  | nil => exact .short
  | cons byte bytes ih =>
    unfold Block.scan
    split
    · have hnext := h.addLine line.reverse
      revert hnext
      generalize b.addLine line.reverse = next
      generalize b'.addLine line.reverse = next'
      intro hnext
      cases hnext with
      | more hmore => exact ih hmore []
      | headers length => exact .headers length _
      | fault f => exact .fault f f _
      | charset c c' => exact .fault _ _ _
    · exact ih h _

end Block

/-- Blocks match that hold the same fields, but for a last one that tells content types judged alike. -/
theorem Header.Holds.matches {b b' : Block} {fields : List (String × String)} {name name' s s' : String}
    (h : Header.Holds b (fields ++ [(name, s)])) (h' : Header.Holds b' (fields ++ [(name', s')]))
    (hname : Header.NamesType name) (hname' : Header.NamesType name') (hsame : IsUtf8 s ↔ IsUtf8 s') :
    b.Matches b' := by
  constructor
  · rw [h.started.mpr (by simp), h'.started.mpr (by simp)]
  · rw [h.contentLength, h'.contentLength, Header.lastValue?_concat, Header.lastValue?_concat,
      if_neg hname.not_length, if_neg hname'.not_length]
  · apply Dict.eq_of_get?
    intro key
    rw [h.additional, h'.additional, Header.lastValue?_concat, Header.lastValue?_concat]
    split
    · rfl
    · next hkey =>
      rw [if_neg (by rintro rfl; exact hkey (.inr hname)), if_neg (by rintro rfl; exact hkey (.inr hname'))]
  · rw [h.contentType, h'.contentType, Header.lastValue?_concat, Header.lastValue?_concat, if_pos hname,
      if_pos hname']
    exact hsame

namespace Frame

/-- Content types that are judged alike make no difference to a reader. -/
theorem told_read_eq {fields : List (String × String)} {name name' s s' : String}
    {bytes bytes' line line' rest : List UInt8} (hbegins : Header.Begins bytes fields (line ++ 0x0A :: rest))
    (hbegins' : Header.Begins bytes' fields (line' ++ 0x0A :: rest)) (hname : Header.NamesType name)
    (hname' : Header.NamesType name') (hfield : Header.IsField line name s)
    (hfield' : Header.IsField line' name' s') (hsame : IsUtf8 s ↔ IsUtf8 s') (failure : Option IoFault) :
    told (read failure bytes) = told (read failure bytes') := by
  -- a field that tells the type puts no condition on its value
  have hsound : Header.IsSound (name, s) := fun hlength => absurd hlength hname.not_length
  have hsound' : Header.IsSound (name', s') := fun hlength => absurd hlength hname'.not_length
  obtain ⟨b, hholds, hscan⟩ := (hbegins.field hfield hsound).scan
  obtain ⟨b', hholds', hscan'⟩ := (hbegins'.field hfield' hsound').scan
  have hmatches := (hholds.matches hholds' hname hname' hsame).scan [] rest
  unfold read scan
  rw [hscan, hscan']
  revert hmatches
  generalize b.scan [] rest = found
  generalize b'.scan [] rest = found'
  intro hmatches
  cases hmatches with
  | @headers h h' length left =>
    dsimp only
    rw [length]
    by_cases hshort : left.length < h'.contentLength
    · rw [if_pos hshort, if_pos hshort]
    · rw [if_neg hshort, if_neg hshort]
      rfl
  | fault f f' left => rfl
  | short => rfl

/-- **Letter case counts in the short form of UTF-8 and in the name of the parameter, and nowhere else.** -/
theorem charset_checked (s : String) : CharsetCheck s := by
  constructor
  · exact isUtf8_iff s
  · intro v hparameter halias hne hutf8
    rcases (isUtf8_iff s).mp hutf8 with hnone | ⟨w, hw, hor⟩
    · rw [hparameter] at hnone
      cases hnone
    · obtain rfl := Option.some.inj (hparameter.symm.trans hw)
      rcases hor with heq | hlong
      · exact hne heq
      · exact absurd (halias.symm.trans hlong) (by decide)
  · intro hnone
    apply (isUtf8_iff s).mpr
    left
    rw [charsetParameter?_eq, Option.map_eq_none_iff, List.findSome?_eq_none_iff]
    intro part hpart
    exact if_neg fun heq => hnone part hpart (List.isPrefixOf_iff_prefix.mp heq)
  · exact isUtf8_of_plain
  · intro s' hlike hplain hplain' failure fields name name' bytes bytes' line line' rest hbegins hbegins' hname
      hname' hfield hfield'
    have hsame : IsUtf8 s ↔ IsUtf8 s' := by
      have hlower : lower s = lower s' := hlike
      rw [isUtf8_of_plain hplain, isUtf8_of_plain hplain', NamesUtf8, hlower, NamesUtf8]
    exact told_read_eq hbegins hbegins' hname hname' hfield hfield' hsame failure

/-- The bytes of a frame with a content type. -/
def typedBytes (contentType : String) : List UInt8 :=
  Text.bytes ("Content-Length: 2\r\nContent-Type: " ++ contentType ++ "\r\n\r\n\x7b\x7d")

/-- Letter case does count: UTF-8 is refused under its short form, and another character set is not seen. -/
theorem charset_spelling_matters :
    ¬ ∀ s s' : String, EqIgnoringCase s s' →
      told (read none (typedBytes s)) = told (read none (typedBytes s')) := by
  intro h
  have hrefused := h "text/plain; charset=utf8" "text/plain; charset=UTF8" (by decide)
  exact absurd hrefused (by decide +kernel)

/-- A character set that is not UTF-8 is accepted under a name in another spelling. -/
example : IsUtf8 "text/plain; Charset=latin1" ∧ ¬ IsUtf8 "text/plain; charset=latin1" := by decide

end Frame

end LanguageClient
