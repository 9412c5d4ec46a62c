import LanguageClient.Proofs.Framing.WellFormed

/-!
# LanguageClient.Proofs.Framing.HeaderGrammar -- what a header block is, and where a reader stops

Here the form of a frame is said without a reader. Some bytes begin with header lines (`Header.Begins`):
empty lines first, then lines that hold fields. What ends them is told by `Header.Ends`: an empty line, behind
which a body follows if the fields make a header block, or a line at fault. `Frame.Reads` says for every stream
what is found at its front and where the rest begins. A reader does just this (`Frame.read_exactly`): `scan_of_ends`
follows it along the lines, and `ends_or_cut` says that the lines always come to one of those ends.
-/

namespace LanguageClient

namespace Header

/-! ## Lines -/

/-- The bytes of lines, each with its LF. -/
def joined (lines : List (List UInt8)) : List UInt8 := lines.flatMap (· ++ [0x0A])

/-- A line that holds nothing, but for a CR before its LF. -/
def IsEmpty (line : List UInt8) : Prop := line = [] ∨ line = [0x0D]

/-- A line that holds a field: a text with a colon in it, before which there is a name. -/
structure IsField (line : List UInt8) (name value : String) : Prop where
  oneLine : 0x0A ∉ line
  text : ∃ before after : String, Text.bytes (before ++ ":" ++ after) = Block.dropReturn line ∧
    ':' ∉ before.toList ∧ name = Text.trim before ∧ value = Text.trim after
  named : name ≠ ""

/-- The name of the field that tells the length of the body. -/
def NamesLength (name : String) : Prop := Text.EqIgnoringCase name "content-length"

/-- The name of the field that tells the type of the content. -/
def NamesType (name : String) : Prop := Text.EqIgnoringCase name "content-type"

instance (name : String) : Decidable (NamesLength name) := inferInstanceAs (Decidable (Text.EqIgnoringCase _ _))

instance (name : String) : Decidable (NamesType name) := inferInstanceAs (Decidable (Text.EqIgnoringCase _ _))

/-- A number as a length is written: digits, behind a plus sign or not. -/
def IsLength (value : String) (n : Nat) : Prop :=
  ∃ digits : List Char, (value.toList = digits ∨ value.toList = '+' :: digits) ∧ digits ≠ [] ∧
    (∀ c ∈ digits, Json.isDigit c = true) ∧ Json.digitsValue (digits.map Json.digitValue) = n

/-- A field that is not at fault: if it tells a length, then one that a body may have. -/
def IsSound (field : String × String) : Prop :=
  NamesLength field.1 → ∃ n, n ≤ maxContentLength ∧ IsLength field.2 n

/-- What is wrong with a line. -/
inductive IsFaulty (line : List UInt8) : FramingFault → Prop
  | notUtf8 (noText : ∀ s, Text.bytes s ≠ Block.dropReturn line) :
    IsFaulty line (.notUtf8 ((Text.faultOf? (Block.dropReturn line)).getD (.incomplete 0)))
  | invalidField {s : String} (text : Text.bytes s = Block.dropReturn line) (nonempty : s ≠ "")
    (nameless : ∀ before after : String, s = before ++ ":" ++ after → ':' ∉ before.toList →
      Text.trim before = "") :
    IsFaulty line (.invalidField s)
  | invalidLength {name value : String} (field : IsField line name value) (names : NamesLength name)
    (noLength : ∀ n, IsLength value n → 2 ^ 64 ≤ n) : IsFaulty line (.invalidLength value)
  | tooLong {name value : String} {n : Nat} (field : IsField line name value) (names : NamesLength name)
    (length : IsLength value n) (small : n < 2 ^ 64) (long : maxContentLength < n) :
    IsFaulty line (.tooLong n)

/-! ## Blocks -/

/-- The last value among the fields of certain names. -/
def lastValue? (p : String → Prop) [DecidablePred p] (fields : List (String × String)) : Option String :=
  ((fields.filter (fun field => p field.1)).getLast?).map (·.2)

/-- The header block that fields make. Of the fields of a name the last one counts. -/
structure Makes (fields : List (String × String)) (h : Headers) : Prop where
  length : ∃ value, lastValue? NamesLength fields = some value ∧ IsLength value h.contentLength
  contentType : h.contentType = (lastValue? NamesType fields).getD defaultContentType
  utf8 : IsUtf8 h.contentType
  additional : ∀ name, h.additional.get? name
    = if NamesLength name ∨ NamesType name then none else lastValue? (· = name) fields

/-- Some bytes begin with empty lines and then with the lines of fields that are not at fault. -/
def Begins (bytes : List UInt8) (fields : List (String × String)) (left : List UInt8) : Prop :=
  ∃ blanks lines, bytes = joined blanks ++ joined lines ++ left ∧ (∀ line ∈ blanks, IsEmpty line) ∧
    List.Forall₂ (fun line field => IsField line field.1 field.2) lines fields ∧
    ∀ field ∈ fields, IsSound field

/-- How the header lines at the front of some bytes end, and what follows the line that ends them. -/
inductive Ends (bytes : List UInt8) : Except FramingFault Headers → List UInt8 → Prop
  | headers {fields : List (String × String)} {line rest : List UInt8} {h : Headers}
    (begins : Begins bytes fields (line ++ 0x0A :: rest)) (empty : IsEmpty line) (makes : Makes fields h) :
    Ends bytes (.ok h) rest
  | faulty {fields : List (String × String)} {line rest : List UInt8} {f : FramingFault}
    (begins : Begins bytes fields (line ++ 0x0A :: rest)) (oneLine : 0x0A ∉ line) (wrong : IsFaulty line f) :
    Ends bytes (.error f) rest
  | noLength {fields : List (String × String)} {line rest : List UInt8}
    (begins : Begins bytes fields (line ++ 0x0A :: rest)) (empty : IsEmpty line) (nonempty : fields ≠ [])
    (missing : lastValue? NamesLength fields = none) : Ends bytes (.error .missingLength) rest
  | charset {fields : List (String × String)} {line rest : List UInt8} {contentType : String}
    (begins : Begins bytes fields (line ++ 0x0A :: rest)) (empty : IsEmpty line)
    (present : lastValue? NamesLength fields ≠ none)
    (type : contentType = (lastValue? NamesType fields).getD defaultContentType)
    (unsupported : ¬ IsUtf8 contentType) : Ends bytes (.error (.unsupportedCharset (charsetOf contentType))) rest

/-- The header lines have not come to an end where the bytes have. -/
def IsCut (bytes : List UInt8) : Prop := ∃ fields left, Begins bytes fields left ∧ 0x0A ∉ left

end Header

/-- What is found at the front of a stream that holds some bytes and then ends, and what is left of it. -/
inductive Frame.Reads (failure : Option IoFault) (bytes : List UInt8) : Except Fault Frame → List UInt8 → Prop
  | frame {h : Headers} {body rest : List UInt8} (ends : Header.Ends bytes (.ok h) (body ++ rest))
    (length : body.length = h.contentLength) : Reads failure bytes (.ok ⟨h, body⟩) rest
  | fault {f : FramingFault} {rest : List UInt8} (ends : Header.Ends bytes (.error f) rest) :
    Reads failure bytes (.error (.framing f)) rest
  | headersCut (cut : Header.IsCut bytes) : Reads failure bytes (.error (.io (failure.getD .streamClosed))) []
  | bodyCut {h : Headers} {left : List UInt8} (ends : Header.Ends bytes (.ok h) left)
    (short : left.length < h.contentLength) : Reads failure bytes (.error (.io (failure.getD .bodyCut))) []

namespace Header

variable {bytes left line : List UInt8} {fields : List (String × String)} {name value : String}
  {b : Block} {f : FramingFault} {n : Nat}

/-! ## Lengths -/

/-- What stands behind the plus sign of a value, or the whole if there is none. -/
def unsigned (value : String) : List Char :=
  match value.toList with
  | '+' :: cs => cs
  | cs => cs

theorem isLength_iff : IsLength value n ↔ unsigned value ≠ [] ∧
    (∀ c ∈ unsigned value, Json.isDigit c = true) ∧
    Json.digitsValue ((unsigned value).map Json.digitValue) = n := by
  constructor
  · rintro ⟨digits, hvalue | hvalue, hne, hall, rfl⟩
    · have hunsigned : unsigned value = digits := by
        unfold unsigned
        split
        · next cs hsign =>
          -- a plus sign is no digit
          rw [hvalue] at hsign
          exact absurd (hall '+' (hsign ▸ List.mem_cons_self)) (by decide)
        · exact hvalue
      rw [hunsigned]
      exact ⟨hne, hall, rfl⟩
    · have hunsigned : unsigned value = digits := by simp only [unsigned, hvalue]
      rw [hunsigned]
      exact ⟨hne, hall, rfl⟩
  · rintro ⟨hne, hall, hvalue⟩
    refine ⟨unsigned value, ?_, hne, hall, hvalue⟩
    unfold unsigned
    split
    · next cs hsign => exact .inr hsign
    · exact .inl rfl

/-- A value tells one length. -/
theorem IsLength.unique {m : Nat} (h : IsLength value n) (h' : IsLength value m) : n = m :=
  (isLength_iff.mp h).2.2.symm.trans (isLength_iff.mp h').2.2

theorem readLength?_eq_some_iff : Block.readLength? value = some n ↔ IsLength value n ∧ n < 2 ^ 64 := by
  rw [isLength_iff]
  show (if unsigned value ≠ [] ∧ (unsigned value).all Json.isDigit then
      if Json.digitsValue ((unsigned value).map Json.digitValue) < 2 ^ 64
      then some (Json.digitsValue ((unsigned value).map Json.digitValue)) else none
    else none) = some n ↔ _
  constructor
  · intro h
    split at h
    · next hdigits =>
      split at h
      · next hsmall =>
        obtain rfl := Option.some.inj h
        exact ⟨⟨hdigits.1, List.all_eq_true.mp hdigits.2, rfl⟩, hsmall⟩
      · cases h
    · cases h
  · rintro ⟨⟨hne, hall, rfl⟩, hsmall⟩
    rw [if_pos ⟨hne, List.all_eq_true.mpr hall⟩, if_pos hsmall]

theorem lt_of_le_max (h : n ≤ maxContentLength) : n < 2 ^ 64 := by
  unfold maxContentLength at h
  omega

theorem readLength?_of_isLength (h : IsLength value n) (hle : n ≤ maxContentLength) :
    Block.readLength? value = some n := readLength?_eq_some_iff.mpr ⟨h, lt_of_le_max hle⟩

/-! ## What a block makes of a line -/

theorem dropReturn_eq_nil_iff : Block.dropReturn line = [] ↔ IsEmpty line := by
  unfold Block.dropReturn IsEmpty
  constructor
  · intro h
    split at h
    · next hlast =>
      obtain ⟨before, rfl⟩ := List.getLast?_eq_some_iff.mp hlast
      rw [List.dropLast_concat] at h
      exact .inr (by rw [h, List.nil_append])
    · exact .inl h
  · rintro (rfl | rfl)
    · rfl
    · rfl

theorem NamesType.not_length (h : NamesType name) : ¬ NamesLength name := by
  intro hlength
  exact absurd (hlength.symm.trans h) (by decide)

theorem IsEmpty.oneLine (h : IsEmpty line) : 0x0A ∉ line := by
  rcases h with rfl | rfl
  · exact List.not_mem_nil
  · decide

theorem bytes_eq_nil_iff {s : String} : Text.bytes s = [] ↔ s = "" := by
  constructor
  · intro h
    have hempty := Text.ofBytes?_bytes s
    rw [h, ← Text.bytes_empty, Text.ofBytes?_bytes] at hempty
    exact (Option.some.inj hempty).symm
  · rintro rfl
    exact Text.bytes_empty

theorem addLine_of_text {s : String} (h : Text.bytes s = Block.dropReturn line) (b : Block) :
    b.addLine line = b.addText s := by
  unfold Block.addLine
  simp only [← h, Text.ofBytes?_bytes]

theorem addLine_of_empty (h : IsEmpty line) (b : Block) :
    b.addLine line = if b.started then b.finish else .more b := by
  have hbytes : Text.bytes "" = Block.dropReturn line := by
    rw [dropReturn_eq_nil_iff.mpr h, Text.bytes_empty]
  rw [addLine_of_text hbytes]
  show (if "" = "" then if b.started then b.finish else Block.Next.more b else _) = _
  rw [if_pos rfl]

/-- What stands before and after the first colon of a text. -/
theorem splitField?_eq (before after : String) (h : ':' ∉ before.toList) :
    Block.splitField? (before ++ ":" ++ after)
      = if Text.trim before = "" then none else some (Text.trim before, Text.trim after) := by
  have hcut : Text.cut? ':' (before ++ ":" ++ after).toList = some (before.toList, after.toList) := by
    have htext : (before ++ ":" ++ after).toList = before.toList ++ ':' :: after.toList := by simp
    rw [htext, Block.cut?_append h]
  simp only [Block.splitField?, hcut, String.ofList_toList]

theorem IsField.addLine (h : IsField line name value) (b : Block) :
    b.addLine line = b.addField name value := by
  obtain ⟨before, after, htext, hcolon, rfl, rfl⟩ := h.text
  have hnonempty : before ++ ":" ++ after ≠ "" := by
    intro hempty
    have hchars := congrArg String.toList hempty
    simp at hchars
  rw [addLine_of_text htext, Block.addText, if_neg hnonempty, splitField?_eq before after hcolon,
    if_neg h.named]

/-- A text that holds no field has no name in it before a colon. -/
theorem splitField?_eq_none_iff {s : String} : Block.splitField? s = none ↔
    ∀ before after : String, s = before ++ ":" ++ after → ':' ∉ before.toList → Text.trim before = "" := by
  constructor
  · rintro h before after rfl hcolon
    rw [splitField?_eq before after hcolon] at h
    split at h
    · next hname => exact hname
    · cases h
  · intro h
    unfold Block.splitField?
    cases hcut : Text.cut? ':' s.toList with
    | none => rfl
    | some parts =>
      obtain ⟨before, after⟩ := parts
      obtain ⟨hcolon, hparts⟩ := Text.of_cut? hcut
      have hs : s = String.ofList before ++ ":" ++ String.ofList after := by
        apply String.toList_inj.mp
        simp [hparts]
      have hname := h (String.ofList before) (String.ofList after) hs (by rwa [String.toList_ofList])
      simp only [hname, if_true]

theorem IsFaulty.addLine (h : IsFaulty line f) (b : Block) : b.addLine line = .fault f := by
  cases h with
  | notUtf8 noText =>
    have hnone : Text.ofBytes? (Block.dropReturn line) = none := by
      apply Option.eq_none_iff_forall_ne_some.mpr
      intro s hs
      exact noText s (Text.ofBytes?_eq_some_iff.mp hs)
    simp only [Block.addLine, hnone]
  | invalidField text nonempty nameless =>
    rw [addLine_of_text text, Block.addText, if_neg nonempty, splitField?_eq_none_iff.mpr nameless]
  | @invalidLength name value field names noLength =>
    have hnone : Block.readLength? value = none := by
      apply Option.eq_none_iff_forall_ne_some.mpr
      intro n hn
      obtain ⟨hlength, hsmall⟩ := readLength?_eq_some_iff.mp hn
      exact Nat.not_lt.mpr (noLength n hlength) hsmall
    rw [field.addLine]
    simp only [Block.addField, if_pos (show Text.EqIgnoringCase name "content-length" from names), hnone]
  | @tooLong name value n field names length small long =>
    rw [field.addLine]
    simp only [Block.addField, if_pos (show Text.EqIgnoringCase name "content-length" from names),
      readLength?_eq_some_iff.mpr ⟨length, small⟩, if_pos long]

/-- Every line is empty, or holds a field that is not at fault, or is at fault. -/
theorem line_cases (h : 0x0A ∉ line) :
    IsEmpty line ∨ (∃ name value, IsField line name value ∧ IsSound (name, value))
      ∨ ∃ f, IsFaulty line f := by
  cases htext : Text.ofBytes? (Block.dropReturn line) with
  | none =>
    refine .inr (.inr ⟨_, .notUtf8 ?_⟩)
    intro s hs
    rw [← hs, Text.ofBytes?_bytes] at htext
    cases htext
  | some s =>
    have hbytes := Text.ofBytes?_eq_some_iff.mp htext
    by_cases hempty : s = ""
    · left
      rw [← dropReturn_eq_nil_iff, ← hbytes]
      exact bytes_eq_nil_iff.mpr hempty
    right
    by_cases hnameless : ∀ before after : String, s = before ++ ":" ++ after → ':' ∉ before.toList →
        Text.trim before = ""
    · exact .inr ⟨_, .invalidField hbytes hempty hnameless⟩
    simp only [not_forall] at hnameless
    obtain ⟨before, after, hs, hcolon, hname⟩ := hnameless
    have hfield : IsField line (Text.trim before) (Text.trim after) :=
      ⟨h, ⟨before, after, hs ▸ hbytes, hcolon, rfl, rfl⟩, hname⟩
    -- only a field that tells a length can be at fault
    by_cases hnames : NamesLength (Text.trim before)
    · cases hread : Block.readLength? (Text.trim after) with
      | none =>
        refine .inr ⟨_, .invalidLength hfield hnames ?_⟩
        intro n hn
        by_contra hsmall
        rw [readLength?_eq_some_iff.mpr ⟨hn, Nat.not_le.mp hsmall⟩] at hread
        cases hread
      | some n =>
        obtain ⟨hlength, hsmall⟩ := readLength?_eq_some_iff.mp hread
        by_cases hlong : maxContentLength < n
        · exact .inr ⟨_, .tooLong hfield hnames hlength hsmall hlong⟩
        · exact .inl ⟨_, _, hfield, fun _ => ⟨n, Nat.not_lt.mp hlong, hlength⟩⟩
    · exact .inl ⟨_, _, hfield, fun hlength => absurd hlength hnames⟩

/-! ## What a block holds -/

section lastValue

variable (p : String → Prop) [DecidablePred p]

theorem lastValue?_concat (fields : List (String × String)) (name value : String) :
    lastValue? p (fields ++ [(name, value)]) = if p name then some value else lastValue? p fields := by
  unfold lastValue?
  by_cases h : p name
  · simp [List.filter_append, h]
  · simp [List.filter_append, h]

variable {p}

theorem mem_of_lastValue? (h : lastValue? p fields = some value) : ∃ name, p name ∧ (name, value) ∈ fields := by
  obtain ⟨⟨name, value'⟩, hlast, rfl⟩ := Option.map_eq_some_iff.mp h
  have hmem := List.mem_filter.mp (List.mem_of_getLast? hlast)
  exact ⟨name, of_decide_eq_true hmem.2, hmem.1⟩

end lastValue

/-- A block holds fields if it has of each name what the last field tells. -/
structure Holds (b : Block) (fields : List (String × String)) : Prop where
  started : b.started = true ↔ fields ≠ []
  contentLength : b.contentLength = (lastValue? NamesLength fields).bind Block.readLength?
  contentType : b.contentType = (lastValue? NamesType fields).getD defaultContentType
  additional : ∀ name, b.additional.get? name
    = if NamesLength name ∨ NamesType name then none else lastValue? (· = name) fields

theorem holds_empty : Holds {} [] where
  started := by simp
  contentLength := rfl
  contentType := rfl
  additional name := by
    show none = if _ then none else none
    split <;> rfl

/-- What is known of the other names stays when a field tells the length or the type. -/
theorem Holds.additional_concat (h : Holds b fields) (hname : NamesLength name ∨ NamesType name)
    (value other : String) : b.additional.get? other = if NamesLength other ∨ NamesType other then none
      else lastValue? (· = other) (fields ++ [(name, value)]) := by
  rw [h.additional, lastValue?_concat]
  by_cases hother : name = other
  · subst hother
    rw [if_pos hname, if_pos hname]
  · rw [if_neg hother]

/-- A field that is not at fault goes into the block. -/
theorem Holds.addField (h : Holds b fields) (hsound : IsSound (name, value)) :
    ∃ b', b.addField name value = .more b' ∧ Holds b' (fields ++ [(name, value)]) := by
  have hnonempty : fields ++ [(name, value)] ≠ [] := by simp
  unfold Block.addField
  by_cases hlength : NamesLength name
  · obtain ⟨n, hle, hn⟩ := hsound hlength
    have hnotType : ¬ NamesType name := fun htype => htype.not_length hlength
    simp only [if_pos (show Text.EqIgnoringCase name "content-length" from hlength),
      readLength?_of_isLength hn hle, if_neg (Nat.not_lt.mpr hle)]
    refine ⟨_, rfl, iff_of_true rfl hnonempty, ?_, ?_, h.additional_concat (.inl hlength) value⟩
    · rw [lastValue?_concat, if_pos hlength, Option.bind_some, readLength?_of_isLength hn hle]
    · rw [lastValue?_concat, if_neg hnotType]
      exact h.contentType
  · rw [if_neg (show ¬ Text.EqIgnoringCase name "content-length" from hlength)]
    have hcontent : b.contentLength
        = (lastValue? NamesLength (fields ++ [(name, value)])).bind Block.readLength? := by
      rw [lastValue?_concat, if_neg hlength]
      exact h.contentLength
    by_cases htype : NamesType name
    · rw [if_pos (show Text.EqIgnoringCase name "content-type" from htype)]
      refine ⟨_, rfl, iff_of_true rfl hnonempty, hcontent, ?_, h.additional_concat (.inr htype) value⟩
      rw [lastValue?_concat, if_pos htype]
      rfl
    · rw [if_neg (show ¬ Text.EqIgnoringCase name "content-type" from htype)]
      refine ⟨_, rfl, iff_of_true rfl hnonempty, hcontent, ?_, ?_⟩
      · rw [lastValue?_concat, if_neg htype]
        exact h.contentType
      · intro other
        rw [lastValue?_concat]
        show (Assoc.insert name value b.additional.entries).lookup other = _
        rw [Assoc.lookup_insert]
        by_cases hother : name = other
        · subst hother
          rw [if_pos rfl, if_pos rfl, if_neg (not_or.mpr ⟨hlength, htype⟩)]
        · rw [if_neg (Ne.symm hother), if_neg hother]
          exact h.additional other

/-! ## What ends a block -/

/-- The length that a block holds is the last that was told. -/
theorem Holds.length (h : Holds b fields) (hsound : ∀ field ∈ fields, IsSound field)
    (hlast : lastValue? NamesLength fields = some value) :
    ∃ n, IsLength value n ∧ n ≤ maxContentLength ∧ b.contentLength = some n := by
  obtain ⟨name, hname, hmem⟩ := mem_of_lastValue? hlast
  obtain ⟨n, hle, hlength⟩ := hsound _ hmem hname
  refine ⟨n, hlength, hle, ?_⟩
  rw [h.contentLength, hlast, Option.bind_some, readLength?_of_isLength hlength hle]

/-- A block that holds fields makes the header block that they make. -/
theorem Holds.finish (h : Holds b fields) (hsound : ∀ field ∈ fields, IsSound field) {headers : Headers}
    (hmakes : Makes fields headers) : b.finish = .headers headers := by
  obtain ⟨value, hlast, hlength⟩ := hmakes.length
  obtain ⟨n, hn, hle, hcontent⟩ := h.length hsound hlast
  have hheaders : headers = { contentLength := n, contentType := b.contentType, additional := b.additional } := by
    have hadditional : headers.additional = b.additional := by
      apply Dict.eq_of_get?
      intro name
      rw [h.additional]
      exact hmakes.additional name
    have htype : headers.contentType = b.contentType := hmakes.contentType.trans h.contentType.symm
    rw [← hlength.unique hn, ← hadditional, ← htype]
  have hutf8 : IsUtf8 b.contentType := by
    rw [h.contentType, ← hmakes.contentType]
    exact hmakes.utf8
  simp only [Block.finish, hcontent, if_pos hutf8, hheaders]

theorem Holds.finish_of_missing (h : Holds b fields) (hmissing : lastValue? NamesLength fields = none) :
    b.finish = .fault .missingLength := by
  have hcontent : b.contentLength = none := by
    rw [h.contentLength, hmissing]
    rfl
  simp only [Block.finish, hcontent]

theorem Holds.finish_of_unsupported (h : Holds b fields) (hsound : ∀ field ∈ fields, IsSound field)
    (hpresent : lastValue? NamesLength fields ≠ none) (hutf8 : ¬ IsUtf8 b.contentType) :
    b.finish = .fault (.unsupportedCharset (charsetOf b.contentType)) := by
  obtain ⟨value, hlast⟩ := Option.ne_none_iff_exists'.mp hpresent
  obtain ⟨n, -, -, hcontent⟩ := h.length hsound hlast
  simp only [Block.finish, hcontent, if_neg hutf8]
  rfl

/-! ## Along the lines -/

theorem joined_cons (line : List UInt8) (lines : List (List UInt8)) (rest : List UInt8) :
    joined (line :: lines) ++ rest = line ++ 0x0A :: (joined lines ++ rest) := by
  simp [joined]

/-- What the next line does to a block. -/
theorem scan_next (b : Block) (h : 0x0A ∉ line) (rest : List UInt8) :
    b.scan [] (line ++ 0x0A :: rest) = match b.addLine line with
      | .more b => b.scan [] rest
      | .headers h => .done (.ok h) rest
      | .fault f => .done (.error f) rest := by
  have hscan := Block.scan_until b [] h rest
  rw [List.reverse_nil, List.nil_append] at hscan
  exact hscan

/-- Where lines are in order, the block holds their fields, and what follows them is still to be read. -/
theorem Begins.scan (h : Begins bytes fields left) :
    ∃ b, Holds b fields ∧ Block.scan {} [] bytes = b.scan [] left := by
  obtain ⟨blanks, lines, rfl, hblanks, hlines, hsound⟩ := h
  have hskip : ∀ rest, Block.scan {} [] (joined blanks ++ rest) = Block.scan {} [] rest := by
    intro rest
    induction blanks with
    | nil => rfl
    | cons line blanks ih =>
      have hempty : IsEmpty line := hblanks line List.mem_cons_self
      rw [joined_cons, scan_next _ hempty.oneLine, addLine_of_empty hempty]
      exact ih fun other hother => hblanks other (List.mem_cons_of_mem _ hother)
  -- the fields go into the block one by one, behind those that it holds
  have htake : ∀ {b : Block} {before : List (String × String)}, Holds b before →
      ∃ b', Holds b' (before ++ fields) ∧ b.scan [] (joined lines ++ left) = b'.scan [] left := by
    clear hskip
    induction hlines with
    | nil =>
      intro b before hholds
      exact ⟨b, by rwa [List.append_nil], rfl⟩
    | @cons line field lines fields hfield _ ih =>
      intro b before hholds
      have hfirst : IsSound field := hsound field List.mem_cons_self
      obtain ⟨b', hadd, hholds'⟩ := hholds.addField hfirst
      obtain ⟨b'', hholds'', hscan⟩ := ih (fun other hother => hsound other (List.mem_cons_of_mem _ hother))
        hholds'
      refine ⟨b'', by rwa [List.append_assoc] at hholds'', ?_⟩
      rw [joined_cons, scan_next _ hfield.oneLine, hfield.addLine, hadd]
      exact hscan
  obtain ⟨b, hholds, hscan⟩ := htake holds_empty
  refine ⟨b, hholds, ?_⟩
  rw [List.append_assoc, hskip]
  exact hscan

theorem scan_of_no_end (b : Block) (held : List UInt8) (h : 0x0A ∉ left) : b.scan held left = .short := by
  induction left generalizing held with
  | nil => rfl
  | cons byte left ih =>
    have hne : byte ≠ 0x0A := fun heq => h (heq ▸ List.mem_cons_self)
    rw [Block.scan, if_neg hne]
    exact ih (byte :: held) fun hmem => h (List.mem_cons_of_mem _ hmem)

/-- The last line of a block that holds some field ends it. -/
theorem Holds.addLine_of_empty (h : Holds b fields) (hnonempty : fields ≠ []) (hempty : IsEmpty line) :
    b.addLine line = b.finish := by
  rw [Header.addLine_of_empty hempty, if_pos (h.started.mpr hnonempty)]

theorem ne_nil_of_lastValue? {p : String → Prop} [DecidablePred p] (h : lastValue? p fields ≠ none) :
    fields ≠ [] := by
  rintro rfl
  exact h rfl

/-- A reader stops where header lines end, and finds what they make or what is wrong with them. -/
theorem scan_of_ends {result : Except FramingFault Headers} {rest : List UInt8}
    (h : Ends bytes result rest) : Block.scan {} [] bytes = .done result rest := by
  cases h with
  | @headers fields line rest headers begins empty makes =>
    obtain ⟨b, hholds, hscan⟩ := begins.scan
    obtain ⟨_, _, _, _, _, hsound⟩ := begins
    obtain ⟨value, hlast, -⟩ := makes.length
    have hnonempty : fields ≠ [] := ne_nil_of_lastValue? (hlast ▸ Option.some_ne_none value)
    rw [hscan, scan_next b empty.oneLine, hholds.addLine_of_empty hnonempty empty, hholds.finish hsound makes]
  | @faulty fields line rest f begins oneLine wrong =>
    obtain ⟨b, -, hscan⟩ := begins.scan
    rw [hscan, scan_next b oneLine, wrong.addLine]
  | @noLength fields line rest begins empty nonempty missing =>
    obtain ⟨b, hholds, hscan⟩ := begins.scan
    rw [hscan, scan_next b empty.oneLine, hholds.addLine_of_empty nonempty empty,
      hholds.finish_of_missing missing]
  | @charset fields line rest contentType begins empty present type unsupported =>
    obtain ⟨b, hholds, hscan⟩ := begins.scan
    obtain ⟨_, _, _, _, _, hsound⟩ := begins
    have htype : contentType = b.contentType := type.trans hholds.contentType.symm
    rw [htype] at unsupported ⊢
    rw [hscan, scan_next b empty.oneLine, hholds.addLine_of_empty (ne_nil_of_lastValue? present) empty,
      hholds.finish_of_unsupported hsound present unsupported]

theorem scan_of_isCut (h : IsCut bytes) : Block.scan {} [] bytes = .short := by
  obtain ⟨fields, left, hbegins, hcut⟩ := h
  obtain ⟨b, -, hscan⟩ := hbegins.scan
  rw [hscan, scan_of_no_end b [] hcut]

/-! ## The lines come to an end -/

theorem begins_self (bytes : List UInt8) : Begins bytes [] bytes :=
  ⟨[], [], rfl, fun _ h => absurd h List.not_mem_nil, .nil, fun _ h => absurd h List.not_mem_nil⟩

theorem Begins.blank {rest : List UInt8} (h : Begins bytes [] (line ++ 0x0A :: rest)) (hempty : IsEmpty line) :
    Begins bytes [] rest := by
  obtain ⟨blanks, lines, rfl, hblanks, hlines, hsound⟩ := h
  obtain rfl := List.forall₂_nil_right_iff.mp hlines
  refine ⟨blanks ++ [line], [], ?_, ?_, .nil, hsound⟩
  · show joined blanks ++ [] ++ (line ++ 0x0A :: rest) = joined (blanks ++ [line]) ++ [] ++ rest
    simp [joined]
  · intro other hother
    rcases List.mem_append.mp hother with hother | hother
    · exact hblanks other hother
    · rw [List.mem_singleton.mp hother]
      exact hempty

theorem Begins.field {rest : List UInt8} (h : Begins bytes fields (line ++ 0x0A :: rest))
    (hfield : IsField line name value) (hfits : IsSound (name, value)) :
    Begins bytes (fields ++ [(name, value)]) rest := by
  obtain ⟨blanks, lines, rfl, hblanks, hlines, hsound⟩ := h
  refine ⟨blanks, lines ++ [line], ?_, hblanks, List.rel_append hlines (.cons hfield .nil), ?_⟩
  · simp [joined]
  · intro other hother
    rcases List.mem_append.mp hother with hother | hother
    · exact hsound other hother
    · rw [List.mem_singleton.mp hother]
      exact hfits

/-- An empty line behind fields ends the block, in one way or another. -/
theorem Begins.ends {rest : List UInt8} (h : Begins bytes fields (line ++ 0x0A :: rest))
    (hempty : IsEmpty line) (hnonempty : fields ≠ []) : ∃ result, Ends bytes result rest := by
  obtain ⟨b, hholds, -⟩ := h.scan
  by_cases hmissing : lastValue? NamesLength fields = none
  · exact ⟨_, .noLength h hempty hnonempty hmissing⟩
  by_cases hutf8 : IsUtf8 b.contentType
  · obtain ⟨value, hlast⟩ := Option.ne_none_iff_exists'.mp hmissing
    obtain ⟨_, _, _, _, _, hsound⟩ := id h
    obtain ⟨n, hlength, -, -⟩ := hholds.length hsound hlast
    refine ⟨_, .headers (h := ⟨n, b.contentType, b.additional⟩) h hempty ?_⟩
    exact ⟨⟨value, hlast, hlength⟩, hholds.contentType, hutf8, hholds.additional⟩
  · refine ⟨_, .charset h hempty hmissing rfl ?_⟩
    rwa [← hholds.contentType]

/-- Header lines come to an end, or the bytes do before them. -/
theorem Begins.ends_or_cut (h : Begins bytes fields left) :
    (∃ result rest, Ends bytes result rest) ∨ IsCut bytes := by
  -- a line that does not end the block leaves fewer bytes, and one field more or none
  induction hlength : left.length using Nat.strongRecOn generalizing left fields with
  | ind length ih =>
    by_cases hend : 0x0A ∈ left
    · obtain ⟨line, rest, rfl, hline⟩ := List.eq_append_cons_of_mem hend
      have hshort : rest.length < length := by
        rw [← hlength, List.length_append, List.length_cons]
        omega
      rcases line_cases hline with hempty | ⟨name, value, hfield, hfits⟩ | ⟨f, hwrong⟩
      · by_cases hnone : fields = []
        · subst hnone
          exact ih _ hshort (h.blank hempty) rfl
        · obtain ⟨result, hends⟩ := h.ends hempty hnone
          exact .inl ⟨result, rest, hends⟩
      · exact ih _ hshort (h.field hfield hfits) rfl
      · exact .inl ⟨_, rest, .faulty h hline hwrong⟩
    · exact .inr ⟨fields, left, h, hend⟩

theorem ends_or_cut (bytes : List UInt8) : (∃ result rest, Ends bytes result rest) ∨ IsCut bytes :=
  (begins_self bytes).ends_or_cut

end Header

/-! ## Frames -/

namespace Frame

open Header

theorem read_of_reads {failure : Option IoFault} {bytes rest : List UInt8} {result : Except Fault Frame}
    (h : Reads failure bytes result rest) : read failure bytes = (result, rest) := by
  unfold read scan
  cases h with
  | @frame h body rest ends length =>
    rw [scan_of_ends ends]
    simp only
    rw [if_neg (by rw [List.length_append]; omega), ← length, List.take_left, List.drop_left]
  | fault ends => rw [scan_of_ends ends]
  | headersCut cut => rw [scan_of_isCut cut]
  | bodyCut ends short =>
    rw [scan_of_ends ends]
    simp only
    rw [if_pos short]

theorem exists_reads (failure : Option IoFault) (bytes : List UInt8) :
    ∃ result rest, Reads failure bytes result rest := by
  rcases ends_or_cut bytes with ⟨f | h, left, hends⟩ | hcut
  · exact ⟨_, _, .fault hends⟩
  · by_cases hshort : left.length < h.contentLength
    · exact ⟨_, _, .bodyCut hends hshort⟩
    · have hwhole : left.take h.contentLength ++ left.drop h.contentLength = left :=
        List.take_append_drop _ _
      refine ⟨_, _, .frame (hwhole.symm ▸ hends) ?_⟩
      rw [List.length_take]
      omega
  · exact ⟨_, _, .headersCut hcut⟩

theorem read_eq_iff {failure : Option IoFault} {bytes rest : List UInt8} {result : Except Fault Frame} :
    read failure bytes = (result, rest) ↔ Reads failure bytes result rest := by
  constructor
  · intro h
    obtain ⟨result', rest', hreads⟩ := exists_reads failure bytes
    obtain ⟨rfl, rfl⟩ := Prod.mk.inj (h.symm.trans (read_of_reads hreads))
    exact hreads
  · exact read_of_reads

/-- **A reader finds just what stands at the front of a stream, and leaves just what follows it**, in whatever
chunks the bytes come and however the stream ends. -/
theorem read_exactly (failure : Option IoFault) (s : Chunked) (result : Except Fault Frame)
    (rest : List UInt8) :
    (∃ s', s.frame failure = (result, s') ∧ s'.bytes = rest) ↔ Reads failure s.bytes result rest := by
  have hpull : (s.frame failure).map id Chunked.bytes = read failure s.bytes :=
    pull_eq failure s.arrived s.coming
  rw [← read_eq_iff, ← hpull]
  constructor
  · rintro ⟨s', hframe, rfl⟩
    rw [hframe]
    rfl
  · intro h
    obtain ⟨hresult, hrest⟩ := Prod.mk.inj h
    exact ⟨(s.frame failure).2, Prod.ext hresult rfl, hrest⟩

end Frame

end LanguageClient
