import LanguageClient.Proofs.Framing.Scan
import LanguageClient.Proofs.Text.Bytes
import LanguageClient.Proofs.Text.Digits

/-!
# LanguageClient.Proofs.Framing.HeaderLines -- a header block as it is written and read

Lines that are written are read as the lines they are, one by one (`Block.scan_line`), a line of a name
and a value as that field (`Block.splitField?_line`), and the length of a body as that length. So the
frame of any body is found at the front of any bytes that start with it (`Frame.scan_bodyBytes`), and
at the front of no less (`Frame.scan_cut`).
-/

namespace LanguageClient

/-! ## Lines -/

namespace Block

theorem scan_until (b : Block) (line : List UInt8) {bytes : List UInt8} (hline : 0x0A ∉ bytes)
    (rest : List UInt8) :
    b.scan line (bytes ++ 0x0A :: rest) =
      match b.addLine (line.reverse ++ bytes) with
      | .more b => b.scan [] rest
      | .headers h => .done (.ok h) rest
      | .fault f => .done (.error f) rest := by
  induction bytes generalizing line with
  | nil =>
    rw [List.nil_append, List.append_nil]
    exact scan_end b line rest
  | cons byte bytes ih =>
    have hne : byte ≠ 0x0A := fun heq => hline (heq ▸ List.mem_cons_self)
    have htail : 0x0A ∉ bytes := fun hmem => hline (List.mem_cons_of_mem _ hmem)
    -- the present line is held with its last byte first
    rw [List.cons_append, scan, if_neg hne, ih (byte :: line) htail, List.reverse_cons,
      List.append_assoc, List.singleton_append]

theorem addLine_return (b : Block) (text : String) :
    b.addLine (Text.bytes text ++ [0x0D]) = b.addText text := by
  have hdrop : dropReturn (Text.bytes text ++ [0x0D]) = Text.bytes text := by
    unfold dropReturn
    rw [List.getLast?_concat, if_pos rfl, List.dropLast_concat]
  unfold addLine
  simp only [hdrop, Text.ofBytes?_bytes]

/-- A line of text is read as it was written. -/
theorem scan_line (b : Block) {text : String} (hline : '\n' ∉ text.toList) (rest : List UInt8) :
    b.scan [] (Text.bytes (text ++ "\r\n") ++ rest) =
      match b.addText text with
      | .more b => b.scan [] rest
      | .headers h => .done (.ok h) rest
      | .fault f => .done (.error f) rest := by
  have hend : Text.bytes "\r\n" = [0x0D] ++ [0x0A] := by
    rw [Text.bytes_eq]
    rfl
  have hbytes : 0x0A ∉ Text.bytes text ++ [0x0D] := by
    have hiff := Text.ascii_mem_bytes_iff (s := text) (c := '\n') (by decide)
    rw [List.mem_append, not_or]
    exact ⟨fun hmem => hline (hiff.mp hmem), by decide⟩
  rw [Text.bytes_append, hend, ← List.append_assoc, List.append_assoc _ [0x0A], List.singleton_append,
    scan_until b [] hbytes, List.reverse_nil, List.nil_append, addLine_return]

/-! ## Fields -/

theorem cut?_append {sep : Char} {cs : List Char} (h : sep ∉ cs) (rest : List Char) :
    Text.cut? sep (cs ++ sep :: rest) = some (cs, rest) := by
  induction cs with
  | nil => simp [Text.cut?]
  | cons c cs ih =>
    have hne : c ≠ sep := fun heq => h (heq ▸ List.mem_cons_self)
    have htail : sep ∉ cs := fun hmem => h (List.mem_cons_of_mem _ hmem)
    rw [List.cons_append, Text.cut?, if_neg hne, ih htail]
    rfl

/-- What stands before and after the colon of a line that was written is its name and its value. -/
theorem splitField?_line {name value : String} (hname : name ≠ "") (htrim : Text.Trimmed name)
    (hcolon : ':' ∉ name.toList) (hvalue : Text.Trimmed value) :
    splitField? (name ++ ": " ++ value) = some (name, value) := by
  have hcut : Text.cut? ':' (name ++ ": " ++ value).toList
      = some (name.toList, ' ' :: value.toList) := by
    have htext : (name ++ ": " ++ value).toList = name.toList ++ ':' :: ' ' :: value.toList := by
      simp
    rw [htext, cut?_append hcolon]
  have hfst : Text.trim (String.ofList name.toList) = name := by
    rw [String.ofList_toList]
    exact htrim
  have hsnd : Text.trim (String.ofList (' ' :: value.toList)) = value := by
    have hblank : Text.stripChars Text.isBlank (' ' :: value.toList)
        = Text.stripChars Text.isBlank value.toList := rfl
    unfold Text.trim
    rw [String.toList_ofList, hblank]
    exact hvalue
  simp only [splitField?, hcut, hfst, hsnd, if_neg hname]

/-! ## Lengths -/

theorem readLength?_toString {n : Nat} (h : n < 2 ^ 64) : readLength? (toString n) = some n := by
  have hchars : (toString n).toList = Nat.toDigits 10 n := by
    rw [Nat.toString_eq_ofList_toDigits, String.toList_ofList]
  have hplus : '+' ∉ Nat.toDigits 10 n := by
    intro hmem
    exact absurd (Json.isDigit_of_mem_toDigits hmem) (by decide)
  unfold readLength?
  rw [hchars]
  split
  · next cs heq => exact absurd (heq ▸ List.mem_cons_self) hplus
  · simp only [Json.all_isDigit_toDigits, Json.digitsValue_toDigits]
    rw [if_pos ⟨Nat.toDigits_ne_nil, trivial⟩, if_pos h]

/-- A text without blanks is trimmed. -/
theorem trimmed_of_no_blank {s : String} (h : ∀ c ∈ s.toList, Text.isBlank c = false) :
    Text.Trimmed s := by
  have hkeep : ∀ cs : List Char, (∀ c ∈ cs, Text.isBlank c = false) →
      cs.dropWhile Text.isBlank = cs := by
    intro cs hcs
    cases cs with
    | nil => rfl
    | cons c cs => rw [List.dropWhile_cons, if_neg (by simp [hcs c List.mem_cons_self])]
  unfold Text.Trimmed Text.trim Text.stripChars
  rw [hkeep _ h, hkeep _ (fun c hc => h c (List.mem_reverse.mp hc)), List.reverse_reverse,
    String.ofList_toList]

theorem isBlank_of_isDigit {c : Char} (h : Json.isDigit c = true) : Text.isBlank c = false := by
  simp only [Json.isDigit, Bool.and_eq_true, decide_eq_true_eq, Char.le_def] at h
  have hlow : 48 ≤ c.toNat := UInt32.le_iff_toNat_le.mp h.1
  have hhigh : c.toNat ≤ 57 := UInt32.le_iff_toNat_le.mp h.2
  simp only [Text.isBlank, Bool.or_eq_false_iff, Bool.and_eq_false_iff, beq_eq_false_iff_ne,
    decide_eq_false_iff_not]
  omega

theorem trimmed_toString (n : Nat) : Text.Trimmed (toString n) := by
  apply trimmed_of_no_blank
  intro c hc
  rw [Nat.toString_eq_ofList_toDigits, String.toList_ofList] at hc
  exact isBlank_of_isDigit (Json.isDigit_of_mem_toDigits hc)

/-- The line that tells the length of a body is taken for what it says. -/
theorem addText_contentLength {n : Nat} (h : n ≤ maxContentLength) :
    addText {} ("Content-Length: " ++ toString n)
      = .more { started := true, contentLength := some n } := by
  have hne : "Content-Length: " ++ toString n ≠ "" := by
    intro heq
    have hlen := congrArg String.length heq
    simp at hlen
  have hsplit : splitField? ("Content-Length: " ++ toString n)
      = some ("Content-Length", toString n) := by
    have hline : splitField? ("Content-Length" ++ ": " ++ toString n)
        = some ("Content-Length", toString n) :=
      splitField?_line (by decide) (by decide) (by decide) (trimmed_toString n)
    rwa [show "Content-Length" ++ ": " = "Content-Length: " from rfl] at hline
  have hlarge : n < 2 ^ 64 := by
    unfold maxContentLength at h
    omega
  have hname : Text.EqIgnoringCase "Content-Length" "content-length" := by decide
  unfold addText
  rw [if_neg hne, hsplit]
  simp only [addField, if_pos hname, readLength?_toString hlarge, if_neg (Nat.not_lt.mpr h)]

theorem isUtf8_defaultContentType : IsUtf8 defaultContentType := by decide

theorem addText_end (n : Nat) :
    addText { started := true, contentLength := some n } "" = .headers { contentLength := n } := by
  simp only [addText, finish, if_true, if_pos isUtf8_defaultContentType]

end Block

/-! ## Frames of bodies -/

namespace Frame

theorem bodyBytes_eq (body : List UInt8) :
    bodyBytes body = Text.bytes ("Content-Length: " ++ toString body.length ++ "\r\n")
      ++ (Text.bytes ("" ++ "\r\n") ++ body) := by
  have htext : (ofBody body).headers.textIn []
      = ("Content-Length: " ++ toString body.length ++ "\r\n") ++ ("" ++ "\r\n") := by
    have hline : Headers.line "Content-Length" (toString body.length)
        = "Content-Length: " ++ toString body.length ++ "\r\n" := rfl
    show Headers.line "Content-Length" (toString body.length) ++ "" ++ "" ++ "\r\n" = _
    rw [hline, String.append_empty, String.append_empty, String.empty_append]
  show Text.bytes ((ofBody body).headers.textIn []) ++ body = _
  rw [htext, Text.bytes_append, List.append_assoc]

/-- **The frame of a body is found in front of whatever follows it.** -/
theorem scan_bodyBytes {body : List UInt8} (h : body.length ≤ maxContentLength)
    (more : List UInt8) :
    scan (bodyBytes body ++ more) = .done (.ok (ofBody body)) more := by
  have hline : '\n' ∉ ("Content-Length: " ++ toString body.length).toList := by
    rw [String.toList_append, List.mem_append, not_or]
    refine ⟨by decide, fun hmem => ?_⟩
    rw [Nat.toString_eq_ofList_toDigits, String.toList_ofList] at hmem
    exact absurd (Json.isDigit_of_mem_toDigits hmem) (by decide)
  -- the first line tells the length, and the empty one after it ends the block
  have hblock : Block.scan {} [] (bodyBytes body ++ more)
      = .done (.ok { contentLength := body.length }) (body ++ more) := by
    rw [bodyBytes_eq, List.append_assoc, Block.scan_line _ hline, Block.addText_contentLength h,
      List.append_assoc]
    simp only
    rw [Block.scan_line _ (by decide), Block.addText_end]
  unfold scan
  rw [hblock]
  simp only
  rw [if_neg (by rw [List.length_append]; omega), List.take_left, List.drop_left]
  rfl

theorem bodyBytes_ne_nil (body : List UInt8) : bodyBytes body ≠ [] := by
  have hend : Text.bytes "\r\n" ≠ [] := by
    rw [Text.bytes_eq]
    decide
  rw [bodyBytes_eq, Text.bytes_append]
  simp [hend]

/-- A frame that is cut off is not found. -/
theorem scan_cut {body : List UInt8} (h : body.length ≤ maxContentLength) {n : Nat}
    (hn : n < (bodyBytes body).length) :
    scan ((bodyBytes body).take n) = .shortHeaders ∨ scan ((bodyBytes body).take n) = .shortBody := by
  cases hscan : scan ((bodyBytes body).take n) with
  | shortHeaders => exact .inl rfl
  | shortBody => exact .inr rfl
  | done result rest =>
    -- with the rest of the frame behind it, it would be found with that rest left over
    exfalso
    have hwhole := scan_append hscan ((bodyBytes body).drop n)
    have hfound := scan_bodyBytes h []
    rw [List.append_nil] at hfound
    rw [List.take_append_drop, hfound, Scan.done.injEq] at hwhole
    have hleft : (bodyBytes body).drop n = [] := (List.append_eq_nil_iff.mp hwhole.2.symm).2
    have hle := List.drop_eq_nil_iff.mp hleft
    omega

end Frame

end LanguageClient
