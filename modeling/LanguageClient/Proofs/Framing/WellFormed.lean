import LanguageClient.Proofs.Dict
import LanguageClient.Proofs.Framing.HeaderLines
import Mathlib.Data.List.DropRight

/-!
# LanguageClient.Proofs.Framing.WellFormed -- the frames that survive writing and reading

A well-formed frame is found at the front of its bytes, in whatever order its additional fields are written,
and whatever follows (`Frame.scan_bytesIn`). Conversely a reader finds no other frames
(`Frame.wellFormed_of_scan`): all that it takes into a block fits into a well-formed frame (`Block.Fits`).
So the well-formed frames are exactly those that survive (`Frame.survival`).
-/

namespace LanguageClient

/-! ## Texts -/

namespace Text

/-- What is dropped from the ends of a list is gone. -/
theorem stripChars_stripChars (drop : Char → Bool) (cs : List Char) :
    stripChars drop (stripChars drop cs) = stripChars drop cs := by
  have hstrip : ∀ ds, stripChars drop ds = (ds.dropWhile drop).rdropWhile drop := fun _ => rfl
  have hlead := List.dropWhile_eq_self_iff.mp (List.dropWhile_idempotent drop cs)
  have hkept : stripChars drop cs <+: cs.dropWhile drop := List.rdropWhile_prefix drop _
  -- what is left starts like the list without its lead, so that no more can be dropped there
  have hstart : (stripChars drop cs).dropWhile drop = stripChars drop cs := by
    apply List.dropWhile_eq_self_iff.mpr
    intro hpos
    rw [hkept.getElem hpos]
    exact hlead (Nat.lt_of_lt_of_le hpos hkept.length_le)
  rw [hstrip (stripChars drop cs), hstart]
  exact List.rdropWhile_idempotent drop _

theorem bytes_empty : bytes "" = [] := by
  rw [bytes_eq]
  rfl

theorem trimmed_trim (s : String) : Trimmed (trim s) := by
  unfold Trimmed trim
  rw [String.toList_ofList, stripChars_stripChars]

theorem mem_of_mem_trim {s : String} {c : Char} (h : c ∈ (trim s).toList) : c ∈ s.toList := by
  unfold trim stripChars at h
  rw [String.toList_ofList, List.mem_reverse] at h
  have hmiddle := List.mem_reverse.mp ((List.dropWhile_sublist isBlank).subset h)
  exact (List.dropWhile_sublist isBlank).subset hmiddle

/-- A list is cut at the first occurrence. -/
theorem of_cut? {sep : Char} {cs before after : List Char} (h : cut? sep cs = some (before, after)) :
    sep ∉ before ∧ cs = before ++ sep :: after := by
  induction cs generalizing before with
  | nil => cases h
  | cons c cs ih =>
    rw [cut?] at h
    split at h
    · next heq =>
      obtain ⟨rfl, rfl⟩ := Prod.mk.inj (Option.some.inj h)
      exact ⟨List.not_mem_nil, by rw [heq, List.nil_append]⟩
    · next hne =>
      obtain ⟨⟨a, b⟩, hcut, heq⟩ := Option.map_eq_some_iff.mp h
      obtain ⟨rfl, rfl⟩ := Prod.mk.inj heq
      obtain ⟨hnot, rfl⟩ := ih hcut
      have hhead : sep ≠ c := fun heq => hne heq.symm
      exact ⟨List.not_mem_cons_of_ne_of_not_mem hhead hnot, rfl⟩

end Text

/-! ## What is written is read -/

/-- In whatever order the entries of a dictionary come, they make it. -/
theorem Dict.foldl_insert_of_perm {α : Type} {fields : List (String × α)} {d : Dict α}
    (h : fields.Perm d.entries) :
    fields.foldl (fun (d : Dict α) (key, value) => d.insert key value) ∅ = d := by
  have hentries : ∀ (fields : List (String × α)) (d : Dict α),
      (fields.foldl (fun d (key, value) => d.insert key value) d).entries
        = fields.foldl (fun ms (key, value) => Assoc.insert key value ms) d.entries := by
    intro fields
    induction fields with
    | nil => exact fun _ => rfl
    | cons p fields ih => exact fun d => ih (d.insert p.1 p.2)
  have hlist : (fields.foldl (fun (d : Dict α) (key, value) => d.insert key value) ∅).entries = d.entries := by
    rw [hentries]
    exact Assoc.ofList_of_perm d.sorted h
  obtain ⟨entries, sorted⟩ := d
  simp only at hlist
  subst hlist
  rfl

namespace Block

open Text

/-- A line of a name and a value is taken for that field. -/
theorem scan_field {b b' : Block} {name value : String} (hname : name ≠ "") (htrim : Trimmed name)
    (hcolon : ':' ∉ name.toList) (hline : '\n' ∉ name.toList) (hvalue : Frame.IsFieldValue value)
    (hadd : b.addField name value = .more b') (rest : List UInt8) :
    b.scan [] (bytes (Headers.line name value) ++ rest) = b'.scan [] rest := by
  have htext : Headers.line name value = name ++ ": " ++ value ++ "\r\n" := rfl
  have hlines : '\n' ∉ (name ++ ": " ++ value).toList := by
    simpa [hline] using hvalue.2
  have hfull : name ++ ": " ++ value ≠ "" := by
    intro hempty
    have hchars := congrArg String.toList hempty
    simp at hchars
  have htaken : b.addText (name ++ ": " ++ value) = .more b' := by
    unfold addText
    rw [if_neg hfull, splitField?_line hname htrim hcolon hvalue.1]
    exact hadd
  rw [htext, scan_line b hlines, htaken]

/-- Additional fields all go into a block, in the order in which they come. -/
theorem scan_fields {fields : List (String × String)}
    (h : ∀ p ∈ fields, Frame.IsFieldName p.1 ∧ Frame.IsFieldValue p.2) (b : Block)
    (hstarted : b.started = true) (rest : List UInt8) :
    b.scan [] (bytes (String.join (fields.map (fun (name, value) => Headers.line name value))) ++ rest)
      = scan { b with additional := fields.foldl (fun d (name, value) => d.insert name value) b.additional }
          [] rest := by
  induction fields generalizing b with
  | nil =>
    have hempty : bytes (String.join []) = [] := bytes_empty
    rw [List.map_nil, hempty]
    rfl
  | cons p fields ih =>
    obtain ⟨name, value⟩ := p
    obtain ⟨⟨hname, htrim, hcolon, hline, hlength, htype⟩, hvalue⟩ := h (name, value) List.mem_cons_self
    have hadd : b.addField name value = .more { b with additional := b.additional.insert name value } := by
      simp only [addField, if_neg hlength, if_neg htype, hstarted]
    rw [List.map_cons, String.join_cons, bytes_append, List.append_assoc,
      scan_field hname htrim hcolon hline hvalue hadd]
    exact ih (fun q hq => h q (List.mem_cons_of_mem _ hq)) _ hstarted

end Block

namespace Frame

open Text

/-- The header block of a well-formed frame is read as it was written. -/
theorem scan_textIn {f : Frame} (h : f.WellFormed) {fields : List (String × String)}
    (hfields : fields.Perm f.headers.additional.entries) (rest : List UInt8) :
    Block.scan {} [] (Text.bytes (f.headers.textIn fields) ++ rest) = .done (.ok f.headers) rest := by
  obtain ⟨⟨contentLength, contentType, additional⟩, body⟩ := f
  obtain ⟨-, hle, htype, hutf8, hall⟩ := h
  dsimp only at hle htype hutf8 hall hfields
  -- the length
  have hlarge : contentLength < 2 ^ 64 := by
    unfold maxContentLength at hle
    omega
  have hdigits : IsFieldValue (toString contentLength) := by
    refine ⟨Block.trimmed_toString contentLength, fun hmem => ?_⟩
    rw [Nat.toString_eq_ofList_toDigits, String.toList_ofList] at hmem
    exact absurd (Json.isDigit_of_mem_toDigits hmem) (by decide)
  have hlength : Block.addField {} "Content-Length" (toString contentLength)
      = .more { started := true, contentLength := some contentLength } := by
    have hname : Text.EqIgnoringCase "Content-Length" "content-length" := by decide
    simp only [Block.addField, if_pos hname, Block.readLength?_toString hlarge,
      if_neg (Nat.not_lt.mpr hle)]
  -- the content type, which is only written if it is not the usual one
  have hcontent : ∀ rest, Block.scan { started := true, contentLength := some contentLength } []
        (Text.bytes (if contentType = defaultContentType then "" else Headers.line "Content-Type" contentType)
          ++ rest)
      = Block.scan { started := true, contentLength := some contentLength, contentType } [] rest := by
    intro rest
    split
    · next heq =>
      rw [Text.bytes_empty, heq]
      rfl
    · apply Block.scan_field (by decide) (by decide) (by decide) (by decide) htype
      have hno : ¬ Text.EqIgnoringCase "Content-Type" "content-length" := by decide
      have hyes : Text.EqIgnoringCase "Content-Type" "content-type" := by decide
      simp only [Block.addField, if_neg hno, if_pos hyes]
  -- the other fields, which come in any order and are held in the order of their names
  have hadditional : fields.foldl (fun d (name, value) => d.insert name value) ∅ = additional :=
    Dict.foldl_insert_of_perm hfields
  have hbytes : Text.bytes (Headers.textIn { contentLength, contentType, additional } fields) ++ rest
      = Text.bytes (Headers.line "Content-Length" (toString contentLength))
        ++ (Text.bytes (if contentType = defaultContentType then ""
            else Headers.line "Content-Type" contentType)
          ++ (Text.bytes (String.join (fields.map (fun (name, value) => Headers.line name value)))
            ++ (Text.bytes ("" ++ "\r\n") ++ rest))) := by
    simp only [Headers.textIn, Text.bytes_append, Text.bytes_empty, List.append_assoc, List.nil_append]
  have hend : Block.addText { started := true, contentLength := some contentLength, contentType, additional } ""
      = .headers { contentLength, contentType, additional } := by
    simp only [Block.addText, Block.finish, if_true, if_pos hutf8]
  rw [hbytes, Block.scan_field (by decide) (by decide) (by decide) (by decide) hdigits hlength, hcontent,
    Block.scan_fields (fun p hp => hall p (hfields.mem_iff.mp hp)) _ rfl, hadditional,
    Block.scan_line _ (by decide), hend]

/-- **A well-formed frame is found in front of whatever follows it.** -/
theorem scan_bytesIn {f : Frame} (h : f.WellFormed) {fields : List (String × String)}
    (hfields : fields.Perm f.headers.additional.entries) (rest : List UInt8) :
    scan (f.bytesIn fields ++ rest) = .done (.ok f) rest := by
  unfold scan bytesIn
  rw [List.append_assoc, scan_textIn h hfields]
  simp only
  rw [← h.length_eq, if_neg (by rw [List.length_append]; omega), List.take_left, List.drop_left]

end Frame

/-! ## What is read was well-formed -/

/-- What a block holds can stand in a well-formed frame. -/
structure Block.Fits (b : Block) : Prop where
  length : ∀ n, b.contentLength = some n → n ≤ maxContentLength
  contentType : Frame.IsFieldValue b.contentType
  fields : ∀ p ∈ b.additional.entries, Frame.IsFieldName p.1 ∧ Frame.IsFieldValue p.2

/-- A block that goes on fits, and with a body of its length a block that is whole makes a well-formed
frame. -/
inductive Block.Next.Fits : Block.Next → Prop where
  | more {b : Block} (h : b.Fits) : Fits (.more b)
  | headers {headers : Headers}
      (h : ∀ body : List UInt8, body.length = headers.contentLength → (⟨headers, body⟩ : Frame).WellFormed) :
      Fits (.headers headers)
  | fault {f : FramingFault} : Fits (.fault f)

namespace Block

open Text

theorem fits_empty : Fits {} where
  length := by
    intro n hn
    cases hn
  contentType := ⟨by decide, by decide⟩
  fields := by
    intro p hp
    cases hp

theorem Fits.addField {b : Block} (h : b.Fits) {name value : String} (hname : name ≠ "")
    (htrim : Trimmed name) (hcolon : ':' ∉ name.toList) (hline : '\n' ∉ name.toList)
    (hvalue : Frame.IsFieldValue value) : (b.addField name value).Fits := by
  unfold Block.addField
  split
  · split
    · exact .fault
    · next n _ =>
      split
      · exact .fault
      · next hlong =>
        refine .more ⟨fun m hm => ?_, h.contentType, h.fields⟩
        rw [← Option.some.inj hm]
        exact Nat.not_lt.mp hlong
  · next hlength =>
    split
    · exact .more ⟨h.length, hvalue, h.fields⟩
    · next htype =>
      refine .more ⟨h.length, h.contentType, fun p hp => ?_⟩
      rcases Assoc.mem_insert hp with rfl | hold
      · exact ⟨⟨hname, htrim, hcolon, hline, hlength, htype⟩, hvalue⟩
      · exact h.fields p hold

theorem Fits.finish {b : Block} (h : b.Fits) : b.finish.Fits := by
  unfold Block.finish
  split
  · exact .fault
  · next n hlength =>
    dsimp only
    split
    · next hutf8 =>
      exact .headers fun body hbody => ⟨hbody, h.length n hlength, h.contentType, hutf8, h.fields⟩
    · exact .fault

/-- What stands before and after the first colon of a line can stand in a line. -/
theorem of_splitField? {line name value : String} (h : splitField? line = some (name, value))
    (hline : '\n' ∉ line.toList) :
    name ≠ "" ∧ Trimmed name ∧ ':' ∉ name.toList ∧ '\n' ∉ name.toList ∧ Frame.IsFieldValue value := by
  have hkeeps : ∀ {c : Char} {cs : List Char}, c ∉ cs → c ∉ (trim (String.ofList cs)).toList := by
    intro c cs hnot htrim
    have hin := mem_of_mem_trim htrim
    rw [String.toList_ofList] at hin
    exact hnot hin
  unfold splitField? at h
  cases hcut : cut? ':' line.toList with
  | none => simp [hcut] at h
  | some parts =>
    obtain ⟨before, after⟩ := parts
    obtain ⟨hcolon, hparts⟩ := of_cut? hcut
    rw [hparts, List.mem_append, List.mem_cons, not_or, not_or] at hline
    obtain ⟨hbefore, -, hafter⟩ := hline
    simp only [hcut] at h
    split at h
    · cases h
    · next hname =>
      obtain ⟨rfl, rfl⟩ := Prod.mk.inj (Option.some.inj h)
      exact ⟨hname, trimmed_trim _, hkeeps hcolon, hkeeps hbefore, trimmed_trim _, hkeeps hafter⟩

theorem Fits.addText {b : Block} (h : b.Fits) {text : String} (hline : '\n' ∉ text.toList) :
    (b.addText text).Fits := by
  unfold Block.addText
  split
  · split
    · exact h.finish
    · exact .more h
  · split
    · exact .fault
    · next name value hfield =>
      obtain ⟨hname, htrim, hcolon, hlines, hvalue⟩ := of_splitField? hfield hline
      exact h.addField hname htrim hcolon hlines hvalue

theorem Fits.addLine {b : Block} (h : b.Fits) {line : List UInt8} (hline : 0x0A ∉ line) :
    (b.addLine line).Fits := by
  have hshort : 0x0A ∉ dropReturn line := by
    unfold dropReturn
    split
    · exact fun hmem => hline ((List.dropLast_sublist line).subset hmem)
    · exact hline
  unfold Block.addLine
  dsimp only
  split
  · next text htext =>
    -- a byte of a line stands for the character of its number, an LF for an LF
    have hiff := ascii_mem_bytes_iff (s := text) (c := '\n') (by decide)
    rw [ofBytes?_eq_some_iff.mp htext] at hiff
    exact h.addText (fun hmem => hshort (hiff.mpr hmem))
  · exact .fault

/-- The end of a block is that of a block that fits. -/
theorem Fits.scan {b : Block} (h : b.Fits) {line bytes : List UInt8} (hline : 0x0A ∉ line)
    {headers : Headers} {rest : List UInt8} (hscan : b.scan line bytes = .done (.ok headers) rest) :
    Next.Fits (.headers headers) := by
  induction bytes generalizing b line with
  | nil => cases hscan
  | cons byte bytes ih =>
    unfold Block.scan at hscan
    split at hscan
    · have hnext := h.addLine (fun hmem => hline (List.mem_reverse.mp hmem))
      cases hadd : b.addLine line.reverse with
      | more b' =>
        rw [hadd] at hscan hnext
        obtain ⟨hmore⟩ := hnext
        exact ih hmore List.not_mem_nil hscan
      | headers h' =>
        rw [hadd] at hscan hnext
        obtain ⟨heq, -⟩ := Scan.done.inj hscan
        exact Except.ok.inj heq ▸ hnext
      | fault f =>
        rw [hadd] at hscan
        simp at hscan
    · next hne =>
      have hmore : 0x0A ∉ byte :: line :=
        List.not_mem_cons_of_ne_of_not_mem (fun heq => hne heq.symm) hline
      exact ih h hmore hscan

end Block

namespace Frame

/-- **A frame that is found is well-formed.** -/
theorem wellFormed_of_scan {bytes rest : List UInt8} {f : Frame}
    (h : scan bytes = .done (.ok f) rest) : f.WellFormed := by
  unfold scan at h
  split at h
  · cases h
  · simp at h
  · next headers left hblock =>
    have hfits := Block.fits_empty.scan List.not_mem_nil hblock
    split at h
    · cases h
    · next hlen =>
      obtain ⟨heq, -⟩ := Scan.done.inj h
      obtain rfl := Except.ok.inj heq
      cases hfits with
      | headers hform =>
        apply hform
        rw [List.length_take]
        omega

/-- How a frame fares between a writer and a reader. -/
structure Survival (f : Frame) : Prop where
  /-- A well-formed frame is read back, and what follows it is left over: in whatever order its additional
  fields are written, whatever follows, in whatever chunks all this comes, and however the stream ends. -/
  read_back : f.WellFormed →
    ∀ fields : List (String × String), fields.Perm f.headers.additional.entries →
    ∀ (rest : List UInt8) (failure : Option IoFault) (s : Chunked), s.bytes = f.bytesIn fields ++ rest →
    ∃ s', s.frame failure = (.ok f, s') ∧ s'.bytes = rest
  /-- If a reader returns the frame, from whatever stream, then it is well-formed. -/
  returned : ∀ (failure : Option IoFault) (s s' : Chunked), s.frame failure = (.ok f, s') → f.WellFormed
  /-- The frame survives writing and reading just if it is well-formed. -/
  survives_iff : ∀ fields : List (String × String), fields.Perm f.headers.additional.entries →
    ∀ (failure : Option IoFault) (s : Chunked), s.bytes = f.bytesIn fields →
    ((∃ s', s.frame failure = (.ok f, s')) ↔ f.WellFormed)

theorem read_eq_ok {failure : Option IoFault} {bytes rest : List UInt8} {f : Frame}
    (h : read failure bytes = (.ok f, rest)) : scan bytes = .done (.ok f) rest := by
  unfold read at h
  split at h
  · next found left hscan =>
    obtain ⟨heq, rfl⟩ := Prod.mk.inj h
    rw [hscan, Except.ok.inj heq]
  all_goals cases h

/-- **Just the well-formed frames survive writing and reading.** -/
theorem survival (f : Frame) : f.Survival := by
  have hread : ∀ (failure : Option IoFault) (s : Chunked),
      (s.frame failure).map id Chunked.bytes = read failure s.bytes :=
    fun failure s => pull_eq failure s.arrived s.coming
  have hback : f.WellFormed →
      ∀ fields : List (String × String), fields.Perm f.headers.additional.entries →
      ∀ (rest : List UInt8) (failure : Option IoFault) (s : Chunked), s.bytes = f.bytesIn fields ++ rest →
      ∃ s', s.frame failure = (.ok f, s') ∧ s'.bytes = rest := by
    intro hform fields hfields rest failure s hbytes
    have hscan := scan_bytesIn hform hfields []
    rw [List.append_nil] at hscan
    have hresult := hread failure s
    rw [hbytes, read_append hscan] at hresult
    obtain ⟨hok, hrest⟩ := Prod.mk.inj hresult
    exact ⟨(s.frame failure).2, Prod.ext hok rfl, hrest⟩
  have hreturned : ∀ (failure : Option IoFault) (s s' : Chunked),
      s.frame failure = (.ok f, s') → f.WellFormed := by
    intro failure s s' hframe
    have hresult := hread failure s
    rw [hframe] at hresult
    exact wellFormed_of_scan (read_eq_ok hresult.symm)
  refine ⟨hback, hreturned, fun fields hfields failure s hbytes => ⟨?_, ?_⟩⟩
  · rintro ⟨s', hframe⟩
    exact hreturned failure s s' hframe
  · intro hform
    obtain ⟨s', hframe, -⟩ := hback hform fields hfields [] failure s (by rw [hbytes, List.append_nil])
    exact ⟨s', hframe⟩

/-- A value that would start a field of its own makes a frame that does not survive. -/
example : ¬ (⟨{ contentLength := 0, additional := .ofList [("Trace", "on\nContent-Length: 9")] }, []⟩
    : Frame).WellFormed :=
  fun h => absurd (h.fields _ List.mem_cons_self).2.2 (by decide)

end Frame

end LanguageClient
