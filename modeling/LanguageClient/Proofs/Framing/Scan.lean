import LanguageClient.Framing.Reader

/-!
# LanguageClient.Proofs.Framing.Scan -- bytes that come later

A frame that is found at the front of some bytes is found there whatever bytes follow
(`Frame.scan_append`), and among the first of them, if these are enough (`Frame.scan_take`). So a part of a
frame is never taken for a frame, and how a stream is cut into chunks makes no difference to what is read
from it (`readMany_frame`, `readMany_message`).
-/

namespace LanguageClient

/-! ## A scan that is done -/

theorem Block.scan_append {b : Block} {line bytes : List UInt8}
    {result : Except FramingFault Headers} {rest : List UInt8}
    (h : b.scan line bytes = .done result rest) (more : List UInt8) :
    b.scan line (bytes ++ more) = .done result (rest ++ more) := by
  induction bytes generalizing b line with
  | nil => simp [Block.scan] at h
  | cons byte bytes ih =>
    rw [List.cons_append]
    unfold Block.scan at h ⊢
    split
    · next heq =>
      rw [if_pos heq] at h
      cases hline : b.addLine line.reverse with
      | more b' =>
        -- the block goes on, with a new line
        simp only [hline] at h ⊢
        exact ih h
      | headers headers =>
        simp only [hline, Block.Scan.done.injEq] at h ⊢
        obtain ⟨rfl, rfl⟩ := h
        exact ⟨rfl, rfl⟩
      | fault f =>
        simp only [hline, Block.Scan.done.injEq] at h ⊢
        obtain ⟨rfl, rfl⟩ := h
        exact ⟨rfl, rfl⟩
    · next hne =>
      rw [if_neg hne] at h
      exact ih h

theorem Frame.scan_append {bytes : List UInt8} {result : Except FramingFault Frame}
    {rest : List UInt8} (h : Frame.scan bytes = .done result rest) (more : List UInt8) :
    Frame.scan (bytes ++ more) = .done result (rest ++ more) := by
  unfold Frame.scan at h ⊢
  cases hblock : Block.scan {} [] bytes with
  | short => simp [hblock] at h
  | done block left =>
    rw [Block.scan_append hblock more]
    cases block with
    | error f =>
      simp only [hblock, Frame.Scan.done.injEq] at h ⊢
      obtain ⟨rfl, rfl⟩ := h
      exact ⟨rfl, rfl⟩
    | ok headers =>
      simp only [hblock] at h ⊢
      split at h
      · exact absurd h (by simp)
      · next hlen =>
        -- a body that is there whole is so with more bytes behind it, and they are left over
        have hle : headers.contentLength ≤ left.length := Nat.le_of_not_lt hlen
        simp only [Frame.Scan.done.injEq] at h
        obtain ⟨rfl, rfl⟩ := h
        rw [if_neg (by rw [List.length_append]; omega), List.take_append_of_le_length hle,
          List.drop_append_of_le_length hle]

/-- A read that finds a frame or a fault of its header block finds it whatever follows. -/
theorem Frame.read_append {bytes : List UInt8} {result : Except FramingFault Frame}
    {rest : List UInt8} (h : Frame.scan bytes = .done result rest) (failure : Option IoFault)
    (more : List UInt8) :
    Frame.read failure (bytes ++ more) = (result.mapError .framing, rest ++ more) := by
  unfold Frame.read
  rw [Frame.scan_append h more]
  cases result <;> rfl

/-- A message that is found in some bytes is found there whatever follows, and however the stream then
ends. -/
theorem Message.read_append {bytes rest : List UInt8} {result : Except Fault Message}
    {failure : Option IoFault} (hdone : ∃ found left, Frame.scan bytes = .done found left)
    (h : Message.read failure bytes = (result, rest)) (failure' : Option IoFault)
    (more : List UInt8) : Message.read failure' (bytes ++ more) = (result, rest ++ more) := by
  obtain ⟨found, left, hscan⟩ := hdone
  have hnow := Frame.read_append hscan failure []
  rw [List.append_nil, List.append_nil] at hnow
  unfold Message.read at h ⊢
  rw [Frame.read_append hscan]
  rw [hnow] at h
  cases found <;>
    (obtain ⟨rfl, rfl⟩ := Prod.mk.inj h
     rfl)

/-! ## What a scan takes -/

/-- What the end of a line does to a block. -/
theorem Block.scan_end (b : Block) (line rest : List UInt8) :
    b.scan line (0x0A :: rest) = match b.addLine line.reverse with
      | .more b => b.scan [] rest
      | .headers h => .done (.ok h) rest
      | .fault f => .done (.error f) rest := by
  cases hnext : b.addLine line.reverse <;> simp only [Block.scan, if_true, hnext]

/-- What a scan takes is found without what follows it, too. -/
theorem Block.scan_split {b : Block} {line bytes : List UInt8} {result : Except FramingFault Headers}
    {rest : List UInt8} (h : b.scan line bytes = .done result rest) :
    ∃ used, bytes = used ++ rest ∧ b.scan line used = .done result [] := by
  induction bytes generalizing b line with
  | nil => cases h
  | cons byte bytes ih =>
    rw [Block.scan] at h
    by_cases hend : byte = 0x0A
    · rw [if_pos hend] at h
      subst hend
      cases hline : b.addLine line.reverse with
      | more b' =>
        -- the line ends, and the block goes on behind it
        rw [hline] at h
        obtain ⟨used, rfl, hscan⟩ := ih h
        refine ⟨0x0A :: used, rfl, ?_⟩
        rw [Block.scan_end, hline]
        exact hscan
      | headers headers =>
        rw [hline] at h
        obtain ⟨rfl, rfl⟩ := Block.Scan.done.inj h
        exact ⟨[0x0A], rfl, by rw [Block.scan_end, hline]⟩
      | fault f =>
        rw [hline] at h
        obtain ⟨rfl, rfl⟩ := Block.Scan.done.inj h
        exact ⟨[0x0A], rfl, by rw [Block.scan_end, hline]⟩
    · rw [if_neg hend] at h
      obtain ⟨used, rfl, hscan⟩ := ih h
      refine ⟨byte :: used, rfl, ?_⟩
      rw [Block.scan, if_neg hend]
      exact hscan

theorem Frame.scan_split {bytes : List UInt8} {result : Except FramingFault Frame} {rest : List UInt8}
    (h : Frame.scan bytes = .done result rest) :
    ∃ used, bytes = used ++ rest ∧ Frame.scan used = .done result [] := by
  unfold Frame.scan at h
  cases hblock : Block.scan {} [] bytes with
  | short => simp [hblock] at h
  | done block left =>
    obtain ⟨used, rfl, hused⟩ := Block.scan_split hblock
    cases block with
    | error f =>
      simp only [hblock, Frame.Scan.done.injEq] at h
      obtain ⟨rfl, rfl⟩ := h
      refine ⟨used, rfl, ?_⟩
      unfold Frame.scan
      rw [hused]
    | ok headers =>
      simp only [hblock] at h
      split at h
      · cases h
      · next hlen =>
        obtain ⟨rfl, rfl⟩ := Frame.Scan.done.inj h
        refine ⟨used ++ left.take headers.contentLength, ?_, ?_⟩
        · rw [List.append_assoc, List.take_append_drop]
        · have hbody : (left.take headers.contentLength).length = headers.contentLength := by
            rw [List.length_take]
            omega
          unfold Frame.scan
          rw [Block.scan_append hused, List.nil_append]
          simp only
          rw [if_neg (by omega), List.take_of_length_le (Nat.le_of_eq hbody),
            List.drop_of_length_le (Nat.le_of_eq hbody)]

/-- A frame is found in the first bytes of a stream, if these are enough. -/
theorem Frame.scan_take {bytes : List UInt8} {result : Except FramingFault Frame} {rest : List UInt8}
    (h : Frame.scan bytes = .done result rest) {n : Nat} (hn : bytes.length - rest.length ≤ n) :
    Frame.scan (bytes.take n) = .done result (rest.take (n - (bytes.length - rest.length))) := by
  obtain ⟨used, rfl, hused⟩ := Frame.scan_split h
  have hlength : (used ++ rest).length - rest.length = used.length := by
    rw [List.length_append, Nat.add_sub_cancel]
  rw [hlength] at hn ⊢
  rw [List.take_append, List.take_of_length_le hn, Frame.scan_append hused, List.nil_append]

/-- What is read is what the frame at the front carries, and what is left is what follows that frame. -/
theorem Message.read_of_scan {bytes rest : List UInt8} {found : Except FramingFault Frame}
    (h : Frame.scan bytes = .done found rest) (failure : Option IoFault) :
    Message.read failure bytes
      = ((found.mapError .framing).bind fun frame => Message.decode frame.body, rest) := by
  unfold Message.read Frame.read
  rw [h]
  cases found <;> rfl

/-- Among the first bytes of a stream the same is read, if these are enough. -/
theorem Message.read_take {failure : Option IoFault} {bytes left : List UInt8} {item : Except Fault Message}
    (h : Message.read failure bytes = (item, left)) {n : Nat} (hn : bytes.length - left.length ≤ n) :
    Message.read failure (bytes.take n) = (item, left.take (n - (bytes.length - left.length))) := by
  -- where the stream ends within a frame all of it is taken
  have hshort : left = [] →
      Message.read failure (bytes.take n) = (item, left.take (n - (bytes.length - left.length))) := by
    rintro rfl
    rw [List.take_of_length_le hn, List.take_nil]
    exact h
  cases hscan : Frame.scan bytes with
  | done found rest =>
    rw [Message.read_of_scan hscan] at h
    obtain ⟨rfl, rfl⟩ := Prod.mk.inj h
    rw [Message.read_of_scan (Frame.scan_take hscan hn)]
  | shortHeaders | shortBody =>
    apply hshort
    unfold Message.read Frame.read at h
    rw [hscan] at h
    exact (congrArg Prod.snd h).symm

/-! ## Progress -/

theorem Block.length_scan {b : Block} {line bytes : List UInt8}
    {result : Except FramingFault Headers} {rest : List UInt8}
    (h : b.scan line bytes = .done result rest) : rest.length < bytes.length := by
  induction bytes generalizing b line with
  | nil => simp [Block.scan] at h
  | cons byte bytes ih =>
    unfold Block.scan at h
    rw [List.length_cons]
    split at h
    · cases hline : b.addLine line.reverse with
      | more b' =>
        simp only [hline] at h
        exact Nat.lt_succ_of_lt (ih h)
      | headers headers =>
        simp only [hline, Block.Scan.done.injEq] at h
        exact h.2 ▸ Nat.lt_succ_self _
      | fault f =>
        simp only [hline, Block.Scan.done.injEq] at h
        exact h.2 ▸ Nat.lt_succ_self _
    · exact Nat.lt_succ_of_lt (ih h)

theorem Frame.length_scan {bytes : List UInt8} {result : Except FramingFault Frame}
    {rest : List UInt8} (h : Frame.scan bytes = .done result rest) : rest.length < bytes.length := by
  unfold Frame.scan at h
  cases hblock : Block.scan {} [] bytes with
  | short => simp [hblock] at h
  | done block left =>
    have hleft : left.length < bytes.length := Block.length_scan hblock
    cases block with
    | error f =>
      simp only [hblock, Frame.Scan.done.injEq] at h
      exact h.2 ▸ hleft
    | ok headers =>
      simp only [hblock] at h
      split at h
      · exact absurd h (by simp)
      · simp only [Frame.Scan.done.injEq] at h
        rw [← h.2, List.length_drop]
        omega

/-- A read takes something off, unless the stream is at its end. -/
theorem Message.length_read {failure : Option IoFault} {bytes rest : List UInt8}
    {result : Except Fault Message} (h : Message.read failure bytes = (result, rest)) :
    rest.length < bytes.length ∨ ∃ cause, result = .error (.io cause) := by
  unfold Message.read Frame.read at h
  cases hscan : Frame.scan bytes with
  | shortHeaders =>
    simp only [hscan, Prod.mk.injEq] at h
    exact .inr ⟨_, h.1.symm⟩
  | shortBody =>
    simp only [hscan, Prod.mk.injEq] at h
    exact .inr ⟨_, h.1.symm⟩
  | done found left =>
    have hleft : left.length < bytes.length := Frame.length_scan hscan
    cases found <;>
      (simp only [hscan, Prod.mk.injEq] at h
       exact .inl (h.2 ▸ hleft))

theorem Message.length_read_le {failure : Option IoFault} {bytes rest : List UInt8}
    {result : Except Fault Message} (h : Message.read failure bytes = (result, rest)) :
    rest.length ≤ bytes.length := by
  cases hscan : Frame.scan bytes with
  | done found left =>
    rw [Message.read_of_scan hscan] at h
    obtain ⟨-, rfl⟩ := Prod.mk.inj h
    exact Nat.le_of_lt (Frame.length_scan hscan)
  | shortHeaders | shortBody =>
    unfold Message.read Frame.read at h
    rw [hscan] at h
    obtain ⟨-, rfl⟩ := Prod.mk.inj h
    exact Nat.zero_le _

/-! ## Chunks -/

theorem Frame.pull_eq (failure : Option IoFault) (arrived : List UInt8)
    (coming : List (List UInt8)) :
    (Frame.pull failure arrived coming).map id Chunked.bytes
      = Frame.read failure (arrived ++ coming.flatten) := by
  induction coming generalizing arrived with
  | nil =>
    simp only [Frame.pull, List.flatten_nil, List.append_nil, Prod.map, Chunked.bytes, id_eq]
  | cons chunk coming ih =>
    have hchunk : arrived ++ (chunk :: coming).flatten = (arrived ++ chunk) ++ coming.flatten := by
      rw [List.flatten_cons, List.append_assoc]
    unfold Frame.pull
    -- a frame that is found needs no chunk; else the next chunk joins what has arrived
    cases hscan : Frame.scan arrived with
    | done result rest =>
      rw [Frame.read_append hscan]
      cases result <;> rfl
    | shortHeaders => rw [hchunk, ← ih]
    | shortBody => rw [hchunk, ← ih]

/-- Reads that correspond step by step give the same results. -/
theorem readMany_map {σ τ α : Type} {f : σ → Except Fault α × σ} {g : τ → Except Fault α × τ}
    {view : σ → τ} (h : ∀ s, (f s).map id view = g (view s)) (count : Nat) (s : σ) :
    readMany f count s = readMany g count (view s) := by
  induction count generalizing s with
  | zero => rfl
  | succ count ih =>
    have hstep := h s
    unfold readMany
    rw [← hstep]
    rcases f s with ⟨f | a, rest⟩
    · simp only [Prod.map, id_eq, ih]
    · simp only [Prod.map, id_eq, ih]

/-- The chunks of a stream make no difference to the frames. -/
theorem Chunked.readMany_frame (failure : Option IoFault) (count : Nat) (s : Chunked) :
    readMany (Chunked.frame failure) count s = readMany (Frame.read failure) count s.bytes :=
  readMany_map (fun s => Frame.pull_eq failure s.arrived s.coming) count s

theorem Chunked.message_eq (failure : Option IoFault) (s : Chunked) :
    (s.message failure).map id Chunked.bytes = Message.read failure s.bytes := by
  unfold Chunked.message Message.read Chunked.frame Chunked.bytes
  rw [← Frame.pull_eq]
  rcases Frame.pull failure s.arrived s.coming with ⟨_ | _, s⟩ <;> rfl

/-- The chunks of a stream make no difference to the messages. -/
theorem Chunked.readMany_message (failure : Option IoFault) (count : Nat) (s : Chunked) :
    readMany (Chunked.message failure) count s = readMany (Message.read failure) count s.bytes :=
  readMany_map (Chunked.message_eq failure) count s

end LanguageClient
