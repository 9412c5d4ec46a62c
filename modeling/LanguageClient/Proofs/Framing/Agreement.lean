import LanguageClient.Framing.Writer
import LanguageClient.Proofs.Framing.HeaderLines
import LanguageClient.Proofs.Rpc.Faults

/-!
# LanguageClient.Proofs.Framing.Agreement -- what was written whole is read, and nothing else

Bodies are written one after another into a sink that has room for some number of bytes, which may run
out anywhere. `Sink.writeBodies_succeeds_iff` tells which writes succeed, and
`written_is_read` that a reader of those bytes gets the bodies whose writes succeeded, and then finds
the stream at its end, however the bytes come to it.
-/

namespace LanguageClient

/-! ## Writing -/

namespace Sink

/-- The bytes of some frames, one after another. -/
def framesBytes (bodies : List (List UInt8)) : List UInt8 := bodies.flatMap Frame.bodyBytes

/-- The bodies that were written whole. -/
def writtenWhole (bodies : List (List UInt8)) (results : List (Except Fault Unit)) :
    List (List UInt8) :=
  ((bodies.zip results).filter (·.2.toBool)).map Prod.fst

@[simp] theorem framesBytes_cons (body : List UInt8) (rest : List (List UInt8)) :
    framesBytes (body :: rest) = Frame.bodyBytes body ++ framesBytes rest := by
  simp [framesBytes]

theorem writtenWhole_cons (body : List UInt8) (rest : List (List UInt8)) (r : Except Fault Unit)
    (rs : List (Except Fault Unit)) :
    writtenWhole (body :: rest) (r :: rs)
      = if r.toBool then body :: writtenWhole rest rs else writtenWhole rest rs := by
  unfold writtenWhole
  rw [List.zip_cons_cons, List.filter_cons]
  split <;> rfl

variable {s : Sink} {room : Nat}

/-- A write takes what there is room for, and succeeds if that is all. -/
theorem write_eq (h : s.room = some room) (bytes : List UInt8) :
    s.write bytes = (if bytes.length ≤ room then .ok () else .error (.io full),
      { s with room := some (room - bytes.length), accepted := s.accepted ++ bytes.take room }) := by
  simp only [write, h]
  split <;> rfl

theorem writeBodies_cons (h : s.room = some room) (body : List UInt8) (rest : List (List UInt8)) :
    s.writeBodies (body :: rest) =
      let after : Sink := { s with
        room := some (room - (Frame.bodyBytes body).length)
        accepted := s.accepted ++ (Frame.bodyBytes body).take room }
      ((if (Frame.bodyBytes body).length ≤ room then .ok () else .error (.io full))
        :: (after.writeBodies rest).1, (after.writeBodies rest).2) := by
  simp only [writeBodies, writeBody, write_eq h]

theorem length_writeBodies (bodies : List (List UInt8)) (s : Sink) :
    (s.writeBodies bodies).1.length = bodies.length := by
  induction bodies generalizing s with
  | nil => rfl
  | cons body rest ih => simp only [writeBodies, List.length_cons, ih]

/-- The sink has taken what fits, and no byte more. -/
theorem accepted_writeBodies (bodies : List (List UInt8)) (h : s.room = some room) :
    (s.writeBodies bodies).2.accepted = s.accepted ++ (framesBytes bodies).take room := by
  induction bodies generalizing s room with
  | nil => simp [writeBodies, framesBytes]
  | cons body rest ih =>
    rw [writeBodies_cons h]
    simp only
    rw [ih rfl, framesBytes_cons, List.take_append, List.append_assoc]

/-- A write succeeds if its frame and all before it fit. -/
theorem writeBodies_succeeds_iff (bodies : List (List UInt8)) (h : s.room = some room) {i : Nat}
    (hi : i < bodies.length) :
    (s.writeBodies bodies).1[i]? = some (.ok ())
      ↔ (framesBytes (bodies.take (i + 1))).length ≤ room := by
  induction bodies generalizing s room i with
  | nil => simp at hi
  | cons body rest ih =>
    rw [writeBodies_cons h]
    simp only
    cases i with
    | zero =>
      have hone : (framesBytes [body]).length = (Frame.bodyBytes body).length := by
        simp [framesBytes]
      rw [List.take_succ_cons, List.take_zero, hone, List.getElem?_cons_zero]
      split <;> simp_all
    | succ i =>
      have hpos : 0 < (Frame.bodyBytes body).length :=
        List.length_pos_iff.mpr (Frame.bodyBytes_ne_nil body)
      -- no frame is empty; so if the first does not fit, none after it does, and the room that is
      -- left may be counted as zero
      have hmore : 0 < (framesBytes (rest.take (i + 1))).length := by
        obtain ⟨next, after, hrest⟩ := List.exists_cons_of_ne_nil
          (List.ne_nil_of_length_pos (Nat.zero_lt_of_lt (Nat.lt_of_succ_lt_succ hi)))
        have hnext : 0 < (Frame.bodyBytes next).length :=
          List.length_pos_iff.mpr (Frame.bodyBytes_ne_nil next)
        rw [hrest, List.take_succ_cons, framesBytes_cons, List.length_append]
        omega
      rw [List.getElem?_cons_succ, ih rfl (Nat.lt_of_succ_lt_succ hi), List.take_succ_cons,
        framesBytes_cons, List.length_append]
      omega

/-- Without room nothing is written whole. -/
theorem writtenWhole_of_full (bodies : List (List UInt8)) (h : s.room = some 0) :
    writtenWhole bodies (s.writeBodies bodies).1 = [] := by
  induction bodies generalizing s with
  | nil => rfl
  | cons body rest ih =>
    have hpos : 0 < (Frame.bodyBytes body).length :=
      List.length_pos_iff.mpr (Frame.bodyBytes_ne_nil body)
    rw [writeBodies_cons h, writtenWhole_cons, if_neg (Nat.not_le.mpr hpos), ih (by simp)]
    rfl

end Sink

/-! ## Reading -/

theorem Frame.read_bodyBytes {body : List UInt8} (h : body.length ≤ maxContentLength)
    (more : List UInt8) :
    Frame.read none (Frame.bodyBytes body ++ more) = (.ok (Frame.ofBody body), more) := by
  unfold Frame.read
  rw [Frame.scan_bodyBytes h]

theorem Frame.read_cut {body : List UInt8} (h : body.length ≤ maxContentLength) {n : Nat}
    (hn : n < (Frame.bodyBytes body).length) :
    ∃ cause : IoFault, cause.kind = .unexpectedEof
      ∧ Frame.read none ((Frame.bodyBytes body).take n) = (.error (.io cause), []) := by
  unfold Frame.read
  rcases Frame.scan_cut h hn with hscan | hscan
  · exact ⟨.streamClosed, rfl, by rw [hscan]; rfl⟩
  · exact ⟨.bodyCut, rfl, by rw [hscan]; rfl⟩

/-- From what a sink has taken the bodies that were written whole are read, and then its end. -/
theorem readMany_written (bodies : List (List UInt8))
    (small : ∀ body ∈ bodies, body.length ≤ maxContentLength) {s : Sink} {room : Nat}
    (h : s.room = some room) :
    ∃ cause : IoFault, cause.kind = .unexpectedEof ∧ ∀ count,
      readMany (Frame.read none) count ((Sink.framesBytes bodies).take room)
        = ((Sink.writtenWhole bodies (s.writeBodies bodies).1).map (fun b => Except.ok (Frame.ofBody b))
            ++ [Except.error (Fault.io cause)]).take count := by
  induction bodies generalizing s room with
  | nil =>
    refine ⟨.streamClosed, rfl, fun count => ?_⟩
    cases count with
    | zero => rfl
    | succ count => simp [readMany, Sink.framesBytes, Frame.read, Frame.scan, Block.scan, Fault.isIo,
        Sink.writtenWhole]
  | cons body rest ih =>
    have hbody := small body List.mem_cons_self
    rw [Sink.writeBodies_cons h, Sink.writtenWhole_cons, Sink.framesBytes_cons, List.take_append]
    rcases Nat.lt_or_ge room (Frame.bodyBytes body).length with hlt | hle
    · -- the frame is cut off, and there is no room for any after it
      obtain ⟨cause, hkind, hread⟩ := Frame.read_cut hbody hlt
      refine ⟨cause, hkind, fun count => ?_⟩
      have hzero : room - (Frame.bodyBytes body).length = 0 := by omega
      rw [hzero, List.take_zero, List.append_nil, if_neg (Nat.not_le.mpr hlt),
        Sink.writtenWhole_of_full rest rfl]
      cases count with
      | zero => rfl
      | succ count =>
        rw [readMany, hread]
        simp [Except.toBool, Fault.isIo]
    · obtain ⟨cause, hkind, hmany⟩ := ih (fun b hb => small b (List.mem_cons_of_mem _ hb))
        (s := { s with
          room := some (room - (Frame.bodyBytes body).length)
          accepted := s.accepted ++ Frame.bodyBytes body }) rfl
      refine ⟨cause, hkind, fun count => ?_⟩
      rw [List.take_of_length_le hle, if_pos hle]
      cases count with
      | zero => rfl
      | succ count =>
        rw [readMany, Frame.read_bodyBytes hbody]
        simp [hmany, Except.toBool]

theorem Message.isIo_of_decode {body : List UInt8} {f : Fault} (h : Message.decode body = .error f) :
    f.isIo = false := by
  rcases Message.isBodyFault_of_decode h with ⟨_, rfl⟩ | ⟨_, _, rfl, _⟩ <;> rfl

/-- The messages of a stream are those of its frames, one for one, whatever each of them is. -/
theorem readMany_message (failure : Option IoFault) (count : Nat) (bytes : List UInt8) :
    readMany (Message.read failure) count bytes
      = (readMany (Frame.read failure) count bytes).map (·.bind (fun f => Message.decode f.body)) := by
  induction count generalizing bytes with
  | zero => rfl
  | succ count ih =>
    simp only [readMany, Message.read]
    rcases Frame.read failure bytes with ⟨f | frame, rest⟩
    · cases hio : f.isIo <;> simp [Except.bind, ih, hio]
    · -- a body may be refused, but never as if the stream had failed
      cases hdecode : Message.decode frame.body with
      | ok m => simp [Except.bind, ih, hdecode]
      | error f => simp [Except.bind, ih, hdecode, Message.isIo_of_decode hdecode]

/-! ## Both ends -/

/-- What writing bodies into a sink with so much room, and reading what it has taken, comes to. -/
structure Agreement (room : Nat) (bodies : List (List UInt8)) (results : List (Except Fault Unit))
    (accepted : List UInt8) : Prop where
  one_result_each : results.length = bodies.length
  succeeds_iff : ∀ i < bodies.length,
    results[i]? = some (.ok ()) ↔ (Sink.framesBytes (bodies.take (i + 1))).length ≤ room
  accepted_eq : accepted = (Sink.framesBytes bodies).take room
  /-- In whatever chunks the bytes come, the frames are those of the bodies that were written whole, and
  then the stream is at its end; so are the messages. -/
  reads : ∃ cause : IoFault, cause.kind = .unexpectedEof ∧
    ∀ chunks : List (List UInt8), chunks.flatten = accepted → ∀ count,
      readMany (Chunked.frame none) count { coming := chunks }
          = ((Sink.writtenWhole bodies results).map (fun b => Except.ok (Frame.ofBody b))
              ++ [Except.error (Fault.io cause)]).take count
        ∧ readMany (Chunked.message none) count { coming := chunks }
          = ((Sink.writtenWhole bodies results).map Message.decode
              ++ [Except.error (Fault.io cause)]).take count

/-- **What was written whole is read, and nothing else.** -/
theorem written_is_read (room : Nat) (bodies : List (List UInt8))
    (small : ∀ body ∈ bodies, body.length ≤ maxContentLength) :
    Agreement room bodies (Sink.writeBodies { room := some room } bodies).1
      (Sink.writeBodies { room := some room } bodies).2.accepted := by
  have haccepted := Sink.accepted_writeBodies (s := { room := some room }) bodies rfl
  rw [List.nil_append] at haccepted
  obtain ⟨cause, hkind, hmany⟩ := readMany_written bodies small (s := { room := some room }) rfl
  refine ⟨Sink.length_writeBodies bodies _, fun i hi => Sink.writeBodies_succeeds_iff bodies rfl hi,
    haccepted, cause, hkind, fun chunks hchunks count => ?_⟩
  have hbytes : Chunked.bytes { coming := chunks } = (Sink.framesBytes bodies).take room := by
    rw [← haccepted, ← hchunks]
    rfl
  refine ⟨?_, ?_⟩
  · rw [Chunked.readMany_frame, hbytes, hmany]
  · rw [Chunked.readMany_message, hbytes, readMany_message, hmany, List.map_take, List.map_append,
      List.map_map]
    rfl

/-- The second of two bodies is cut off within its header block. -/
theorem written_is_read_cut :
    Agreement 30 [[0x7B, 0x7D], [0x0D, 0x0A]]
      (Sink.writeBodies { room := some 30 } [[0x7B, 0x7D], [0x0D, 0x0A]]).1
      (Sink.writeBodies { room := some 30 } [[0x7B, 0x7D], [0x0D, 0x0A]]).2.accepted :=
  written_is_read 30 [[0x7B, 0x7D], [0x0D, 0x0A]] (by decide)

end LanguageClient
