import LanguageClient.Session.Shared
import Mathlib.Data.List.Count

/-!
# LanguageClient.Proofs.Session.Parts -- what a client says in a session

The client's own messages on the wire, its answers to the server left out, are its part in a conversation
(`Shared.sent`). `IsConversation` is the grammar of that part: a lone `exit`, or the opening, anything but
the reserved messages, `shutdown` and `exit`, broken off anywhere. `IsCutShort` is the one way in which a
session can leave the grammar: with an `exit` that no `shutdown` came before.
-/

namespace LanguageClient

/-- A message of the client's own. -/
inductive Part where
  | request (method : String)
  | notification (method : String)
  deriving DecidableEq

/-- The methods of the messages by which sessions begin and end. -/
def reserved : List String := ["initialize", "initialized", "shutdown", "exit"]

namespace Part

def method : Part → String
  | request method | notification method => method

def handshake : Part := request "initialize"

def initialized : Part := notification "initialized"

def shutdown : Part := request "shutdown"

def exit : Part := notification "exit"

/-- A message that may stand between the opening and the end. -/
def IsOther (p : Part) : Prop := p.method ∉ reserved

end Part

/-- What a message says of the client's own: an answer says nothing. -/
def Message.part? : Message → Option Part
  | .request r => some (.request r.method)
  | .notification n => some (.notification n.method)
  | .response _ => none

/-- What the client has said of its own. -/
def Shared.sent (s : Shared) : List Part := s.wire.filterMap Message.part?

theorem Shared.sent_write (s : Shared) (m : Message) :
    { s with wire := s.wire ++ [m] }.sent = s.sent ++ m.part?.toList := by
  unfold sent
  rw [List.filterMap_append]
  cases m <;> rfl

/-! ## The grammar -/

/-- The handshake is done, and nothing was said that belongs to the end. -/
def IsOpened (ps : List Part) : Prop :=
  ∃ others, (∀ p ∈ others, Part.IsOther p) ∧ ps = .handshake :: .initialized :: others

/-- A conversation, or the beginning of one. -/
def IsConversation (ps : List Part) : Prop :=
  ps <+: [.exit] ∨ ∃ others, (∀ p ∈ others, Part.IsOther p) ∧
    ps <+: .handshake :: .initialized :: (others ++ [.shutdown, .exit])

/-- A conversation that ends without a `shutdown`. -/
def IsCutShort (ps : List Part) : Prop :=
  ∃ others, (∀ p ∈ others, Part.IsOther p) ∧
    ps = .handshake :: .initialized :: (others ++ [.exit])

/-- What may have been said, when a condition tells whether the end may come without a `shutdown`. -/
def IsAllowed (cut : Prop) (ps : List Part) : Prop := IsConversation ps ∨ cut ∧ IsCutShort ps

variable {cut : Prop} {ps : List Part}

theorem allowed_nil : IsAllowed cut [] := .inl (.inl (List.nil_prefix))

theorem allowed_exit : IsAllowed cut [.exit] := .inl (.inl List.prefix_rfl)

theorem allowed_handshake : IsAllowed cut [.handshake] := by
  refine .inl (.inr ⟨[], by simp, ?_⟩)
  exact List.prefix_append [Part.handshake] _

theorem opened_initialized : IsOpened [.handshake, .initialized] := ⟨[], by simp, rfl⟩

theorem IsOpened.append (h : IsOpened ps) {p : Part} (hp : p.IsOther) : IsOpened (ps ++ [p]) := by
  obtain ⟨others, hothers, rfl⟩ := h
  refine ⟨others ++ [p], fun q hq => ?_, rfl⟩
  rcases List.mem_append.mp hq with hq | hq
  · exact hothers q hq
  · exact List.mem_singleton.mp hq ▸ hp

theorem IsAllowed.of_begins {qs : List Part} (h : IsConversation qs) (hle : ps <+: qs) :
    IsAllowed cut ps := by
  rcases h with hexit | ⟨others, hothers, hbegins⟩
  · exact .inl (.inl (hle.trans hexit))
  · exact .inl (.inr ⟨others, hothers, hle.trans hbegins⟩)

theorem IsOpened.conversation (h : IsOpened ps) : IsConversation (ps ++ [.shutdown] ++ [.exit]) := by
  obtain ⟨others, hothers, rfl⟩ := h
  refine .inr ⟨others, hothers, ?_⟩
  rw [List.append_assoc]
  exact List.prefix_rfl

theorem IsOpened.allowed_shutdown (h : IsOpened ps) : IsAllowed cut (ps ++ [.shutdown]) :=
  .of_begins h.conversation (List.prefix_append _ _)

theorem IsOpened.allowed (h : IsOpened ps) : IsAllowed cut ps := by
  refine .of_begins h.conversation ?_
  rw [List.append_assoc]
  exact List.prefix_append _ _

theorem IsOpened.allowed_cut (h : IsOpened ps) (hcut : cut) : IsAllowed cut (ps ++ [.exit]) := by
  obtain ⟨others, hothers, rfl⟩ := h
  exact .inr ⟨hcut, others, hothers, rfl⟩

/-! ## What follows from the grammar -/

/-- The reserved methods are said once at most. -/
theorem IsAllowed.once (h : IsAllowed cut ps) {method : String} (hmethod : method ∈ reserved) :
    (ps.map Part.method).count method ≤ 1 := by
  have hzero : ∀ others : List Part, (∀ p ∈ others, p.IsOther) →
      (others.map Part.method).count method = 0 := by
    intro others hothers
    refine List.count_eq_zero.mpr fun hmem => ?_
    obtain ⟨p, hp, rfl⟩ := List.mem_map.mp hmem
    exact hothers p hp hmethod
  have hframe : ∀ ending : List Part, ending <:+ [.shutdown, .exit] →
      ([Part.handshake, .initialized].map Part.method).count method
        + (ending.map Part.method).count method ≤ 1 := by
    intro ending hending
    have hle := (hending.sublist.map Part.method).count_le method
    have hall : ([Part.handshake, .initialized].map Part.method).count method
        + ([Part.shutdown, .exit].map Part.method).count method ≤ 1 := by
      unfold reserved at hmethod
      simp only [List.mem_cons, List.not_mem_nil, or_false] at hmethod
      rcases hmethod with rfl | rfl | rfl | rfl <;> decide
    omega
  have hwhole : ∀ others ending : List Part, (∀ p ∈ others, p.IsOther) → ending <:+ [.shutdown, .exit] →
      ((.handshake :: .initialized :: (others ++ ending)).map Part.method).count method ≤ 1 := by
    intro others ending hothers hending
    have hsplit : .handshake :: .initialized :: (others ++ ending)
        = [Part.handshake, .initialized] ++ (others ++ ending) := rfl
    rw [hsplit, List.map_append, List.map_append, List.count_append, List.count_append,
      hzero others hothers, Nat.zero_add]
    exact hframe ending hending
  rcases h with (hexit | ⟨others, hothers, hbegins⟩) | ⟨-, others, hothers, rfl⟩
  · refine Nat.le_trans ((hexit.sublist.map Part.method).count_le method) ?_
    exact Nat.le_trans List.count_le_length (Nat.le_refl 1)
  · refine Nat.le_trans ((hbegins.sublist.map Part.method).count_le method) ?_
    exact hwhole others _ hothers List.suffix_rfl
  · exact hwhole others [.exit] hothers ⟨[.shutdown], rfl⟩

/-- In the grammar an `exit` that does not stand alone comes after a `shutdown`. -/
theorem IsConversation.shutdown_of_exit (h : IsConversation ps) (hexit : Part.exit ∈ ps) :
    ps = [.exit] ∨ .shutdown ∈ ps := by
  rcases h with halone | ⟨others, hothers, hbegins⟩
  · rcases List.prefix_cons_iff.mp halone with rfl | ⟨rest, rfl, hrest⟩
    · cases hexit
    · exact .inl (by rw [List.prefix_nil.mp hrest])
  · have hsplit : .handshake :: .initialized :: (others ++ [Part.shutdown, .exit])
        = .handshake :: .initialized :: (others ++ [Part.shutdown]) ++ [.exit] := by simp
    rw [hsplit] at hbegins
    rcases List.prefix_concat_iff.mp hbegins with rfl | hshort
    · exact .inr (by simp)
    · -- all that comes before the last message is something else
      have hmem := hshort.subset hexit
      have hother : Part.exit ∉ others := fun hin => hothers _ hin (by decide)
      simp [Part.exit, Part.handshake, Part.initialized, Part.shutdown] at hmem
      exact absurd hmem hother

/-- What is cut short is not in the grammar. -/
theorem IsCutShort.not_conversation (h : IsCutShort ps) : ¬ IsConversation ps := by
  intro hconversation
  obtain ⟨others, hothers, rfl⟩ := h
  rcases hconversation.shutdown_of_exit (by simp) with heq | hmem
  · cases heq
  · have hother : Part.shutdown ∉ others := fun hin => hothers _ hin (by decide)
    simp [Part.exit, Part.handshake, Part.initialized, Part.shutdown] at hmem
    exact hother hmem

/-- Nothing comes before the opening but a lone `exit`. -/
theorem IsAllowed.opening (h : IsAllowed cut ps) :
    ps = [.exit] ∨ ps <+: [.handshake, .initialized] ∨ [.handshake, .initialized] <+: ps := by
  have hsplit : ∀ rest : List Part,
      .handshake :: .initialized :: rest = [Part.handshake, .initialized] ++ rest := fun _ => rfl
  rcases h with (hexit | ⟨others, -, hbegins⟩) | ⟨-, others, -, rfl⟩
  · rcases List.prefix_cons_iff.mp hexit with rfl | ⟨rest, rfl, hrest⟩
    · exact .inr (.inl List.nil_prefix)
    · exact .inl (by rw [List.prefix_nil.mp hrest])
  · rw [hsplit] at hbegins
    have heither := List.prefix_or_prefix_of_prefix hbegins (List.prefix_append _ _)
    exact .inr heither
  · rw [hsplit]
    exact .inr (.inr (List.prefix_append _ _))

end LanguageClient
