import LanguageClient.Rpc.Decoding

/-!
# LanguageClient.Proofs.Rpc.Faults -- what a body can be refused for

A body that is no message is refused by a decoding fault, and a response that breaks the protocol by a
protocol fault that has its id (`Message.isBodyFault_of_decode`). No body makes the stream fail.
-/

namespace LanguageClient.Message

/-- A fault of a body: of its decoding, or of a response with both or neither of result and error. -/
def IsBodyFault (f : Fault) : Prop :=
  (∃ cause, f = .decode cause)
    ∨ ∃ id cause, f = .protocol id cause
        ∧ (cause = .bothResultAndError ∨ cause = .neitherResultNorError)

theorem IsBodyFault.of_readId {j : Json} {f : Fault} (h : readId j = .error f) : IsBodyFault f := by
  unfold readId at h
  split at h
  · cases h
  · cases h
  · split at h
    · cases h
    · exact .inl ⟨_, (Except.error.inj h).symm⟩
  · exact .inl ⟨_, (Except.error.inj h).symm⟩

theorem IsBodyFault.of_readMethod {j : Json} {f : Fault} (h : readMethod j = .error f) :
    IsBodyFault f := by
  unfold readMethod at h
  split at h
  · cases h
  · exact .inl ⟨_, (Except.error.inj h).symm⟩

theorem IsBodyFault.of_readError {j : Option Json} {f : Fault} (h : readError j = .error f) :
    IsBodyFault f := by
  unfold readError at h
  split at h
  · cases h
  · cases h
  · split at h
    · cases h
    · exact .inl ⟨_, (Except.error.inj h).symm⟩

theorem IsBodyFault.of_readResponse {id : Option Id} {result error : Option Json} {f : Fault}
    (h : readResponse id result error = .error f) : IsBodyFault f := by
  unfold readResponse at h
  split at h
  · next hread =>
    obtain rfl := Except.error.inj h
    exact .of_readError hread
  · split at h
    · exact .inr ⟨_, _, (Except.error.inj h).symm, .inl rfl⟩
    · exact .inr ⟨_, _, (Except.error.inj h).symm, .inr rfl⟩
    · cases h

theorem IsBodyFault.of_readRequest {id method : Json} {params : Option Json} {f : Fault}
    (h : readRequest id method params = .error f) : IsBodyFault f := by
  unfold readRequest at h
  split at h
  · next hread =>
    obtain rfl := Except.error.inj h
    exact .of_readId hread
  · exact .inl ⟨_, (Except.error.inj h).symm⟩
  · split at h
    · next hread =>
      obtain rfl := Except.error.inj h
      exact .of_readMethod hread
    · cases h

theorem IsBodyFault.of_ofMembers {members : List (String × Json)} {f : Fault}
    (h : ofMembers members = .error f) : IsBodyFault f := by
  unfold ofMembers at h
  split at h
  · exact .of_readRequest h
  · split at h
    · next hread =>
      obtain rfl := Except.error.inj h
      exact .of_readMethod hread
    · cases h
  · split at h
    · next hread =>
      obtain rfl := Except.error.inj h
      exact .of_readId hread
    · exact .of_readResponse h
  · exact .inl ⟨_, (Except.error.inj h).symm⟩

/-- Whatever a body is refused for is a fault of the body. -/
theorem isBodyFault_of_decode {body : List UInt8} {f : Fault} (h : decode body = .error f) :
    IsBodyFault f := by
  unfold decode at h
  split at h
  · exact .inl ⟨_, (Except.error.inj h).symm⟩
  · unfold ofJson at h
    split at h
    · split at h
      · exact .inl ⟨_, (Except.error.inj h).symm⟩
      · split at h
        · exact .of_ofMembers h
        · exact .inl ⟨_, (Except.error.inj h).symm⟩
    · exact .inl ⟨_, (Except.error.inj h).symm⟩

end LanguageClient.Message
