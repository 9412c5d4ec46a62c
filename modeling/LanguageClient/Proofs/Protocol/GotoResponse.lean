import LanguageClient.Proofs.Protocol.Position
import LanguageClient.Proofs.Session.Asking
import LanguageClient.Proofs.Session.DocumentOrder

/-!
# LanguageClient.Proofs.Protocol.GotoResponse -- every target reaches the caller, in order

One location, a list of locations and a list of links are tried in order. A location refuses every list of
objects, and an object that names no document, so what is written is read in its own form. Only a list of no
links cannot be told from a list of no locations, but the locations of both are the same. So who asks for
definitions or declarations gets the locations that the server has sent (`GotoResponse.targets_kept`).
-/

namespace LanguageClient

open Json Json.Fields Json.Codec Session

/-- A link names no document under `uri`, so it is no location. -/
theorem Location.refuses_link (l : LocationLink) : codec.Refuses (LocationLink.codec.write l) := by
  have hnone : (Assoc.ofList (LocationLink.fields.toMembers l)).lookup "uri" = none := by
    rw [l.keeps.lookup_written (by decide), l.keeps.lookup_eq_none (by decide)]
  exact refuses_object hnone

/-- A list of records is no location. -/
theorem Location.refuses_records {α : Type} {name : String} {fields : Fields α α} (as : List α) :
    codec.Refuses ((list (Codec.record name fields)).write as) := by
  refine refuses_list fun j hj => ?_
  obtain ⟨a, -, rfl⟩ := List.mem_map.mp hj
  exact ⟨_, rfl⟩

namespace GotoResponse

/-- Only a list of no links is read as something else, a list of no locations. -/
theorem read_write (r : GotoResponse) (place : Place) :
    codec.read place (codec.write r) = .ok (if r = link [] then array [] else r) := by
  refine choice_read ?_ place
  cases r with
  | scalar location => exact firstForm_of_read (location.roundTrips .kept)
  | array locations =>
    exact (firstForm_of_refuses (Location.refuses_records locations)).trans
      (firstForm_of_read (list_roundTrips (fun l _ => l.roundTrips) .kept))
  | link links =>
    refine (firstForm_of_refuses (Location.refuses_records links)).trans ?_
    cases links with
    | nil => rfl
    | cons first more =>
      have hrefuses : (list Location.codec).Refuses ((list LocationLink.codec).write (first :: more)) :=
        list_refuses ⟨_, List.mem_cons_self, Location.refuses_link first⟩
      exact (firstForm_of_refuses hrefuses).trans
        (firstForm_of_read (list_roundTrips (fun l _ => l.roundTrips) .kept))

/-- The locations survive, also where the form does not. -/
theorem locations_reread (r : GotoResponse) : (if r = link [] then array [] else r).locations = r.locations := by
  split
  · next heq =>
    subst heq
    rfl
  · rfl

/-- A result that may be missing is read as the locations that were written. -/
theorem locations_read (r : GotoResponse) :
    (codec.optional.ofJson (codec.write r)).map (fun o => (o.map locations).getD []) = .ok r.locations := by
  have hnull : codec.write r ≠ .null := by cases r <;> nofun
  rw [Codec.ofJson, optional_read hnull, read_write, ← locations_reread r]
  rfl

/-- The targets of a response are kept on their way to a caller. -/
structure KeepsTargets (r : GotoResponse) : Prop where
  /-- The response is read in the form it has, but for a list of no links. -/
  back : ∀ place, codec.read place (codec.write r) = .ok (if r = link [] then array [] else r)
  /-- Whatever it is read as, its locations are the same. -/
  same : ∀ place back, codec.read place (codec.write r) = .ok back → back.locations = r.locations
  /-- They are one for each element, in order, and a link leads to what is selected at its target. -/
  each : (∀ l, r = scalar l → r.locations = [l]) ∧ (∀ ls, r = array ls → r.locations = ls)
    ∧ ∀ links, r = link links → r.locations = links.map fun l => ⟨l.targetUri, l.targetSelectionRange⟩
  /-- Both queries return them when the server has answered with the response. -/
  definition : ∀ uri position, (Query.definition uri position).Returns (codec.write r) r.locations
  declaration : ∀ uri position, (Query.declaration uri position).Returns (codec.write r) r.locations

/-- **Every target of a response is kept, in order**, and a server that knows none answers with null. -/
theorem targets_kept : (∀ r : GotoResponse, r.KeepsTargets)
    ∧ ∀ uri position, (Query.definition uri position).Returns .null []
      ∧ (Query.declaration uri position).Returns .null [] := by
  refine ⟨fun r => ?_, fun _ _ => ⟨Query.returns_of_read rfl, Query.returns_of_read rfl⟩⟩
  constructor
  · exact r.read_write
  · intro place back hback
    rw [r.read_write] at hback
    rw [← Except.ok.inj hback, locations_reread]
  · refine ⟨?_, ?_, ?_⟩ <;> rintro _ rfl <;> rfl
  · exact fun _ _ => Query.returns_of_read r.locations_read
  · exact fun _ _ => Query.returns_of_read r.locations_read

/-! ### A definition is asked for -/

/-- What a caller asks for. -/
def question : Query (List Location) := .definition "file:///a" ⟨4, 2⟩

/-- He asks for it after the handshake. -/
def asked : List Action := handshaken ++ asking 2 question.method question.params none

/-- What the server knows. -/
def known : Location := ⟨"b", ⟨⟨1, 0⟩, ⟨1, 4⟩⟩⟩

/-- The server answers with a single location, and the caller has a list of it. -/
theorem targets_kept_asked :
    let answer := Frame.bodyBytes (Message.encode (.response (.success (.number 2) (codec.write (scalar known)))))
    ∃ outcome, ((create {}).run (asked ++ [.arrive answer] ++ [.turn readLoop, .turn 2])).answer? 2
        = some (outcome.map .result)
      ∧ question.answer outcome = .ok [known] := by
  intro answer
  have hreturns : question.Returns (codec.write (scalar known)) [known] :=
    (targets_kept.1 (scalar known)).definition _ _
  obtain ⟨hfew, hready, hflows, hnext⟩ : (create {}).idsTaken handshaken + 4 < 2 ^ 64
      ∧ ((create {}).run handshaken).shared.lifecycle.phase = .ready
      ∧ ((create {}).run handshaken).shared.outflow = .flowing
      ∧ ((create {}).run handshaken).nextTask = 2 := by decide +kernel
  obtain ⟨w, deadline, hwire, hwaiting, -, hreturns⟩ := hreturns {} handshaken none hfew hready hflows
  rw [hnext] at hwire hwaiting hreturns
  -- the request has the id that comes after that of the handshake
  have hid : w.id = .number 2 := by
    have hlast := congrArg List.getLast? hwire
    rw [List.getLast?_concat] at hlast
    have hrequest : ((create {}).run asked).shared.wire.getLast?
        = some (.request { id := .number 2, method := question.method, params := question.params }) := by
      decide +kernel
    have hsame := hlast.symm.trans hrequest
    simp only [Option.some.injEq, Message.request.injEq, Request.mk.injEq] at hsame
    exact hsame.2.1
  have harrived : ∀ s : Session, (s.act (.arrive answer)).task? 2 = s.task? 2 := by
    intro s
    simp only [act]
    split <;> rfl
  obtain ⟨hfewer, hout, htook⟩ : (create {}).idsTaken (asked ++ [.arrive answer]) + 1 < 2 ^ 64
      ∧ ((create {}).run (asked ++ [.arrive answer])).Outstanding (.number 2)
      ∧ ((create {}).run (asked ++ [.arrive answer])).took? (.turn readLoop)
        = some (.ok (.response (.success (.number 2) (codec.write (scalar known)))), []) := by decide +kernel
  refine hreturns [.arrive answer] _ [] hfewer ?_ (hid ▸ hout) htook (congrArg some hid.symm) rfl
  rw [run_append]
  exact (harrived _).trans hwaiting

end GotoResponse

end LanguageClient
