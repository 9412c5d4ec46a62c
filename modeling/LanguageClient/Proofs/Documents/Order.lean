import LanguageClient.Proofs.Documents.Versions
import Mathlib.Data.List.Induction

/-!
# LanguageClient.Proofs.Documents.Order -- opening and closing take turns

A store opens a document only if it is closed, and does everything else only if it is open. So what the
server is told of a document is an opening, then what is done with it while it is open, then a closing, and
so on (`fitting_notices`, `Fitting.takesTurns`).
-/

namespace LanguageClient

namespace DocumentStore

variable {s s' : DocumentStore} {o : DocumentOperation} {n : DocumentNotice} {told : List DocumentNotice}

/-- A document is opened when it is closed, and all else is done when it is open. -/
theorem isOpen_of_apply (h : s.apply o = .ok (n, s')) : s.isOpen o.uri = true ↔ n.opens? ≠ some true := by
  have hneeds : ∀ {uri : DocumentUri} {d : Document}, s.getOpen uri = .ok d → s.isOpen uri = true := by
    intro uri d hget
    obtain ⟨hfound, hopen⟩ := of_getOpen hget
    rw [isOpen_eq, hfound]
    exact hopen
  cases o with
  | opening uri languageId wanted text =>
    cases hversion : s.openingVersion uri wanted with
    | error f => simp [apply, openDocument, hversion, Except.map] at h
    | ok v =>
      simp only [apply, openDocument, hversion, Except.map, Except.ok.injEq, Prod.mk.injEq] at h
      obtain ⟨rfl, rfl⟩ := h
      obtain ⟨hclosed, -⟩ := of_openingVersion hversion
      exact iff_of_false (Bool.eq_false_iff.mp hclosed) (fun hne => hne rfl)
  | changing uri changes =>
    cases hget : s.getOpen uri with
    | error f => simp [apply, changeDocument, hget, Except.map] at h
    | ok d =>
      cases hnext : nextVersion uri d.version with
      | error f => simp [apply, changeDocument, hget, hnext, Except.map] at h
      | ok v =>
        simp only [apply, changeDocument, hget, hnext, Except.map, Except.ok.injEq, Prod.mk.injEq] at h
        obtain ⟨rfl, rfl⟩ := h
        exact iff_of_true (hneeds hget) (by simp [DocumentNotice.opens?])
  | saving uri text =>
    cases hget : s.getOpen uri with
    | error f => simp [apply, saveDocument, hget, Except.map] at h
    | ok d =>
      simp only [apply, saveDocument, hget, Except.map, Except.ok.injEq, Prod.mk.injEq] at h
      obtain ⟨rfl, rfl⟩ := h
      exact iff_of_true (hneeds hget) (by simp [DocumentNotice.opens?])
  | closing uri =>
    cases hget : s.getOpen uri with
    | error f => simp [apply, closeDocument, hget, Except.map] at h
    | ok d =>
      simp only [apply, closeDocument, hget, Except.map, Except.ok.injEq, Prod.mk.injEq] at h
      obtain ⟨rfl, rfl⟩ := h
      exact iff_of_true (hneeds hget) (by simp [DocumentNotice.opens?])

/-! ## What the server is told -/

/-- Each notice comes when it fits: an opening when the document is closed, any other when it is open. -/
def Fitting (told : List DocumentNotice) : Prop :=
  ∀ before n after, told = before ++ n :: after → (isOpenAfter n.uri before = true ↔ n.opens? ≠ some true)

theorem Fitting.of_append {more : List DocumentNotice} (h : Fitting (told ++ more)) : Fitting told := by
  rintro before n after rfl
  exact h before n (after ++ more) (by rw [List.append_assoc, List.cons_append])

theorem Fitting.concat (h : Fitting told) (hn : isOpenAfter n.uri told = true ↔ n.opens? ≠ some true) :
    Fitting (told ++ [n]) := by
  intro before m after heq
  rcases List.eq_nil_or_concat after with rfl | ⟨rest, last, rfl⟩
  · obtain ⟨rfl, hlast⟩ := List.append_inj' heq rfl
    obtain rfl := List.singleton_inj.mp hlast
    exact hn
  · have heq' : told ++ [n] = (before ++ m :: rest) ++ [last] := by
      rw [heq, List.concat_eq_append, List.append_assoc, List.cons_append]
    exact h before m rest (List.append_inj' heq' rfl).1

theorem fitting_notices (os : List DocumentOperation) : Fitting (notices {} os) := by
  induction os using List.reverseRecOn with
  | nil =>
    intro before n after heq
    cases before <;> cases heq
  | append_singleton os o ih =>
    have hone : (after os).notices [o] = ((after os).notice? o).toList := List.append_nil _
    rw [notices_append]
    show Fitting (notices {} os ++ (after os).notices [o])
    rw [hone]
    cases happly : (after os).apply o with
    | error f =>
      rw [notice?, happly]
      simpa [Except.toOption] using ih
    | ok r =>
      obtain ⟨n, next⟩ := r
      rw [notice?, happly]
      refine ih.concat ?_
      rw [(Told.of_apply happly).uri, ← (knows_after os).isOpen]
      exact isOpen_of_apply happly

/-! ## Openings and closings -/

/-- The openings and closings of a document, in order. -/
def openings (uri : DocumentUri) (told : List DocumentNotice) : List Bool :=
  (told.filter (·.uri = uri)).filterMap (·.opens?)

theorem openings_concat (uri : DocumentUri) (told : List DocumentNotice) (n : DocumentNotice) :
    openings uri (told ++ [n]) = openings uri told ++ if n.uri = uri then n.opens?.toList else [] := by
  by_cases h : n.uri = uri
  · cases hopens : n.opens? <;> simp [openings, h, hopens]
  · simp [openings, h]

/-- Openings and closings that take turns, of which an opening is the first. -/
def TakesTurns (bs : List Bool) : Prop := ∀ i b, bs[i]? = some b → b = decide (i % 2 = 0)

theorem TakesTurns.last {bs : List Bool} (h : TakesTurns bs) :
    bs.getLast?.getD false = decide (bs.length % 2 = 1) := by
  rw [List.getLast?_eq_getElem?]
  cases hlast : bs[bs.length - 1]? with
  | none =>
    have hempty : bs.length = 0 := by
      have hle := List.getElem?_eq_none_iff.mp hlast
      omega
    rw [hempty]
    rfl
  | some b =>
    have hpos : bs.length - 1 < bs.length := (List.getElem?_eq_some_iff.mp hlast).1
    rw [h _ _ hlast, Option.getD_some, decide_eq_decide]
    omega

theorem TakesTurns.concat {bs : List Bool} (h : TakesTurns bs) {b : Bool}
    (hb : bs.getLast?.getD false = !b) : TakesTurns (bs ++ [b]) := by
  intro i c hc
  rcases Nat.lt_or_ge i bs.length with hlt | hge
  · rw [List.getElem?_append_left hlt] at hc
    exact h i c hc
  · rw [List.getElem?_append_right hge, List.getElem?_singleton] at hc
    split at hc
    · next hzero =>
      have hi : i = bs.length := by omega
      rw [h.last] at hb
      rw [← Option.some.inj hc, hi, ← Bool.not_not b, ← hb, ← decide_not, decide_eq_decide]
      omega
    · cases hc

/-- A document is opened and closed by turns. -/
theorem Fitting.takesTurns (h : Fitting told) (uri : DocumentUri) : TakesTurns (openings uri told) := by
  induction told using List.reverseRecOn with
  | nil => exact fun i b hb => by cases hb
  | append_singleton told n ih =>
    have hbefore := ih h.of_append
    rw [openings_concat]
    split
    · next huri =>
      cases hopens : n.opens? with
      | none => simpa using hbefore
      | some b =>
        -- whether the document is open is what the last of them says
        have hfits : (openings uri told).getLast?.getD false = true ↔ some b ≠ some true := by
          rw [← hopens, ← huri]
          exact h told n [] rfl
        refine hbefore.concat ?_
        cases b <;> simpa using hfits
    · rw [List.append_nil]
      exact hbefore

end DocumentStore

end LanguageClient
