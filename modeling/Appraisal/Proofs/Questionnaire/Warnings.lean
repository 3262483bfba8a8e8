import Appraisal.Proofs.Questionnaire.Notices
/-!
# Warnings

A refused answer is told with one warning, which has the text of the error, and so is a refused visit to an item of the
catalog. A visit past the end of the catalog and an advance are refused without one (`RefusedInSilence`). An accepted
event is never told with a warning.
-/

namespace Appraisal

def Reply.warnings (r : Reply) : List Notice :=
  r.notices.filter (·.level = .warn)

/-- The reply carries one warning with the text of its error, or has no error and carries none. -/
def Reply.WarnedOnce (r : Reply) : Prop :=
  match r.result with
  | .ok _ => r.warnings = []
  | .error error => ∃ n, r.warnings = [n] ∧ n.fields.lookup "error" = some error.message

namespace Questionnaire
variable {q : Questionnaire}

/-- The event is refused, and the refusal is not told. -/
inductive RefusedInSilence (q : Questionnaire) : Event → Prop
  | visit {target : Nat} : q.catalog.items.length ≤ target → RefusedInSilence q (.navigate target)
  | advance : ¬q.CanAdvance → RefusedInSilence q .advance

theorem AdvanceRefusal.not_canAdvance {error : SessionError} (h : AdvanceRefusal q error) : ¬q.CanAdvance := by
  rintro ⟨⟨r, hr⟩, hlt⟩
  cases h with
  | nowhere hempty => simp [hempty] at hlt
  | undecided _ hnone => cases hnone.symm.trans hr
  | last _ hle => exact absurd hlt (Nat.not_lt_of_le hle)

theorem RefusedInSilence.isMove {e : Event} (h : RefusedInSilence q e) : e.isMove = true := by
  cases h <;> rfl

theorem recordNotice_info (r : Record) (displaced : Option Record) :
    ∀ n ∈ recordNotice r displaced, n.level = .info := by
  unfold recordNotice
  split
  · simp
  · simp [Notice.level]

theorem completeNotice_info (q : Questionnaire) : ∀ n ∈ q.completeNotice, n.level = .info := by
  unfold completeNotice
  split
  · simp [Notice.level]
  · simp

/-- What becomes of a record is told for information. -/
theorem putNotices_info (q : Questionnaire) (i : Nat) (s : Session) : ∀ n ∈ q.putNotices i s, n.level = .info := by
  unfold putNotices sync
  intro n hn
  split at hn
  · split at hn
    · rcases List.mem_append.1 hn with hn | hn
      · exact recordNotice_info _ _ n hn
      · exact completeNotice_info _ n hn
    · dsimp only at hn
      split at hn
      · rw [List.mem_singleton.1 hn]
        rfl
      · cases hn
  · cases hn

theorem no_warnings {r : Reply} (h : ∀ n ∈ r.notices, n.level ≠ .warn) : r.warnings = [] := by
  simpa [Reply.warnings, List.filter_eq_nil_iff] using h

/-- A reply is warned of as it should be, unless it is a refusal in silence; then there is no warning. -/
theorem Replies.warned {e : Event} {r : Reply} (h : Replies q e r) :
    (¬RefusedInSilence q e ∧ r.WarnedOnce) ∨
      (RefusedInSilence q e ∧ (∃ error, r.result = .error error) ∧ r.warnings = []) := by
  cases h with
  | @taken item s f step t hi hs ht =>
    refine .inl ⟨fun hsilent => by simpa using hsilent.isMove, no_warnings fun n hn => ?_⟩
    rcases List.mem_append.1 hn with hn | hn
    · simp [Session.take_quiet ht n hn]
    · simp [putNotices_info q _ _ n hn]
  | refused i f error =>
    exact .inl ⟨fun hsilent => by simpa using hsilent.isMove, _, rfl, rfl⟩
  | @visited target t hlt =>
    refine .inl ⟨?_, no_warnings fun n hn => ?_⟩
    · rintro (hle | _)
      exact absurd hlt (Nat.not_lt_of_le hle)
    · split at hn
      · simp at hn
      · simp [List.mem_singleton.1 hn, Notice.level]
  | unreachable hlt =>
    refine .inl ⟨?_, _, rfl, rfl⟩
    rintro (hle | _)
    exact absurd hlt (Nat.not_lt_of_le hle)
  | unknown hle => exact .inr ⟨.visit hle, ⟨_, rfl⟩, rfl⟩
  | advanced t hcan =>
    refine .inl ⟨?_, no_warnings fun n hn => by simp [List.mem_singleton.1 hn, Notice.level]⟩
    rintro (_ | hno)
    exact hno hcan
  | stuck hr => exact .inr ⟨.advance hr.not_canAdvance, ⟨_, rfl⟩, rfl⟩

/-- In every state that a questionnaire can be in, an accepted event is told without a warning and a refused one with
exactly one, which has the text of the error, except for an advance that cannot be made and a visit past the end of the
catalog: these are refused, and there is no warning. -/
theorem warned_once_iff (c : Catalog) (es : List Event) (e : Event) :
    ((((new c).run es).apply e).WarnedOnce ↔ ¬RefusedInSilence ((new c).run es) e) ∧
    (RefusedInSilence ((new c).run es) e →
      (∃ error, (((new c).run es).apply e).result = .error error) ∧ (((new c).run es).apply e).warnings = []) := by
  rcases (((sound_new c).run es).replies e).warned with ⟨hno, hwarned⟩ | ⟨hsilent, ⟨error, he⟩, hnone⟩
  · exact ⟨iff_of_true hwarned hno, fun hsilent => absurd hsilent hno⟩
  · refine ⟨iff_of_false ?_ fun hno => hno hsilent, fun _ => ⟨⟨error, he⟩, hnone⟩⟩
    intro hwarned
    rw [Reply.WarnedOnce, he] at hwarned
    obtain ⟨n, hn, -⟩ := hwarned
    cases hnone.symm.trans hn

/-- A visit to an item that the house does not have is refused, and so is an advance from its undecided roof. Neither of
them is told. -/
theorem house_refuses_in_silence :
    ((new houseCatalog).apply (.navigate 7)).result = .error (.unknownItem 7 2) ∧
      ((new houseCatalog).apply (.navigate 7)).warnings = [] ∧
      ((new houseCatalog).apply .advance).result = .error (.notResolved 0) ∧
      ((new houseCatalog).apply .advance).warnings = [] := by
  decide

end Questionnaire

end Appraisal
