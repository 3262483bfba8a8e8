import Appraisal.Proofs.Session.Progress
/-!
# Which events a session accepts

When the branches of an item can be judged, the evaluator has an answer wherever a session can land. So a session
accepts every main answer, every answer to the next question or to an earlier one of the active layer, and every
pick of a candidate; what it refuses came at the wrong time or was meant for another place.
-/

namespace Appraisal

theorem put_length_le {answers : List Answer} {k n : Nat} {x : Answer} (hk : k < n) (hlen : answers.length ≤ n) :
    (put answers k x).length ≤ n := by
  unfold put
  by_cases h : k = answers.length
  · rw [if_pos h, List.length_append, List.length_singleton]
    omega
  · rwa [if_neg h, List.length_set]

namespace Session
variable {item : Item} {index : Nat} {a : Answer} {done : List (List Answer)} {answers : List Answer} {l : Layer}

/-- A session lands with answers to any number of the questions of a layer. -/
theorem lands_total (index : Nat) (hj : (item.branch a).Judgeable) (hl : (item.branch a).Leads done l)
    (hlen : answers.length ≤ l.questions.length) : ∃ t, Lands item index (.on a done answers) t := by
  rcases Nat.lt_or_eq_of_le hlen with hlt | heq
  · exact ⟨_, lands_awaiting hl.descend hlt⟩
  · exact lands_complete index hj hl heq

theorem land_ok (hj : (item.branch a).Judgeable) (hl : (item.branch a).Leads done l)
    (hlen : answers.length ≤ l.questions.length) (state : State) :
    ∃ step, land ⟨index, .on a done answers, state⟩ item = .ok step := by
  obtain ⟨t, ht⟩ := lands_total index hj hl hlen
  obtain ⟨step, hstep, -⟩ := (lands_iff (s := ⟨index, .on a done answers, state⟩)).1 ht
  exact ⟨step, hstep⟩

/-! ## Accepted events -/

theorem answerMain_accepted (hj : ∀ a, (item.branch a).Judgeable) (s : Session) (a : Answer) :
    ∃ step, s.answerMain item a = .ok step := by
  unfold answerMain
  by_cases hm : s.trail.main = some a
  · exact ⟨_, if_pos hm⟩
  · rw [if_neg hm]
    exact land_ok (hj a) (.here _) (Nat.zero_le _) .unstarted

/-- The active layer takes an answer to its next question, and another one to each question before. -/
theorem answerSub_accepted (hj : (item.branch a).Judgeable) (hl : (item.branch a).Leads done l)
    (hlen : answers.length ≤ l.questions.length) {k : Nat} (hk : k < l.questions.length) (hc : k ≤ answers.length)
    (state : State) (x : Answer) :
    ∃ step, answerSub ⟨index, .on a done answers, state⟩ item done.length k x = .ok step := by
  have h0 : l.questions.length ≠ 0 := Nat.ne_of_gt (Nat.lt_of_le_of_lt (Nat.zero_le k) hk)
  rw [answerSub_on hl.descend]
  simp only [ne_eq, not_true_eq_false, if_false, h0, Nat.not_le_of_lt hk, Nat.not_lt_of_le hc]
  by_cases hx : answers[k]? = some x
  · exact ⟨_, if_pos hx⟩
  · rw [if_neg hx]
    exact land_ok hj hl (put_length_le hk hlen) state

/-! ## Refused events -/

theorem answerSub_refused (hj : ∀ a, (item.branch a).Judgeable) {s : Session} (hs : s.Agrees item index)
    {depth k : Nat} {x : Answer} {error : SessionError} (h : s.answerSub item depth k x = .error error) :
    error.isSequenceViolation = true := by
  cases hs with
  | unstarted =>
    cases h
    rfl
  | @started a done answers l state hl hf =>
    rw [answerSub_on hl.descend] at h
    split_ifs at h with hd hr h0 hk hc hx
    · cases h
      rfl
    · cases h
      rfl
    · cases h
      rfl
    · cases h
      rfl
    · -- The active layer can take the answer, and then it does.
      have hlen := put_length_le (x := x) (Nat.lt_of_not_le hk) hf.length_le
      obtain ⟨step, hstep⟩ : ∃ step, land ⟨index, .on a done (put answers k x), state⟩ item = .ok step :=
        land_ok (hj a) hl hlen state
      rw [hstep] at h
      cases h

theorem toggle_refused {s : Session} {k : Nat} {b : Bool} {error : SessionError}
    (h : s.toggle k b = .error error) : error.isSequenceViolation = true := by
  unfold toggle at h
  cases hs : s.state.selection? with
  | none =>
    simp only [hs] at h
    cases h
    rfl
  | some selection =>
    cases ht : selection.toggle k b with
    | error e =>
      simp only [hs, ht] at h
      cases h
      rfl
    | ok revised => simp [hs, ht] at h

/-- The evaluator never stands in the way of an event. -/
theorem take_refused (hj : ∀ a, (item.branch a).Judgeable) {s : Session} (hs : s.Agrees item index)
    {e : SessionEvent} {error : SessionError} (h : s.take item e = .error error) :
    error.isSequenceViolation = true := by
  cases e with
  | main a =>
    obtain ⟨step, hstep⟩ := answerMain_accepted hj s a
    rw [take, hstep] at h
    cases h
  | sub depth k x => exact answerSub_refused hj hs h
  | toggle k b => exact toggle_refused h

end Session

end Appraisal
