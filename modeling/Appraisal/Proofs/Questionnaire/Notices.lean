import Appraisal.Proofs.Questionnaire.Moving
/-!
# What a reply tells

`Replies` sums up the replies of a questionnaire with everything they tell. A taken answer tells details of the
session and what becomes of the record of its item, and a move tells where it goes. Of the refusals, those of answers
and of visits to items that cannot be reached tell their error; the others tell nothing.
-/

namespace Appraisal

/-! ## Sessions -/

/-- The step tells nothing but details. -/
def SessionStep.Quiet (step : SessionStep) : Prop :=
  ∀ n ∈ step.notices, n.level = .debug

namespace Session
variable {s : Session} {item : Item} {step : SessionStep}

theorem unchanged_quiet (s : Session) : s.unchanged.Quiet :=
  fun _ hn => absurd hn List.not_mem_nil

theorem moveTo_quiet (s : Session) (place : LayerRef) (depth : Nat) : (s.moveTo place depth).Quiet := by
  unfold moveTo
  split
  · intro n hn
    rw [List.mem_singleton.1 hn]
    rfl
  · exact s.unchanged_quiet

theorem land_quiet (h : s.land item = .ok step) : step.Quiet := by
  unfold land at h
  split at h
  · cases h
  · cases h
  · next place layer _ _ =>
    cases hs : layer.settle place.depth s.trail.current with
    | error e => simp [hs] at h
    | ok settled =>
      simp only [hs] at h
      cases hst : (s.moveTo place settled.depth).session.stateOf item settled with
      | error e => simp [hst, Except.map] at h
      | ok state =>
        simp only [hst, Except.map, Except.ok.injEq] at h
        subst h
        intro n hn
        rcases List.mem_append.1 hn with hmove | hstate
        · exact s.moveTo_quiet place settled.depth n hmove
        · rw [List.mem_singleton.1 hstate]
          rfl

theorem answerMain_quiet {a : Answer} (h : s.answerMain item a = .ok step) : step.Quiet := by
  unfold answerMain at h
  split at h
  · cases h
    exact s.unchanged_quiet
  · exact land_quiet h

theorem answerSub_quiet {depth k : Nat} {x : Answer} (h : s.answerSub item depth k x = .ok step) : step.Quiet := by
  unfold answerSub at h
  cases hl : s.activeLayer item with
  | error e => simp [hl] at h
  | ok layer =>
    simp only [hl] at h
    split at h
    · split at h
      · cases h
        exact s.unchanged_quiet
      · cases h
    split at h
    · cases h
    split at h
    · cases h
    split at h
    · cases h
    split at h
    · cases h
      exact s.unchanged_quiet
    · exact land_quiet h

theorem toggle_quiet {k : Nat} {b : Bool} (h : s.toggle k b = .ok step) : step.Quiet := by
  unfold toggle at h
  split at h
  · cases h
  · split at h
    · cases h
    · cases h
      intro n hn
      rw [List.mem_singleton.1 hn]
      rfl

theorem take_quiet {f : SessionEvent} (h : s.take item f = .ok step) : step.Quiet := by
  cases f with
  | main a => exact answerMain_quiet h
  | sub depth k x => exact answerSub_quiet h
  | toggle k b => exact toggle_quiet h

end Session

/-! ## Replies -/

namespace Questionnaire
variable {q : Questionnaire}

/-- What is told when a session is put in the place of item `index`. -/
def putNotices (q : Questionnaire) (index : Nat) (s : Session) : List Notice :=
  ({ q with sessions := q.sessions.set index s }.sync index).2

/-- The replies to an event. -/
inductive Replies (q : Questionnaire) : Event → Reply → Prop
  | taken {item : Item} {s : Session} {f : SessionEvent} {step : SessionStep} (t : Transition) :
      q.catalog.items[q.current]? = some item → q.sessions[q.current]? = some s → s.take item f = .ok step →
      Replies q (.ofSession q.current f)
        ⟨.ok t, q.putSession q.current step.session, step.notices ++ q.putNotices q.current step.session⟩
  | refused (i : Nat) (f : SessionEvent) (error : SessionError) :
      Replies q (.ofSession i f) ⟨.error error, q, [.eventRejected i (eventName f) error]⟩
  | visited {target : Nat} (t : Transition) :
      target < q.catalog.items.length →
      Replies q (.navigate target)
        ⟨.ok t, { q with current := target }, if target = q.current then [] else [.navigated q.current target]⟩
  | unreachable {target : Nat} :
      target < q.catalog.items.length →
      Replies q (.navigate target)
        ⟨.error (.unreachable target q.current), q, [.navigationRejected (.unreachable target q.current)]⟩
  | unknown {target : Nat} :
      q.catalog.items.length ≤ target →
      Replies q (.navigate target) ⟨.error (.unknownItem target q.catalog.items.length), q, []⟩
  | advanced (t : Transition) :
      q.CanAdvance →
      Replies q .advance ⟨.ok t, { q with current := q.current + 1 }, [.advanced q.current (q.current + 1)]⟩
  | stuck {error : SessionError} :
      AdvanceRefusal q error → Replies q .advance ⟨.error error, q, []⟩

theorem Sound.replies_ofSession (h : q.Sound) (i : Nat) (f : SessionEvent) :
    Replies q (.ofSession i f) (q.apply (.ofSession i f)) := by
  cases ho : q.onCurrent i (fun s item => s.take item f) with
  | error error =>
    rw [apply_ofSession, answered, ho]
    exact .refused i f error
  | ok step =>
    have hn : (q.apply (.ofSession i f)).notices = step.notices ++ q.putNotices i step.session := by
      rw [apply_ofSession, answered, ho]
      rfl
    obtain ⟨rfl, item, s, hi, hs, ht⟩ := onCurrent_ok.1 ho
    obtain ⟨t, notices, ha⟩ := (Effect.answer hi hs ht).apply h.length_eq
    rw [ha] at hn ⊢
    cases hn
    exact .taken t hi hs ht

theorem Sound.replies_navigate (h : q.Sound) (target : Nat) :
    Replies q (.navigate target) (q.apply (.navigate target)) := by
  cases hi : q.catalog.items[target]? with
  | none =>
    simp only [Questionnaire.apply, navigate, Questionnaire.item, hi]
    exact .unknown (List.getElem?_eq_none_iff.1 hi)
  | some item =>
    have hlt := (List.getElem?_eq_some_iff.1 hi).1
    cases hn : q.canNavigate target with
    | false =>
      simp only [Questionnaire.apply, navigate, Questionnaire.item, hi, hn, Bool.false_eq_true, if_false]
      exact .unreachable hlt
    | true =>
      obtain ⟨s, hs⟩ := session_of_lt (h.length_eq.symm ▸ hlt)
      have hok := transition_ok (q := { q with current := target }) hi hs
      simp only [Questionnaire.apply, navigate, Questionnaire.item, hi, hn, if_true, hok]
      exact .visited _ hlt

theorem Sound.replies_advance (h : q.Sound) : Replies q .advance (q.apply .advance) := by
  have hstuck : ∀ error, q.apply .advance = ⟨.error error, q, []⟩ → Replies q .advance (q.apply .advance) := by
    intro error he
    have hwhy : AdvanceRefusal q error := (h.advance_gated.refused error).1 (by rw [he])
    rw [he]
    exact .stuck hwhy
  cases hs : q.sessions[q.current]? with
  | none =>
    have he : q.apply .advance = ⟨.error (.unknownItem q.current q.sessions.length), q, []⟩ := by
      simp only [Questionnaire.apply, advance, Questionnaire.session, hs]
    exact hstuck _ he
  | some s =>
    cases hv : s.verdict? with
    | none =>
      have he : q.apply .advance = ⟨.error (.notResolved q.current), q, []⟩ := by
        simp [Questionnaire.apply, advance, Questionnaire.session, hs, hv]
      exact hstuck _ he
    | some v =>
      by_cases hle : q.sessions.length ≤ q.current + 1
      · have he : q.apply .advance = ⟨.error (.endOfCatalog q.current), q, []⟩ := by
          simp [Questionnaire.apply, advance, Questionnaire.session, hs, hv, hle]
        exact hstuck _ he
      · obtain ⟨t, notices, ha⟩ := (Effect.next hs hv (Nat.lt_of_not_le hle)).apply h.length_eq
        have hn : (q.apply .advance).notices = [.advanced q.current (q.current + 1)] := by
          simp [Questionnaire.apply, advance, Questionnaire.session, hs, hv, hle]
        have hcan : q.CanAdvance := h.advance_gated.accepted.1 ⟨t, by rw [ha]⟩
        rw [ha] at hn ⊢
        cases hn
        exact .advanced t hcan

/-- Every reply to an event is one of these. -/
theorem Sound.replies (h : q.Sound) (e : Event) : Replies q e (q.apply e) := by
  rcases event_cases e with ⟨i, f, rfl⟩ | ⟨target, rfl⟩ | rfl
  · exact h.replies_ofSession i f
  · exact h.replies_navigate target
  · exact h.replies_advance

end Questionnaire

end Appraisal
