import Appraisal.Proofs.Questionnaire.Refusals
import Appraisal.Script.Replay
/-!
# Replays

A replay of accepted events is a run of them (`replayFrom_accepted`). Any other replay is a run of the events before
the one that is refused, and that one is told (`accepts_or_refused`, `replayFrom_refused`). So a replay applies the
longest part at the front of a script that is accepted, and scripts can be replayed one behind the other
(`replay_append`).
-/

namespace Appraisal

/-- The result of going on from a replay, where the second part by itself has the given result. -/
def Replayed.followedBy (r : Replayed) : Except Rejection Replayed → Except Rejection Replayed
  | .ok s => .ok ⟨r.applied + s.applied, s.last.or r.last⟩
  | .error e => .error { e with step := r.applied + e.step }

namespace Questionnaire

/-- Accepted events are applied to the last one. -/
theorem replayFrom_accepted {es : List Event} :
    ∀ {q : Questionnaire} (n : Nat) (last : Option Transition), q.Accepts es →
      (∃ t, (q.replayFrom n last es).result = .ok ⟨n + es.length, t⟩) ∧
        (q.replayFrom n last es).questionnaire = q.run es := by
  induction es with
  | nil => exact fun n last _ => ⟨⟨last, rfl⟩, rfl⟩
  | cons e es ih =>
    rintro q n last ⟨⟨t, ht⟩, hes⟩
    obtain ⟨⟨t', hresult⟩, hnext⟩ := ih (n + 1) (some t) hes
    have hlength : n + (e :: es).length = n + 1 + es.length := by rw [List.length_cons]; omega
    simp only [replayFrom, ht, hlength]
    exact ⟨⟨t', hresult⟩, hnext⟩

theorem replay_accepted {q : Questionnaire} {es : List Event} (h : q.Accepts es) :
    (∃ t, (q.replay es).result = .ok ⟨es.length, t⟩) ∧ (q.replay es).questionnaire = q.run es := by
  have hreplay := replayFrom_accepted 0 none h
  rwa [Nat.zero_add] at hreplay

/-- The event `e` is refused once the events before it have been accepted. -/
structure Refuses (q : Questionnaire) (before : List Event) (e : Event) (cause : SessionError) : Prop where
  accepted : q.Accepts before
  refused : ((q.run before).apply e).result = .error cause

theorem accepts_or_refused (q : Questionnaire) (es : List Event) :
    q.Accepts es ∨ ∃ before e after cause, es = before ++ e :: after ∧ q.Refuses before e cause := by
  induction es generalizing q with
  | nil => exact .inl trivial
  | cons e es ih =>
    cases hr : (q.apply e).result with
    | error cause => exact .inr ⟨[], e, es, cause, rfl, trivial, hr⟩
    | ok t =>
      rcases ih (q.after e) with h | ⟨before, f, after, cause, rfl, h⟩
      · exact .inl ⟨⟨t, hr⟩, h⟩
      · exact .inr ⟨e :: before, f, after, cause, rfl, ⟨⟨t, hr⟩, h.accepted⟩, h.refused⟩

/-- The replay stops at the refused event and leaves the rest alone. -/
theorem replayFrom_refused {before : List Event} {e : Event} {cause : SessionError} (after : List Event) :
    ∀ {q : Questionnaire} (n : Nat) (last : Option Transition), q.Refuses before e cause →
      (q.replayFrom n last (before ++ e :: after)).result = .error ⟨n + before.length + 1, e, cause⟩ ∧
        (q.replayFrom n last (before ++ e :: after)).questionnaire = (q.run before).after e := by
  induction before with
  | nil =>
    rintro q n last ⟨-, hr⟩
    have hr' : (q.apply e).result = .error cause := hr
    simp only [List.nil_append, replayFrom, hr']
    exact ⟨rfl, rfl⟩
  | cons f before ih =>
    rintro q n last ⟨⟨⟨t, ht⟩, hbefore⟩, hr⟩
    have hlength : n + (f :: before).length + 1 = n + 1 + before.length + 1 := by rw [List.length_cons]; omega
    simp only [List.cons_append, replayFrom, ht, hlength]
    exact ih (n + 1) (some t) ⟨hbefore, hr⟩

theorem replay_refused {q : Questionnaire} {before : List Event} {e : Event} {cause : SessionError}
    (h : q.Refuses before e cause) (after : List Event) :
    (q.replay (before ++ e :: after)).result = .error ⟨before.length + 1, e, cause⟩ ∧
      (q.replay (before ++ e :: after)).questionnaire = (q.run before).after e := by
  have hreplay := replayFrom_refused after 0 none h
  rwa [Nat.zero_add] at hreplay

/-- No run gets past a refused event. -/
theorem Refuses.not_accepts {q : Questionnaire} {before : List Event} {e : Event} {cause : SessionError}
    (h : q.Refuses before e cause) (after : List Event) : ¬q.Accepts (before ++ e :: after) := by
  intro haccepts
  obtain ⟨t, ht⟩ := (replay_accepted haccepts).1
  rw [(replay_refused h after).1] at ht
  cases ht

/-! ## One part behind the other -/

/-- Where a replay starts to count shifts its steps, and the reply to the last event is its own if there is one. -/
theorem replayFrom_eq (es : List Event) :
    ∀ (q : Questionnaire) (n : Nat) (last : Option Transition),
      (q.replayFrom n last es).result = Replayed.followedBy ⟨n, last⟩ (q.replay es).result ∧
        (q.replayFrom n last es).questionnaire = (q.replay es).questionnaire := by
  induction es with
  | nil =>
    intro q n last
    simp [replay, replayFrom, Replayed.followedBy]
  | cons e es ih =>
    intro q n last
    cases hr : (q.apply e).result with
    | error cause => simp [replay, replayFrom, hr, Replayed.followedBy]
    | ok t =>
      obtain ⟨hfrom, hfromNext⟩ := ih (q.apply e).next (n + 1) (some t)
      obtain ⟨hone, honeNext⟩ := ih (q.apply e).next (0 + 1) (some t)
      simp only [replay, replayFrom, hr]
      rw [hfrom, hfromNext, hone, honeNext]
      refine ⟨?_, rfl⟩
      cases ((q.apply e).next.replay es).result with
      | ok s =>
        cases hl : s.last <;> simp [Replayed.followedBy, hl] <;> omega
      | error rejection =>
        simp only [Replayed.followedBy, Except.error.injEq, Rejection.mk.injEq, and_true]
        omega

/-- Once a first part is accepted, the second part goes on from what it leaves. -/
theorem replayFrom_append (fs : List Event) {es : List Event} :
    ∀ {q : Questionnaire} (n : Nat) (last : Option Transition) {r : Replayed},
      (q.replayFrom n last es).result = .ok r →
        (q.replayFrom n last (es ++ fs)).result =
            ((q.replayFrom n last es).questionnaire.replayFrom r.applied r.last fs).result ∧
          (q.replayFrom n last (es ++ fs)).questionnaire =
            ((q.replayFrom n last es).questionnaire.replayFrom r.applied r.last fs).questionnaire := by
  induction es with
  | nil =>
    intro q n last r h
    cases h
    exact ⟨rfl, rfl⟩
  | cons e es ih =>
    intro q n last r h
    cases hr : (q.apply e).result with
    | error cause => simp [replayFrom, hr] at h
    | ok t =>
      simp only [replayFrom, hr] at h
      obtain ⟨hresult, hnext⟩ := ih (n + 1) (some t) h
      simp only [List.cons_append, replayFrom, hr]
      exact ⟨hresult, hnext⟩

theorem replay_append {q : Questionnaire} {es : List Event} {r : Replayed} (h : (q.replay es).result = .ok r)
    (fs : List Event) :
    (q.replay (es ++ fs)).result = r.followedBy ((q.replay es).questionnaire.replay fs).result ∧
      (q.replay (es ++ fs)).questionnaire = ((q.replay es).questionnaire.replay fs).questionnaire := by
  obtain ⟨hresult, hnext⟩ := replayFrom_append fs 0 none h
  obtain ⟨hshift, hshiftNext⟩ := replayFrom_eq fs (q.replay es).questionnaire r.applied r.last
  exact ⟨hresult.trans hshift, hnext.trans hshiftNext⟩

/-! ## The longest part that is accepted -/

theorem accepts_snoc {q : Questionnaire} {es : List Event} {e : Event} (h : q.Accepts (es ++ [e])) :
    q.Accepts es ∧ ∃ t, ((q.run es).apply e).result = .ok t := by
  induction es generalizing q with
  | nil => exact ⟨trivial, h.1⟩
  | cons f es ih =>
    obtain ⟨hes, ht⟩ := ih h.2
    exact ⟨⟨h.1, hes⟩, ht⟩

/-- A replay is accepted when each of its events is. -/
theorem replay_ok_iff {q : Questionnaire} {es : List Event} :
    (∃ r, (q.replay es).result = .ok r) ↔ q.Accepts es := by
  constructor
  · rintro ⟨r, hr⟩
    rcases q.accepts_or_refused es with h | ⟨before, e, after, cause, rfl, h⟩
    · exact h
    · rw [(replay_refused h after).1] at hr
      cases hr
  · intro h
    obtain ⟨t, ht⟩ := (replay_accepted h).1
    exact ⟨_, ht⟩

/-- A replay is refused when some event is, after those before it have been accepted. -/
theorem replay_error_iff {q : Questionnaire} {es : List Event} {r : Rejection} :
    (q.replay es).result = .error r ↔ ∃ before after, es = before ++ r.event :: after ∧ r.step = before.length + 1 ∧
      q.Refuses before r.event r.cause := by
  constructor
  · intro hr
    rcases q.accepts_or_refused es with h | ⟨before, e, after, cause, rfl, h⟩
    · obtain ⟨t, ht⟩ := (replay_accepted h).1
      rw [ht] at hr
      cases hr
    · rw [(replay_refused h after).1] at hr
      cases hr
      exact ⟨before, after, rfl, rfl, h⟩
  · rintro ⟨before, after, hes, hstep, h⟩
    rw [hes, (replay_refused h after).1, ← hstep]

/-- An accepted replay has applied all of its events. -/
theorem replay_complete {q : Questionnaire} {es : List Event} {r : Replayed} (h : (q.replay es).result = .ok r) :
    r.applied = es.length ∧ (q.replay es).questionnaire = q.run es := by
  obtain ⟨⟨t, ht⟩, hrun⟩ := replay_accepted (replay_ok_iff.1 ⟨r, h⟩)
  rw [ht] at h
  cases h
  exact ⟨rfl, hrun⟩

/-- The last reply of a replay is the one to its last event. -/
theorem replay_last {q : Questionnaire} {es : List Event} {e : Event} {r : Replayed}
    (h : (q.replay (es ++ [e])).result = .ok r) :
    ∃ t, ((q.run es).apply e).result = .ok t ∧ r.last = some t := by
  obtain ⟨hes, t, ht⟩ := accepts_snoc (replay_ok_iff.1 ⟨r, h⟩)
  obtain ⟨⟨s, hs⟩, hrun⟩ := replay_accepted hes
  rw [(replay_append hs [e]).1, hrun] at h
  simp only [replay, replayFrom, ht, Replayed.followedBy] at h
  cases h
  exact ⟨t, ht, rfl⟩

/-- A refused event leaves what the accepted events before it have made. -/
theorem Sound.replay_refused_eq {q : Questionnaire} (h : q.Sound) {before : List Event} {e : Event}
    {cause : SessionError} (hr : q.Refuses before e cause) (after : List Event) :
    (q.replay (before ++ e :: after)).questionnaire = q.run before := by
  rw [(replay_refused hr after).2, ((h.run before).refused hr.refused).1]

/-- A replay that is refused at a step leaves what the replay of the events before it leaves. -/
theorem Sound.replay_rejected {q : Questionnaire} (h : q.Sound) {es : List Event} {r : Rejection}
    (hr : (q.replay es).result = .error r) :
    (q.replay (es.take (r.step - 1))).result.isOk = true ∧
      (q.replay es).questionnaire = (q.replay (es.take (r.step - 1))).questionnaire := by
  obtain ⟨before, after, rfl, hstep, hrefuses⟩ := replay_error_iff.1 hr
  obtain ⟨⟨t, ht⟩, hrun⟩ := replay_accepted hrefuses.accepted
  have htake : (before ++ r.event :: after).take (r.step - 1) = before := by
    rw [hstep, Nat.add_sub_cancel]
    exact List.take_left
  rw [htake, ht, h.replay_refused_eq hrefuses after, hrun]
  exact ⟨rfl, rfl⟩

/-- `front` is the longest part at the front of `es` that is accepted. -/
def AcceptsFront (q : Questionnaire) (es front : List Event) : Prop :=
  (q.Accepts es ∧ front = es) ∨ ∃ e after cause, es = front ++ e :: after ∧ q.Refuses front e cause

theorem AcceptsFront.eq_of_accepts {q : Questionnaire} {es front : List Event} (h : q.AcceptsFront es front)
    (hes : q.Accepts es) : front = es := by
  rcases h with ⟨-, rfl⟩ | ⟨e, after, cause, rfl, hr⟩
  · rfl
  · exact absurd hes (hr.not_accepts after)

/-- A replay leaves what a run of the accepted events leaves. -/
theorem Sound.replay_front {q : Questionnaire} (h : q.Sound) {es front : List Event} (hf : q.AcceptsFront es front) :
    (q.replay es).questionnaire = q.run front := by
  rcases hf with ⟨hes, rfl⟩ | ⟨e, after, cause, rfl, hr⟩
  · exact (replay_accepted hes).2
  · exact h.replay_refused_eq hr after

theorem exists_acceptsFront (q : Questionnaire) (es : List Event) : ∃ front, q.AcceptsFront es front := by
  rcases q.accepts_or_refused es with hes | ⟨before, e, after, cause, rfl, hr⟩
  · exact ⟨es, .inl ⟨hes, rfl⟩⟩
  · exact ⟨before, .inr ⟨e, after, cause, rfl, hr⟩⟩

/-- A replay of `es` on `q` applies the longest part at the front of `es` that is accepted: all of it, or the events
before the one that is refused, and then that one leaves no trace. -/
structure AppliesFront (q : Questionnaire) (es : List Event) : Prop where
  accepted_iff : (∃ r, (q.replay es).result = .ok r) ↔ q.Accepts es
  accepted : ∀ r, (q.replay es).result = .ok r → r.applied = es.length ∧ (q.replay es).questionnaire = q.run es
  /-- The last reply is the one to the last event, if there is one. -/
  last_nil : ∀ r, es = [] → (q.replay es).result = .ok r → r.last = none
  last : ∀ r before e, es = before ++ [e] → (q.replay es).result = .ok r →
    ∃ t, ((q.run before).apply e).result = .ok t ∧ r.last = some t
  rejected_iff : ∀ r, (q.replay es).result = .error r ↔ ∃ before after, es = before ++ r.event :: after ∧
    r.step = before.length + 1 ∧ q.Refuses before r.event r.cause
  /-- Steps are counted from one, so `step - 1` events come before the refused one. -/
  rejected : ∀ r, (q.replay es).result = .error r →
    (q.replay (es.take (r.step - 1))).result.isOk = true ∧
      (q.replay es).questionnaire = (q.replay (es.take (r.step - 1))).questionnaire
  /-- What is replayed behind accepted events goes on from them, with its steps counted on. -/
  append : ∀ r fs, (q.replay es).result = .ok r →
    (q.replay (es ++ fs)).questionnaire = ((q.replay es).questionnaire.replay fs).questionnaire ∧
      (q.replay (es ++ fs)).result = r.followedBy ((q.replay es).questionnaire.replay fs).result

/-- Whatever has happened to a questionnaire, of whatever catalog, a replay applies as much as is accepted. -/
theorem replay_applies_front (c : Catalog) (history es : List Event) : AppliesFront ((new c).run history) es where
  accepted_iff := replay_ok_iff
  accepted _ hr := replay_complete hr
  last_nil := by
    rintro r rfl hr
    cases hr
    rfl
  last := by
    rintro r before e rfl hr
    exact replay_last hr
  rejected_iff _ := replay_error_iff
  rejected _ hr := ((sound_new c).run history).replay_rejected hr
  append _ fs hr := (replay_append hr fs).symm

end Questionnaire

end Appraisal
