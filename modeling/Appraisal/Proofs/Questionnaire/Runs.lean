import Appraisal.Questionnaire
import Appraisal.Proofs.Session.Runs
/-!
# Runs of a questionnaire

`run` feeds a questionnaire any events; a refused one leaves it as it is. `Effect` sums up the accepted ones:
the current item takes an answer, an item is visited, or the next one is. `Refusal` sums up why an event is
refused. `apply_cases` and `Effect.apply` say that these are all, so no other theorem looks at `apply` again.
-/

namespace Appraisal

/-- The event that carries a session's event to its item. -/
def Event.ofSession (item : Nat) : SessionEvent → Event
  | .main a => .main item a
  | .sub depth index a => .sub item depth index a
  | .toggle index included => .toggle item index included

namespace Questionnaire

def after (q : Questionnaire) (e : Event) : Questionnaire :=
  (q.apply e).next

def run (q : Questionnaire) (es : List Event) : Questionnaire :=
  es.foldl after q

/-- The events are accepted, each in its turn. -/
def Accepts (q : Questionnaire) : List Event → Prop
  | [] => True
  | e :: es => (∃ t, (q.apply e).result = .ok t) ∧ (q.after e).Accepts es

theorem run_append (q : Questionnaire) (es fs : List Event) : q.run (es ++ fs) = (q.run es).run fs :=
  List.foldl_append

theorem accepts_append {q : Questionnaire} {es fs : List Event} (h : q.Accepts es) (h' : (q.run es).Accepts fs) :
    q.Accepts (es ++ fs) := by
  induction es generalizing q with
  | nil => exact h'
  | cons e es ih => exact ⟨h.1, ih h.2 h'⟩

theorem run_induction {P : Questionnaire → Prop} (hP : ∀ q e, P q → P (q.after e)) {q : Questionnaire}
    (hq : P q) (es : List Event) : P (q.run es) := by
  induction es generalizing q with
  | nil => exact hq
  | cons e es ih => exact ih (hP q e hq)

/-! ## What an event does -/

/-- Puts a session in the place of item `index` and brings the store in line with it. -/
def putSession (q : Questionnaire) (index : Nat) (s : Session) : Questionnaire :=
  ({ q with sessions := q.sessions.set index s }.sync index).1

/-- What an accepted event does. -/
inductive Effect (q : Questionnaire) : Event → Questionnaire → Prop
  | answer {item : Item} {s : Session} {e : SessionEvent} {step : SessionStep} :
      q.catalog.items[q.current]? = some item → q.sessions[q.current]? = some s → s.take item e = .ok step →
      Effect q (.ofSession q.current e) (q.putSession q.current step.session)
  | visit {target : Nat} :
      target < q.sessions.length → (target = q.current ∨ q.store.contains target = true) →
      Effect q (.navigate target) { q with current := target }
  | next {s : Session} {v : Verdict} :
      q.sessions[q.current]? = some s → s.verdict? = some v → q.current + 1 < q.sessions.length →
      Effect q .advance { q with current := q.current + 1 }

/-- Why an event is refused: it comes at the wrong time or to the wrong place, or the session of the current item
does not take it. -/
inductive Refusal (q : Questionnaire) : Event → SessionError → Prop
  | misplaced {e : Event} {error : SessionError} : error.isSequenceViolation = true → Refusal q e error
  | answer {item : Item} {s : Session} {e : SessionEvent} {error : SessionError} :
      q.catalog.items[q.current]? = some item → q.sessions[q.current]? = some s → s.take item e = .error error →
      Refusal q (.ofSession q.current e) error

/-- Bringing a record in line with its session changes nothing but the store. -/
theorem sync_store (q : Questionnaire) (i : Nat) : ∃ store, (q.sync i).1 = { q with store := store } := by
  unfold sync
  split
  · split
    · exact ⟨_, rfl⟩
    · exact ⟨_, rfl⟩
  · exact ⟨q.store, rfl⟩

theorem putSession_store (q : Questionnaire) (i : Nat) (s : Session) :
    ∃ store, q.putSession i s = { q with sessions := q.sessions.set i s, store := store } :=
  sync_store _ i

@[simp] theorem putSession_catalog (q : Questionnaire) (i : Nat) (s : Session) :
    (q.putSession i s).catalog = q.catalog := by
  obtain ⟨store, h⟩ := q.putSession_store i s
  rw [h]

@[simp] theorem putSession_sessions (q : Questionnaire) (i : Nat) (s : Session) :
    (q.putSession i s).sessions = q.sessions.set i s := by
  obtain ⟨store, h⟩ := q.putSession_store i s
  rw [h]

@[simp] theorem putSession_current (q : Questionnaire) (i : Nat) (s : Session) :
    (q.putSession i s).current = q.current := by
  obtain ⟨store, h⟩ := q.putSession_store i s
  rw [h]

theorem session?_putSession {q : Questionnaire} {i : Nat} {s : Session} (hs : q.session? i = some s)
    (s' : Session) : (q.putSession i s').session? i = some s' := by
  have hlt := (List.getElem?_eq_some_iff.1 hs).1
  simp [session?, hlt]

theorem session?_putSession_ne (q : Questionnaire) {i j : Nat} (hij : i ≠ j) (s : Session) :
    (q.putSession i s).session? j = q.session? j := by
  simp [session?, hij]

theorem transition_ok {q : Questionnaire} {i : Nat} {item : Item} {s : Session}
    (hi : q.catalog.items[i]? = some item) (hs : q.sessions[i]? = some s) :
    q.transition i = .ok ⟨i, s.standing, s.prompt item, q.completion⟩ := by
  simp [transition, Questionnaire.item, session, hi, hs, bind, Except.bind, pure, Except.pure]

theorem item_of_lt {q : Questionnaire} {i : Nat} (h : i < q.catalog.items.length) :
    ∃ item, q.catalog.items[i]? = some item :=
  ⟨_, List.getElem?_eq_getElem h⟩

theorem session_of_lt {q : Questionnaire} {i : Nat} (h : i < q.sessions.length) :
    ∃ s, q.sessions[i]? = some s :=
  ⟨_, List.getElem?_eq_getElem h⟩

/-- The name under which a refused event is told. -/
def eventName : SessionEvent → String
  | .main _ => "main"
  | .sub _ _ _ => "sub"
  | .toggle _ _ => "toggle"

theorem apply_ofSession (q : Questionnaire) (i : Nat) (e : SessionEvent) :
    q.apply (.ofSession i e) = q.answered i (eventName e) fun s item => s.take item e := by
  cases e <;> rfl

/-- An event is an answer for some item, a visit or an advance. -/
theorem event_cases (e : Event) :
    (∃ i f, e = .ofSession i f) ∨ (∃ target, e = .navigate target) ∨ e = .advance := by
  cases e with
  | main i a => exact .inl ⟨i, .main a, rfl⟩
  | sub i depth k a => exact .inl ⟨i, .sub depth k a, rfl⟩
  | toggle i k b => exact .inl ⟨i, .toggle k b, rfl⟩
  | navigate target => exact .inr (.inl ⟨target, rfl⟩)
  | advance => exact .inr (.inr rfl)

/-- Every effect is accepted, and the reply is where the item that is current then stands. -/
theorem Effect.reply {q q' : Questionnaire} {e : Event} (hlen : q.sessions.length = q.catalog.items.length)
    (h : Effect q e q') :
    ∃ t notices, q.apply e = ⟨.ok t, q', notices⟩ ∧ q'.transition q'.current = .ok t := by
  cases h with
  | @answer item s f step hi hs ht =>
    have hlt : q.current < q.sessions.length := (List.getElem?_eq_some_iff.1 hs).1
    have hok : (q.putSession q.current step.session).transition q.current = .ok _ :=
      transition_ok (by simpa using hi) (s := step.session) (by simp [hlt])
    rw [apply_ofSession, answered, putSession_current]
    simp only [onCurrent, hi, hs, if_true, ht]
    exact ⟨_, _, congrArg (fun r => (⟨r, q.putSession q.current step.session, _⟩ : Reply)) hok, hok⟩
  | @visit target hlt hc =>
    obtain ⟨item, hi⟩ := item_of_lt (hlen ▸ hlt)
    obtain ⟨s, hs⟩ := session_of_lt hlt
    have hn : q.canNavigate target = true := by
      simpa only [canNavigate, Bool.and_eq_true, decide_eq_true_eq, Bool.or_eq_true] using ⟨hlt, hc⟩
    have hok := transition_ok (q := { q with current := target }) hi hs
    simp only [Questionnaire.apply, navigate, Questionnaire.item, hi, hn, if_true, hok]
    exact ⟨_, _, rfl, rfl⟩
  | @next s v hs hv hlt =>
    obtain ⟨item, hi⟩ := item_of_lt (hlen ▸ hlt)
    obtain ⟨s', hs'⟩ := session_of_lt hlt
    have hle : ¬ q.sessions.length ≤ q.current + 1 := Nat.not_le_of_lt hlt
    have hok := transition_ok (q := { q with current := q.current + 1 }) hi hs'
    simp only [Questionnaire.apply, advance, session, hs, hv, Option.isNone_some, Bool.false_eq_true, if_false,
      hle, hok]
    exact ⟨_, _, rfl, rfl⟩

theorem Effect.apply {q q' : Questionnaire} {e : Event} (hlen : q.sessions.length = q.catalog.items.length)
    (h : Effect q e q') : ∃ t notices, q.apply e = ⟨.ok t, q', notices⟩ := by
  obtain ⟨t, notices, ha, -⟩ := h.reply hlen
  exact ⟨t, notices, ha⟩

/-- Only the current item takes an answer, and its session has the word. -/
theorem onCurrent_ok {q : Questionnaire} {i : Nat} {e : SessionEvent} {step : SessionStep} :
    q.onCurrent i (fun s item => s.take item e) = .ok step ↔
      i = q.current ∧ ∃ item s, q.catalog.items[i]? = some item ∧ q.sessions[i]? = some s ∧
        s.take item e = .ok step := by
  unfold onCurrent
  cases hi : q.catalog.items[i]? with
  | none => simp
  | some item =>
    cases hs : q.sessions[i]? with
    | none => simp
    | some s => by_cases hc : i = q.current <;> simp [hc]

theorem onCurrent_error {q : Questionnaire} {i : Nat} {e : SessionEvent} {error : SessionError}
    (h : q.onCurrent i (fun s item => s.take item e) = .error error) : Refusal q (.ofSession i e) error := by
  unfold onCurrent at h
  cases hi : q.catalog.items[i]? with
  | none =>
    simp only [hi] at h
    cases h
    exact .misplaced rfl
  | some item =>
    cases hs : q.sessions[i]? with
    | none =>
      simp only [hi, hs] at h
      cases h
      exact .misplaced rfl
    | some s =>
      by_cases hc : i = q.current
      · subst hc
        simp only [hi, hs, if_true] at h
        exact .answer hi hs h
      · simp only [hi, hs, if_neg hc] at h
        cases h
        exact .misplaced rfl

theorem answered_cases {q : Questionnaire} (i : Nat) (e : SessionEvent) :
    (∃ error notices, q.apply (.ofSession i e) = ⟨.error error, q, notices⟩ ∧ Refusal q (.ofSession i e) error) ∨
    ∃ q', Effect q (.ofSession i e) q' := by
  rw [apply_ofSession, answered]
  cases ho : q.onCurrent i (fun s item => s.take item e) with
  | error error => exact .inl ⟨_, _, rfl, onCurrent_error ho⟩
  | ok step =>
    obtain ⟨rfl, item, s, hi, hs, ht⟩ := onCurrent_ok.1 ho
    exact .inr ⟨_, .answer hi hs ht⟩

theorem navigate_cases {q : Questionnaire} (target : Nat) :
    (∃ error notices, q.apply (.navigate target) = ⟨.error error, q, notices⟩ ∧
      Refusal q (.navigate target) error) ∨
    ∃ q', Effect q (.navigate target) q' := by
  simp only [Questionnaire.apply, navigate, Questionnaire.item]
  cases hi : q.catalog.items[target]? with
  | none => exact .inl ⟨_, _, rfl, .misplaced rfl⟩
  | some item =>
    by_cases hn : q.canNavigate target = true
    · have hc := hn
      simp only [canNavigate, Bool.and_eq_true, decide_eq_true_eq, Bool.or_eq_true] at hc
      exact .inr ⟨_, .visit hc.1 hc.2⟩
    · simp only [hn]
      exact .inl ⟨_, _, rfl, .misplaced rfl⟩

theorem advance_cases {q : Questionnaire} :
    (∃ error notices, q.apply .advance = ⟨.error error, q, notices⟩ ∧ Refusal q .advance error) ∨
    ∃ q', Effect q .advance q' := by
  simp only [Questionnaire.apply, advance, session]
  cases hs : q.sessions[q.current]? with
  | none => exact .inl ⟨_, _, rfl, .misplaced rfl⟩
  | some s =>
    cases hv : s.verdict? with
    | none =>
      simp only [hv, Option.isNone_none, if_true]
      exact .inl ⟨_, _, rfl, .misplaced rfl⟩
    | some v =>
      by_cases hle : q.sessions.length ≤ q.current + 1
      · simp only [hv, Option.isNone_some, Bool.false_eq_true, if_false, hle, if_true]
        exact .inl ⟨_, _, rfl, .misplaced rfl⟩
      · exact .inr ⟨_, .next hs hv (Nat.lt_of_not_le hle)⟩

/-- An event is refused, for a reason, and changes nothing, or it is accepted and has its effect. -/
theorem apply_cases {q : Questionnaire} (hlen : q.sessions.length = q.catalog.items.length) (e : Event) :
    (∃ error notices, q.apply e = ⟨.error error, q, notices⟩ ∧ Refusal q e error) ∨
    (∃ t notices q', q.apply e = ⟨.ok t, q', notices⟩ ∧ Effect q e q') := by
  have heff : (∃ error notices, q.apply e = ⟨.error error, q, notices⟩ ∧ Refusal q e error) ∨
      ∃ q', Effect q e q' := by
    rcases event_cases e with ⟨i, f, rfl⟩ | ⟨target, rfl⟩ | rfl
    · exact answered_cases i f
    · exact navigate_cases target
    · exact advance_cases
  rcases heff with h | ⟨q', h⟩
  · exact .inl h
  · obtain ⟨t, notices, ha⟩ := h.apply hlen
    exact .inr ⟨t, notices, q', ha, h⟩

/-- What every effect keeps, every event keeps. -/
theorem after_induction {P : Questionnaire → Prop} {q : Questionnaire} {e : Event}
    (hlen : q.sessions.length = q.catalog.items.length) (hq : P q) (hP : ∀ q', Effect q e q' → P q') :
    P (q.after e) := by
  unfold after
  rcases apply_cases hlen e with ⟨error, notices, ha, -⟩ | ⟨t, notices, q', ha, h⟩
  · rw [ha]
    exact hq
  · rw [ha]
    exact hP q' h

/-- An effect is what an accepted event leaves behind. -/
theorem Effect.after {q q' : Questionnaire} {e : Event} (hlen : q.sessions.length = q.catalog.items.length)
    (h : Effect q e q') : (∃ t, (q.apply e).result = .ok t) ∧ q.after e = q' := by
  obtain ⟨t, notices, ha⟩ := h.apply hlen
  exact ⟨⟨t, by rw [ha]⟩, by rw [Questionnaire.after, ha]⟩

end Questionnaire

end Appraisal
