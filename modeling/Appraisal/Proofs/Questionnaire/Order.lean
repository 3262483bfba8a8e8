import Appraisal.Proofs.Questionnaire.Isolation
/-!
# Items are started in order

An item is started once it has a main answer, and it stays started, also when its verdict is taken back. The started
items come first in the catalog, and the current item is one of them or the one behind them (`StartedBelow`): only
started items have a verdict, so neither a visit nor an advance goes any further.
-/

namespace Appraisal

namespace Session
variable {item : Item} {index : Nat} {s : Session}

/-- The main question has been answered. -/
def Started (s : Session) : Prop :=
  ∃ a, s.trail.main = some a

theorem not_started_new (index : Nat) : ¬(new index).Started := by
  rintro ⟨a, ha⟩
  cases ha

/-- What a session takes first is a main answer. -/
theorem take_new {e : SessionEvent} {step : SessionStep} (h : (new index).take item e = .ok step) :
    ∃ a, e = .main a ∧ step.session.trail.main = some a := by
  cases e with
  | main a =>
    have hne : (new index).trail.main ≠ some a := fun hm => by cases hm
    rw [take, answerMain, if_neg hne] at h
    exact ⟨a, rfl, lands_main (.here _) (lands_iff.2 ⟨step, h, rfl⟩)⟩
  | sub depth k x => cases h
  | toggle k b => cases h

theorem Change.started {e : SessionEvent} {t : Session} (h : Change item s e t) (hs : s.Started) : t.Started := by
  cases h with
  | none => exact hs
  | restart _ ht => exact ⟨_, lands_main (.here _) ht⟩
  | entry _ hl _ _ _ ht => exact ⟨_, lands_main hl ht⟩
  | revision _ _ => exact hs

/-- Whatever a session has taken, it is started. -/
theorem take_started (hs : s.Agrees item index) {e : SessionEvent} {step : SessionStep}
    (h : s.take item e = .ok step) : step.session.Started := by
  cases hs with
  | unstarted =>
    obtain ⟨a, -, ha⟩ := take_new h
    exact ⟨a, ha⟩
  | started hl hf => exact (take_change (.started hl hf) h).started ⟨_, rfl⟩

/-- A session that is started has taken a main answer. -/
theorem play_started {es : List SessionEvent} (h : (new index).play item es = .ok s) (hs : s.Started) :
    ∃ a, .main a ∈ es := by
  cases es with
  | nil =>
    cases h
    exact absurd hs (not_started_new index)
  | cons e es =>
    cases ht : (new index).take item e with
    | error error => simp [play, ht] at h
    | ok step =>
      obtain ⟨a, rfl, -⟩ := take_new ht
      exact ⟨a, List.mem_cons_self⟩

end Session

namespace Questionnaire
variable {q q' : Questionnaire}

/-- Only the current item has its answers accepted. -/
theorem accepted_current {i : Nat} {f : SessionEvent} {t : Transition}
    (h : (q.apply (.ofSession i f)).result = .ok t) : i = q.current := by
  rw [apply_ofSession, answered] at h
  cases ho : q.onCurrent i (fun s item => s.take item f) with
  | error error =>
    rw [ho] at h
    cases h
  | ok step => exact (onCurrent_ok.1 ho).1

/-- The started items are those before item `m`, and the current item is not behind it. -/
structure StartedBelow (q : Questionnaire) (m : Nat) : Prop where
  le_length : m ≤ q.sessions.length
  started_iff : ∀ {i : Nat} {s : Session}, q.session? i = some s → (s.Started ↔ i < m)
  current_le : q.current ≤ m

theorem startedBelow_new (c : Catalog) : (new c).StartedBelow 0 where
  le_length := Nat.zero_le _
  started_iff := by
    intro i s hs
    simp only [session?, new, List.getElem?_map, Option.map_eq_some_iff] at hs
    obtain ⟨j, -, rfl⟩ := hs
    exact iff_of_false (Session.not_started_new j) (Nat.not_lt_zero i)
  current_le := Nat.le_refl 0

namespace StartedBelow
variable {m : Nat}

/-- An item with a verdict is started. -/
theorem decided_lt (hm : q.StartedBelow m) (h : q.Sound) {i : Nat} {s : Session} {v : Verdict}
    (hs : q.session? i = some s) (hv : s.verdict? = some v) : i < m := by
  obtain ⟨item, hi⟩ := item_of_lt (h.length_eq ▸ (List.getElem?_eq_some_iff.1 hs).1)
  exact (hm.started_iff hs).1 (main_of_verdict (h.agrees hi hs) hv)

/-- An item with a record is started. -/
theorem stored_lt (hm : q.StartedBelow m) (h : q.Sound) {i : Nat} (hi : q.store.contains i = true) : i < m := by
  obtain ⟨-, s, v, hs, hv⟩ := h.contains_iff.1 hi
  exact hm.decided_lt h hs hv

/-- The items before one that can be answered are started. -/
theorem started_before (hm : q.StartedBelow m) {i j : Nat} (hj : j < i) (hi : i ≤ q.current) :
    ∃ s, q.session? j = some s ∧ s.Started := by
  have hjm : j < m := Nat.lt_of_lt_of_le (Nat.lt_of_lt_of_le hj hi) hm.current_le
  obtain ⟨s, hs⟩ := session_of_lt (Nat.lt_of_lt_of_le hjm hm.le_length)
  exact ⟨s, hs, (hm.started_iff hs).2 hjm⟩

/-- One event starts at most one item, the first that has not been started. -/
theorem step (hm : q.StartedBelow m) (h : q.Sound) {e : Event} (he : Effect q e q') :
    q'.StartedBelow m ∨ q'.StartedBelow (m + 1) := by
  cases he with
  | @answer item s f step hi hs ht =>
    have hlt : q.current < q.sessions.length := (List.getElem?_eq_some_iff.1 hs).1
    have hstarted := Session.take_started (h.agrees hi hs) ht
    -- The answer goes to a started item, or to item `m`, which it starts.
    have hput : ∀ m', q.current < m' → (∀ j ≠ q.current, j < m ↔ j < m') → m' ≤ q.sessions.length →
        (q.putSession q.current step.session).StartedBelow m' := by
      intro m' hcur hsame hle
      refine ⟨by simpa using hle, fun {j t} hj => ?_, by simpa using Nat.le_of_lt hcur⟩
      by_cases hjc : j = q.current
      · subst hjc
        rw [session?_putSession hs, Option.some.injEq] at hj
        exact iff_of_true (hj ▸ hstarted) hcur
      · rw [session?_putSession_ne q (Ne.symm hjc)] at hj
        rw [hm.started_iff hj, hsame j hjc]
    have hle := hm.current_le
    rcases Nat.lt_or_eq_of_le hle with hcur | rfl
    · exact .inl (hput m hcur (fun _ _ => Iff.rfl) hm.le_length)
    · exact .inr (hput (q.current + 1) (Nat.lt_succ_self _) (fun j hj => by omega) hlt)
  | @visit target hlt hc =>
    refine .inl ⟨hm.le_length, hm.started_iff, ?_⟩
    rcases hc with rfl | hc
    · exact hm.current_le
    · exact Nat.le_of_lt (hm.stored_lt h hc)
  | next hs hv _ => exact .inl ⟨hm.le_length, hm.started_iff, hm.decided_lt h hs hv⟩

end StartedBelow

theorem run_startedBelow (c : Catalog) (es : List Event) : ∃ m, ((new c).run es).StartedBelow m := by
  have hrun : ((new c).run es).Sound ∧ ∃ m, ((new c).run es).StartedBelow m := by
    refine run_induction (P := fun r => r.Sound ∧ ∃ m, r.StartedBelow m) (fun r e hr => ?_)
      ⟨sound_new c, 0, startedBelow_new c⟩ es
    obtain ⟨hsound, m, hm⟩ := hr
    refine ⟨hsound.after e, ?_⟩
    refine after_induction (P := fun r' => ∃ m, r'.StartedBelow m) hsound.length_eq ⟨m, hm⟩ fun r' he => ?_
    rcases hm.step hsound he with hm | hm
    · exact ⟨m, hm⟩
    · exact ⟨m + 1, hm⟩
  exact hrun.2

/-- After the events `es`, the first `m` items of `c` are started and no others: they are those that have been given a
main answer. Only they have records. The current item is one of them, or the first one that is not. -/
structure InOrder (c : Catalog) (es : List Event) (m : Nat) : Prop where
  le_length : m ≤ c.items.length
  started_iff : ∀ i < c.items.length, ∃ s, ((new c).run es).session? i = some s ∧ (s.Started ↔ i < m)
  answered : ∀ i < m, ∃ a, .main a ∈ (new c).answersTo i es
  stored_lt : ∀ i, ((new c).run es).store.contains i = true → i < m
  current_le : ((new c).run es).current ≤ m
  current_lt : c.items ≠ [] → ((new c).run es).current < c.items.length
  /-- An item takes an answer only when every item before it is started. -/
  reached : ∀ i f t, (((new c).run es).apply (.ofSession i f)).result = .ok t →
    ∀ j < i, ∃ s, ((new c).run es).session? j = some s ∧ s.Started

/-- Whatever events a questionnaire is sent, its items are started in the order of the catalog, without gaps. -/
theorem items_start_in_order (c : Catalog) (es : List Event) : ∃ m, InOrder c es m := by
  have h := (sound_new c).run es
  have hc : ((new c).run es).catalog = c := (sound_new c).run_catalog es
  have hlen : ((new c).run es).sessions.length = c.items.length := by rw [h.length_eq, hc]
  obtain ⟨m, hm⟩ := run_startedBelow c es
  have hle : m ≤ c.items.length := hlen ▸ hm.le_length
  refine ⟨m, hle, fun i hi => ?_, fun i hi => ?_, fun i hi => hm.stored_lt h hi, hm.current_le, fun hne => ?_,
    fun i f t ht j hj => ?_⟩
  · obtain ⟨s, hs⟩ := session_of_lt (hlen.symm ▸ hi)
    exact ⟨s, hs, hm.started_iff hs⟩
  · -- Item `i` is started, so the answers that its session has taken hold a main answer.
    obtain ⟨item, hitem⟩ : ∃ item, c.items[i]? = some item :=
      ⟨_, List.getElem?_eq_getElem (Nat.lt_of_lt_of_le hi hle)⟩
    obtain ⟨s, hs, hplay⟩ := session_of_answers hitem es
    exact Session.play_started hplay ((hm.started_iff hs).2 hi)
  · rw [← hlen]
    refine h.current_lt ?_
    rwa [← List.length_pos_iff_ne_nil, hlen, List.length_pos_iff_ne_nil]
  · exact hm.started_before hj (Nat.le_of_eq (accepted_current ht))

end Questionnaire

end Appraisal
