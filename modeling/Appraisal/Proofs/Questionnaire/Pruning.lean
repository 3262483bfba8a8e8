import Appraisal.Proofs.Questionnaire.Records
import Appraisal.Proofs.Session.Pruning
/-!
# Questionnaires over pruned catalogs

Two questionnaires, one over a catalog and one over its pruned copy, go through the same states event by event. They
refuse the same events for the same reasons, and whatever they reply and report is the same.
-/

namespace Appraisal

/-- The same questionnaire over the pruned catalog. -/
def Questionnaire.pruned (q : Questionnaire) : Questionnaire :=
  { q with catalog := q.catalog.pruned }

/-- The same reply from a questionnaire over the pruned catalog. -/
def Reply.pruned (r : Reply) : Reply :=
  { r with next := r.next.pruned }

namespace Questionnaire

theorem new_pruned (c : Catalog) : new c.pruned = (new c).pruned := by
  simp [new, pruned, Catalog.pruned]

theorem items_pruned (q : Questionnaire) (i : Nat) :
    q.pruned.catalog.items[i]? = (q.catalog.items[i]?).map Item.pruned := by
  simp [pruned, Catalog.pruned]

theorem item_pruned (q : Questionnaire) (i : Nat) : q.pruned.item i = (q.item i).map Item.pruned := by
  have hlen : q.pruned.catalog.items.length = q.catalog.items.length := by simp [pruned, Catalog.pruned]
  unfold item
  rw [items_pruned, hlen]
  cases q.catalog.items[i]? <;> rfl

/-! ## Reports -/

/-- Rows name the items, and do not look into their branches. -/
theorem results_pruned (q : Questionnaire) : q.pruned.results = q.results := by
  have hsessions : q.pruned.sessions = q.sessions := rfl
  have hitems : q.pruned.catalog.items = q.catalog.items.map Item.pruned := rfl
  simp only [results, hsessions, hitems, List.zip_map_left, List.zipIdx_map, List.map_map]
  rfl

theorem completion_pruned (q : Questionnaire) : q.pruned.completion = q.completion := by
  unfold completion
  rw [results_pruned]
  rfl

theorem Sound.transition_pruned {q : Questionnaire} (h : q.Sound) (i : Nat) :
    q.pruned.transition i = q.transition i := by
  cases hi : q.catalog.items[i]? with
  | none =>
    have hitem : q.item i = .error (.unknownItem i q.catalog.items.length) := by simp only [item, hi]
    simp only [transition, item_pruned, hitem]
    rfl
  | some item =>
    have hi' : q.pruned.catalog.items[i]? = some item.pruned := by rw [items_pruned, hi, Option.map_some]
    obtain ⟨s, hs, hagrees, -⟩ := h.session hi
    rw [transition_ok hi hs, transition_ok (q := q.pruned) hi' hs, Session.prompt_pruned hagrees, completion_pruned]

/-! ## Events -/

theorem sync_pruned (q : Questionnaire) (i : Nat) : q.pruned.sync i = ((q.sync i).1.pruned, (q.sync i).2) := by
  have hsessions : q.pruned.sessions = q.sessions := rfl
  unfold sync
  rw [items_pruned, hsessions]
  cases q.sessions[i]? with
  | none => rfl
  | some s =>
    cases q.catalog.items[i]? with
    | none => rfl
    | some item =>
      have hrecord : recordOf i item.pruned s = recordOf i item s := rfl
      simp only [Option.map_some, hrecord]
      cases recordOf i item s <;> rfl

/-- The current session takes an answer as it would over the catalog with all its chains. -/
theorem Sound.onCurrent_pruned {q : Questionnaire} (h : q.Sound) (i : Nat) (e : SessionEvent) :
    q.pruned.onCurrent i (fun s item => s.take item e) = q.onCurrent i (fun s item => s.take item e) := by
  have hsessions : q.pruned.sessions = q.sessions := rfl
  have hcurrent : q.pruned.current = q.current := rfl
  unfold onCurrent
  rw [items_pruned, hsessions, hcurrent]
  cases hi : q.catalog.items[i]? with
  | none => rfl
  | some item =>
    cases hs : q.sessions[i]? with
    | none => rfl
    | some s => simp only [Option.map_some, Session.take_pruned (h.agrees hi hs)]

theorem Sound.answered_pruned {q : Questionnaire} (h : q.Sound) (i : Nat) (e : SessionEvent) :
    q.pruned.apply (.ofSession i e) = (q.apply (.ofSession i e)).pruned := by
  have hsound := h.after (.ofSession i e)
  unfold Questionnaire.after at hsound
  simp only [apply_ofSession, answered, h.onCurrent_pruned] at hsound ⊢
  cases ho : q.onCurrent i (fun s item => s.take item e) with
  | error error => rfl
  | ok step =>
    have hput : ({ q.pruned with sessions := q.pruned.sessions.set i step.session } : Questionnaire) =
        ({ q with sessions := q.sessions.set i step.session } : Questionnaire).pruned := rfl
    simp only [ho] at hsound
    simp only [hput, sync_pruned, hsound.transition_pruned, Reply.pruned]

theorem Sound.navigate_pruned {q : Questionnaire} (h : q.Sound) (target : Nat) :
    q.pruned.navigate target = (q.navigate target).pruned := by
  have hnav : q.pruned.canNavigate target = q.canNavigate target := rfl
  unfold navigate
  rw [item_pruned, hnav]
  cases q.item target with
  | error error => rfl
  | ok item =>
    by_cases hn : q.canNavigate target = true
    · have hlt : target < q.sessions.length := by
        simp only [canNavigate, Bool.and_eq_true, decide_eq_true_eq] at hn
        exact hn.1
      simp only [Except.map, hn, if_true]
      exact congrArg (fun r => (⟨r, _, _⟩ : Reply)) ((h.move hlt).transition_pruned target)
    · simp only [Except.map, if_neg hn]
      rfl

theorem Sound.advance_pruned {q : Questionnaire} (h : q.Sound) : q.pruned.advance = q.advance.pruned := by
  have hsession : q.pruned.session q.pruned.current = q.session q.current := rfl
  have hsessions : q.pruned.sessions = q.sessions := rfl
  have hcurrent : q.pruned.current = q.current := rfl
  unfold advance
  rw [hsession, hsessions, hcurrent]
  cases q.session q.current with
  | error error => rfl
  | ok s =>
    by_cases hv : s.verdict?.isNone = true
    · simp only [hv, if_true]
      rfl
    · by_cases hle : q.sessions.length ≤ q.current + 1
      · simp only [hv, hle, if_true]
        rfl
      · have htransition := (h.move (Nat.lt_of_not_le hle)).transition_pruned (q.current + 1)
        simp only [hv, hle, if_false]
        exact congrArg (fun r => (⟨r, _, _⟩ : Reply)) htransition

/-- A questionnaire over a pruned catalog gives the same reply to every event, and goes on over that catalog. -/
theorem Sound.apply_pruned {q : Questionnaire} (h : q.Sound) (e : Event) :
    q.pruned.apply e = (q.apply e).pruned := by
  rcases event_cases e with ⟨i, f, rfl⟩ | ⟨target, rfl⟩ | rfl
  · exact h.answered_pruned i f
  · exact h.navigate_pruned target
  · exact h.advance_pruned

theorem Sound.run_pruned (es : List Event) :
    ∀ {q : Questionnaire}, q.Sound → q.pruned.run es = (q.run es).pruned := by
  induction es with
  | nil => exact fun _ => rfl
  | cons e es ih =>
    intro q h
    have hafter : q.pruned.after e = (q.after e).pruned := congrArg Reply.next (h.apply_pruned e)
    exact (congrArg (Questionnaire.run · es) hafter).trans (ih (h.after e))

/-- Whatever events are sent to a questionnaire and to one over the pruned catalog, both accept the same events with the
same replies, refuse the same with the same errors, tell the same notices, and have the same results and the same
store. -/
theorem pruning_unobserved (c : Catalog) (es : List Event) :
    (∀ e, (((new c.pruned).run es).apply e).result = (((new c).run es).apply e).result ∧
      (((new c.pruned).run es).apply e).notices = (((new c).run es).apply e).notices) ∧
    ((new c.pruned).run es).results = ((new c).run es).results ∧
    ((new c.pruned).run es).store = ((new c).run es).store := by
  have h := (sound_new c).run es
  rw [new_pruned, (sound_new c).run_pruned]
  refine ⟨fun e => ?_, results_pruned _, rfl⟩
  rw [h.apply_pruned]
  exact ⟨rfl, rfl⟩

end Questionnaire

end Appraisal
