import Appraisal.Proofs.Questionnaire.Records
import Appraisal.Proofs.Session.Repetition
/-!
# Repeating an event

Whatever a questionnaire has accepted, it accepts again, unless it is to move on to the next item. The second time
nothing changes, and the reply is the same: an answer is on record already, its session stands where it stands in the
store, and the item that was visited is the current one.
-/

namespace Appraisal.Questionnaire

/-- An accepted event has its effect again, and this time there is nothing left to change. -/
theorem Effect.again {q q' : Questionnaire} {e : Event} (h : q.Sound) (hadvance : e ≠ .advance)
    (he : Effect q e q') : Effect q' e q' := by
  have h' := he.sound h
  cases he with
  | @answer item s f step hi hs ht =>
    obtain ⟨notices, hagain⟩ := Session.take_again (h.agrees hi hs) ht
    have hcurrent := q.putSession_current q.current step.session
    have hi' : (q.putSession q.current step.session).catalog.items[q.current]? = some item := by
      rwa [putSession_catalog]
    have hs' : (q.putSession q.current step.session).session? q.current = some step.session :=
      session?_putSession hs _
    generalize q.putSession q.current step.session = q' at *
    rw [← hcurrent] at hi' hs' ⊢
    have heffect := Effect.answer hi' hs' hagain
    rwa [h'.putSession_self hi' hs'] at heffect
  | visit hlt _ => exact .visit hlt (.inl rfl)
  | next _ _ _ => exact absurd rfl hadvance

/-- Whatever event but an advance a questionnaire has accepted, applying it again is accepted with the same reply and
changes nothing. -/
theorem repeating_changes_nothing (c : Catalog) (es : List Event) {e : Event} (hadvance : e ≠ .advance) {t : Transition}
    (ht : (((new c).run es).apply e).result = .ok t) :
    ((((new c).run es).after e).apply e).result = .ok t ∧
      (((new c).run es).after e).after e = ((new c).run es).after e := by
  have h := (sound_new c).run es
  rcases apply_cases h.length_eq e with ⟨error, notices, ha, -⟩ | ⟨_, notices, q', ha, he⟩
  · rw [ha] at ht
    cases ht
  · have hafter : ((new c).run es).after e = q' := by rw [Questionnaire.after, ha]
    -- Both replies tell where the current item stands afterwards.
    obtain ⟨t₁, _, ha₁, ht₁⟩ := he.reply h.length_eq
    obtain ⟨t₂, _, ha₂, ht₂⟩ := (he.again h hadvance).reply (he.sound h).length_eq
    rw [ha₁] at ht
    cases ht
    cases ht₁.symm.trans ht₂
    rw [hafter]
    exact ⟨by rw [ha₂], by rw [Questionnaire.after, ha₂]⟩

/-- One question, and if it is denied nothing more is asked. -/
def shed : Catalog :=
  ⟨"shed", "1", none,
    [⟨"lock", "Is there a lock?", none, none, none,
      .chained [⟨"Does it hold?", .pass⟩] (.count .allYes) (.count .anyNo) (.last [] (.direct .fail)),
      .last [] (.direct .fail)⟩]⟩

/-- The reply when the lock is said not to hold. -/
def unlocked : Transition :=
  ⟨0, .decided .fail, .done .fail,
    some ⟨[⟨0, "lock", "Is there a lock?", .decided .fail, some .yes, [[.no]]⟩], ⟨1, 0, 1, 0⟩⟩⟩

/-- The answer that leads to the layer without questions is taken again from there, with the same reply. -/
theorem lock_denied_twice :
    (((new shed).run [.main 0 .yes]).apply (.sub 0 0 0 .no)).result = .ok unlocked ∧
      ((((new shed).run [.main 0 .yes]).after (.sub 0 0 0 .no)).apply (.sub 0 0 0 .no)).result = .ok unlocked ∧
      (((new shed).run [.main 0 .yes]).after (.sub 0 0 0 .no)).after (.sub 0 0 0 .no) =
        ((new shed).run [.main 0 .yes]).after (.sub 0 0 0 .no) := by
  have ht : (((new shed).run [.main 0 .yes]).apply (.sub 0 0 0 .no)).result = .ok unlocked := by
    decide
  exact ⟨ht, repeating_changes_nothing shed [.main 0 .yes] (by decide) ht⟩

end Appraisal.Questionnaire
