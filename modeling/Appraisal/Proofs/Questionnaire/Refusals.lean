import Appraisal.Proofs.Questionnaire.InPlace
import Appraisal.Proofs.Questionnaire.Records
import Appraisal.Proofs.Session.Acceptance
/-!
# Refused events

Whatever the catalog, a refused event changes nothing, also when it is written in place, and an answer that its
session has taken is not refused any more: `AllOrNothing`. The evaluator may fail half-way down a chain, but then only
a copy of the session has been changed. Over a catalog that compiles it never fails, and every refusal is about the
time or the place of an event.
-/

namespace Appraisal.Questionnaire
variable {q : Questionnaire}

/-! ## All or nothing -/

/-- The event leaves no trace when it is refused, writing it in place comes to the same, and an answer that the
current session takes goes through. -/
structure AllOrNothing (q : Questionnaire) (e : Event) : Prop where
  refused : ∀ error, (q.apply e).result = .error error → q.after e = q
  in_place : (write e).run q = ((q.apply e).result, q.after e)
  taken : ∀ i f step, e = .ofSession i f → q.onCurrent i (fun s item => s.take item f) = .ok step →
    ∃ t, (q.apply e).result = .ok t ∧ (q.after e).session? i = some step.session

/-- A refused event changes nothing, and there is a reason for the refusal. -/
theorem Sound.refused (h : q.Sound) {e : Event} {error : SessionError} (he : (q.apply e).result = .error error) :
    q.after e = q ∧ Refusal q e error := by
  rcases apply_cases h.length_eq e with ⟨error', notices, ha, hr⟩ | ⟨t, notices, q', ha, -⟩
  · rw [ha] at he
    cases he
    exact ⟨by rw [Questionnaire.after, ha], hr⟩
  · rw [ha] at he
    cases he

/-- Neither the store nor the reply can fail after a session has changed. -/
theorem Sound.taken_accepted (h : q.Sound) {i : Nat} {f : SessionEvent} {step : SessionStep}
    (ht : q.onCurrent i (fun s item => s.take item f) = .ok step) :
    ∃ t, (q.apply (.ofSession i f)).result = .ok t ∧ (q.after (.ofSession i f)).session? i = some step.session := by
  obtain ⟨rfl, item, s, hi, hs, ht⟩ := onCurrent_ok.1 ht
  obtain ⟨⟨t, hok⟩, hafter⟩ := (Effect.answer hi hs ht).after h.length_eq
  exact ⟨t, hok, by rw [hafter, session?_putSession hs]⟩

/-- Whatever has happened to a questionnaire, of whatever catalog, its next event is taken as a whole or not at all. -/
theorem all_or_nothing (c : Catalog) (es : List Event) (e : Event) : AllOrNothing ((new c).run es) e := by
  have h := (sound_new c).run es
  constructor
  · intro error he
    exact (h.refused he).1
  · exact run_write e _
  · rintro i f step rfl ht
    exact h.taken_accepted ht

/-- The second layer of the branch asks nothing, but has answers to count. -/
def ragged : Catalog :=
  ⟨"ragged", "1", none,
    [⟨"a", "First", none, none, none,
      .chained [⟨"Is it so?", .pass⟩] (.count .allYes) (.count .anyNo) (.last [] (.count .anyYes)),
      .last [] (.direct .fail)⟩]⟩

/-- The answer that leads on to the second layer is refused there, and the first one still waits for it, also when
the answer is written in place. -/
theorem refused_half_way :
    (((new ragged).run [.main 0 .yes]).apply (.sub 0 0 0 .no)).result =
        .error (.evaluation (.emptyAnswers (.count .anyYes))) ∧
      ((new ragged).run [.main 0 .yes]).after (.sub 0 0 0 .no) = (new ragged).run [.main 0 .yes] ∧
      (write (.sub 0 0 0 .no)).run ((new ragged).run [.main 0 .yes]) =
        (.error (.evaluation (.emptyAnswers (.count .anyYes))), (new ragged).run [.main 0 .yes]) := by
  have he : (((new ragged).run [.main 0 .yes]).apply (.sub 0 0 0 .no)).result =
      .error (.evaluation (.emptyAnswers (.count .anyYes))) := by
    decide
  have h := all_or_nothing ragged [.main 0 .yes] (.sub 0 0 0 .no)
  have hq := h.refused _ he
  exact ⟨he, hq, by rw [h.in_place, he, hq]⟩

/-! ## Catalogs that compile -/

theorem Refusal.misplaced_of_judgeable (h : q.Sound)
    (hj : ∀ item ∈ q.catalog.items, ∀ a, (item.branch a).Judgeable) {e : Event} {error : SessionError}
    (hr : Refusal q e error) : error.isSequenceViolation = true := by
  cases hr with
  | misplaced hm => exact hm
  | answer hi hs ht => exact Session.take_refused (hj _ (List.mem_of_getElem? hi)) (h.agrees hi hs) ht

theorem not_evaluation {error : SessionError} (h : error.isSequenceViolation = true) (cause : EvaluationError) :
    error ≠ .evaluation cause := by
  rintro rfl
  cases h

/-- The layer that a session with a main answer is on. -/
theorem active_exists {item : Item} {i : Nat} {s : Session} {a : Answer} (h : s.Agrees item i)
    (ha : s.trail.main = some a) :
    ∃ depth l, s.trail.layer? = some ⟨a, depth⟩ ∧ (item.branch a).descend depth = some l ∧
      s.activeLayer item = .ok l := by
  cases h with
  | unstarted => cases ha
  | @started b done answers l state hl _ =>
    cases ha
    exact ⟨done.length, l, rfl, hl.descend, Session.activeLayer_on hl.descend state⟩

/-- In every state of the questionnaire of a catalog that compiles, an event is refused only for its time or place,
never because the evaluator fails, and the active layer of every session is one of its item. -/
theorem evaluator_never_fails {d : CatalogDefinition} {c : Catalog} (hd : d.compile = .ok c) (es : List Event) :
    (∀ e error, (((new c).run es).apply e).result = .error error →
      (∀ cause, error ≠ .evaluation cause) ∧ error.isSequenceViolation = true) ∧
    ∀ i s a, ((new c).run es).session? i = some s → s.trail.main = some a →
      ∃ item depth l, c.items[i]? = some item ∧ s.trail.layer? = some ⟨a, depth⟩ ∧
        (item.branch a).descend depth = some l ∧ s.activeLayer item = .ok l := by
  have h := (sound_new c).run es
  have hc : ((new c).run es).catalog = c := (sound_new c).run_catalog es
  obtain ⟨-, hj⟩ := CatalogDefinition.compile_judgeable hd
  constructor
  · intro e error he
    have hm := (h.refused he).2.misplaced_of_judgeable h (by rwa [hc])
    exact ⟨not_evaluation hm, hm⟩
  · intro i s a hs ha
    have hlt : i < ((new c).run es).catalog.items.length :=
      h.length_eq ▸ (List.getElem?_eq_some_iff.1 hs).1
    obtain ⟨item, hi⟩ := item_of_lt hlt
    obtain ⟨depth, l, hplace, hl, hactive⟩ := active_exists (h.agrees hi hs) ha
    exact ⟨item, depth, l, hc ▸ hi, hplace, hl, hactive⟩

/-- An item whose first question leads on to two more, and an item that asks nothing more. -/
def house : CatalogDefinition :=
  ⟨"house", "1", none,
    [⟨"roof", "Is there a roof?", none, none, none,
        .followed [⟨"Is it whole?", .pass⟩] "all-yes" (some "any-no")
          (.last [⟨"Is it patched?", .pass⟩, ⟨"Does it leak?", .fail⟩] "yes-to-only-pass-fail" none),
        .last [] "fail-direct" none⟩,
      ⟨"door", "Is there a door?", none, none, none, .last [] "pass-direct" none, .last [] "fail-direct" none⟩]⟩

def houseCatalog : Catalog :=
  ⟨"house", "1", none,
    [⟨"roof", "Is there a roof?", none, none, none,
        .chained [⟨"Is it whole?", .pass⟩] (.count .allYes) (.count .anyNo)
          (.last [⟨"Is it patched?", .pass⟩, ⟨"Does it leak?", .fail⟩] .byExample),
        .last [] (.direct .fail)⟩,
      ⟨"door", "Is there a door?", none, none, none, .last [] (.direct .pass), .last [] (.direct .fail)⟩]⟩

theorem house_compiles : house.compile = .ok houseCatalog := by
  decide

/-- The first layer of the roof has been left; another answer to its question comes too late. -/
theorem left_layer_refuses :
    house.compile = .ok houseCatalog ∧
      (((new houseCatalog).run [.main 0 .yes, .sub 0 0 0 .no]).apply (.sub 0 0 0 .yes)).result =
        .error (.inactiveLayer 0 0 1) ∧
      (∀ cause, SessionError.inactiveLayer 0 0 1 ≠ .evaluation cause) ∧
      (SessionError.inactiveLayer 0 0 1).isSequenceViolation = true := by
  have he : (((new houseCatalog).run [.main 0 .yes, .sub 0 0 0 .no]).apply (.sub 0 0 0 .yes)).result =
      .error (.inactiveLayer 0 0 1) := by
    decide
  exact ⟨house_compiles, he, (evaluator_never_fails house_compiles _).1 _ _ he⟩

end Appraisal.Questionnaire
