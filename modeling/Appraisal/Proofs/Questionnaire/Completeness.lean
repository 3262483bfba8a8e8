import Appraisal.Proofs.Questionnaire.Refusals
import Appraisal.Report
/-!
# When a questionnaire is complete

A questionnaire counts its records to know whether it is complete. Since the store follows the sessions, this says that
every session has a verdict, and so does everything that is reported: the results, their summary, the report, and the
reply to each event.
-/

namespace Appraisal.Questionnaire

/-- The ways to ask whether `q`, a questionnaire over `c`, is complete come to the same, and the summary counts every
item once. -/
structure CompleteAlike (c : Catalog) (q : Questionnaire) : Prop where
  length_eq : q.sessions.length = c.items.length
  sessions : q.isComplete = true ↔ c.items ≠ [] ∧ ∀ s ∈ q.sessions, ∃ v, s.verdict? = some v
  completion : q.isComplete = true ↔ ∃ r, q.completion = some r
  summary : q.isComplete = true ↔ c.items ≠ [] ∧ (Summary.of q.results).pending = 0
  report : ∀ l now, (q.isComplete = true ↔ (Report.of l q now).complete = true) ∧
    (Report.of l q now).summary = Summary.of q.results
  counts : (Summary.of q.results).passed + (Summary.of q.results).failed + (Summary.of q.results).pending =
    (Summary.of q.results).total
  total : (Summary.of q.results).total = c.items.length

/-- The reply `t` has a completion exactly when the questionnaire `q` that it leaves is complete, and then it shows the
results, in which every item has a verdict and a main answer. -/
structure TellsCompletion (q : Questionnaire) (t : Transition) : Prop where
  complete_iff : (∃ r, t.completion = some r) ↔ q.isComplete = true
  rows : ∀ r, t.completion = some r → r.rows = q.results ∧ r.summary = Summary.of q.results
  decided : ∀ r, t.completion = some r → ∀ row ∈ r.rows,
    (∃ v, row.standing = .decided v) ∧ ∃ a, row.main = some a

/-- Every item of the catalog ends with a pass. -/
def AllPass (q : Questionnaire) : Prop :=
  ∀ i < q.catalog.items.length, ∃ s, q.session? i = some s ∧ s.verdict? = some .pass

theorem completion_iff {q : Questionnaire} {r : Completion} :
    q.completion = some r ↔ q.isComplete = true ∧ r = ⟨q.results, Summary.of q.results⟩ := by
  unfold completion
  by_cases h : q.isComplete = true <;> simp [h, eq_comm]

/-- The standing in a row is decided by the verdict of the session, if there is one. -/
theorem rowOf_verdict (i : Nat) (item : Item) (s : Session) : (rowOf i item s).standing.verdict? = s.verdict? := by
  simp only [rowOf]
  cases s.verdict? <;> rfl

namespace Sound
variable {q : Questionnaire}

theorem isComplete_iff_sessions (h : q.Sound) :
    q.isComplete = true ↔ q.catalog.items ≠ [] ∧ ∀ s ∈ q.sessions, ∃ v, s.verdict? = some v := by
  have hne : q.sessions ≠ [] ↔ q.catalog.items ≠ [] := by
    rw [← List.length_pos_iff_ne_nil, h.length_eq, List.length_pos_iff_ne_nil]
  rw [h.isComplete_iff, hne]
  -- What is stored are the items whose sessions have a verdict.
  refine and_congr_right fun _ => ⟨fun hall s hs => ?_, fun hall i hi => ?_⟩
  · obtain ⟨i, hi, rfl⟩ := List.getElem_of_mem hs
    obtain ⟨-, s, v, hs, hv⟩ := h.contains_iff.1 (hall i hi)
    cases (List.getElem?_eq_getElem hi).symm.trans hs
    exact ⟨v, hv⟩
  · obtain ⟨v, hv⟩ := hall q.sessions[i] (List.getElem_mem hi)
    exact h.contains_iff.2 ⟨h.length_eq ▸ hi, _, v, List.getElem?_eq_getElem hi, hv⟩

/-- What holds of the verdict of every session holds of every row. -/
theorem forall_results {P : Option Verdict → Prop} (h : q.Sound) :
    (∀ r ∈ q.results, P r.standing.verdict?) ↔ ∀ s ∈ q.sessions, P s.verdict? := by
  constructor
  · intro hall s hs
    obtain ⟨i, hi, rfl⟩ := List.getElem_of_mem hs
    obtain ⟨item, hitem⟩ := item_of_lt (h.length_eq ▸ hi)
    obtain ⟨t, ht, hrow⟩ := h.results_eq hitem
    cases (List.getElem?_eq_getElem hi).symm.trans ht
    have hrow := hall _ (List.mem_of_getElem? hrow)
    rwa [rowOf_verdict] at hrow
  · intro hall r hr
    obtain ⟨i, item, s, -, hs, rfl⟩ := h.mem_results hr
    rw [rowOf_verdict]
    exact hall s (List.mem_of_getElem? hs)

/-- No row is pending when every session has a verdict. -/
theorem pending_iff_sessions (h : q.Sound) :
    (Summary.of q.results).pending = 0 ↔ ∀ s ∈ q.sessions, ∃ v, s.verdict? = some v := by
  rw [Summary.pending_eq_zero]
  exact h.forall_results (P := fun v? => ∃ v, v? = some v)

/-- All rows pass when every session does. -/
theorem passed_iff_sessions (h : q.Sound) :
    (Summary.of q.results).passed = (Summary.of q.results).total ↔ ∀ s ∈ q.sessions, s.verdict? = some .pass := by
  rw [Summary.passed_eq_total]
  exact h.forall_results (P := fun v? => v? = some .pass)

theorem allPass_iff_sessions (h : q.Sound) : q.AllPass ↔ ∀ s ∈ q.sessions, s.verdict? = some .pass := by
  constructor
  · intro hall s hs
    obtain ⟨i, hi, rfl⟩ := List.getElem_of_mem hs
    obtain ⟨t, ht, hv⟩ := hall i (h.length_eq ▸ hi)
    cases (List.getElem?_eq_getElem hi).symm.trans ht
    exact hv
  · intro hall i hi
    obtain ⟨s, hs⟩ := session_of_lt (h.length_eq ▸ hi)
    exact ⟨s, hs, hall s (List.mem_of_getElem? hs)⟩

/-- A questionnaire with items is complete and its summary counts nothing but passes when every item passes. -/
theorem allPassed_iff (h : q.Sound) (hne : q.catalog.items ≠ []) :
    (q.isComplete && (Summary.of q.results).allPassed) = true ↔ q.AllPass := by
  have htotal : (Summary.of q.results).total = q.catalog.items.length := h.results_length
  have hpos : 0 < (Summary.of q.results).total := htotal ▸ List.length_pos_of_ne_nil hne
  rw [Bool.and_eq_true, h.isComplete_iff_sessions, Summary.allPassed, Bool.and_eq_true, decide_eq_true_eq,
    decide_eq_true_eq, h.passed_iff_sessions, h.allPass_iff_sessions]
  constructor
  · rintro ⟨-, -, hall⟩
    exact hall
  · intro hall
    exact ⟨⟨hne, fun s hs => ⟨.pass, hall s hs⟩⟩, hpos, hall⟩

theorem completeAlike (h : q.Sound) : CompleteAlike q.catalog q where
  length_eq := h.length_eq
  sessions := h.isComplete_iff_sessions
  completion := by
    simp only [completion_iff]
    exact ⟨fun hc => ⟨_, hc, rfl⟩, fun ⟨_, hc, _⟩ => hc⟩
  summary := by rw [h.isComplete_iff_sessions, h.pending_iff_sessions]
  report := fun _ _ => ⟨Iff.rfl, rfl⟩
  counts := Summary.counts_total q.results
  total := h.results_length

/-- In the results of a complete questionnaire every item has a verdict, which rests on a main answer. -/
theorem rows_decided (h : q.Sound) (hc : q.isComplete = true) {r : Row} (hr : r ∈ q.results) :
    (∃ v, r.standing = .decided v) ∧ ∃ a, r.main = some a := by
  obtain ⟨i, item, s, hi, hs, rfl⟩ := h.mem_results hr
  obtain ⟨v, hv⟩ := (h.isComplete_iff_sessions.1 hc).2 s (List.mem_of_getElem? hs)
  obtain ⟨a, ha⟩ := main_of_verdict (h.agrees hi hs) hv
  exact ⟨⟨v, by simp [rowOf, hv]⟩, a, ha⟩

theorem tellsCompletion (h : q.Sound) {i : Nat} {t : Transition} (ht : q.transition i = .ok t) :
    TellsCompletion q t := by
  have hcompletion : t.completion = q.completion := by
    simp only [transition, bind_ok] at ht
    obtain ⟨item, -, s, -, ht⟩ := ht
    cases ht
    rfl
  constructor
  · rw [hcompletion]
    exact h.completeAlike.completion.symm
  · intro r hr
    obtain ⟨-, rfl⟩ := completion_iff.1 (hcompletion ▸ hr)
    exact ⟨rfl, rfl⟩
  · intro r hr row hrow
    obtain ⟨hc, rfl⟩ := completion_iff.1 (hcompletion ▸ hr)
    exact h.rows_decided hc hrow

end Sound

/-- Whatever has happened to a questionnaire, all that can be asked about its completeness comes to the same, its
summary counts every item once, and the reply to an event tells of completion exactly when the event has led there. -/
theorem completeness_agrees (c : Catalog) (es : List Event) :
    CompleteAlike c ((new c).run es) ∧
      ∀ e t, (((new c).run es).apply e).result = .ok t → TellsCompletion (((new c).run es).after e) t := by
  have h := (sound_new c).run es
  have hc : ((new c).run es).catalog = c := (sound_new c).run_catalog es
  refine ⟨?_, fun e t ht => ?_⟩
  · have halike := h.completeAlike
    rwa [hc] at halike
  rcases apply_cases h.length_eq e with ⟨error, notices, ha, -⟩ | ⟨_, notices, q', ha, he⟩
  · rw [ha] at ht
    cases ht
  · obtain ⟨t', _, ha', ht'⟩ := he.reply h.length_eq
    rw [ha'] at ht
    cases ht
    rw [(he.after h.length_eq).2]
    exact (he.sound h).tellsCompletion ht'

/-- The reply when there is no roof and the door is the last item to be answered. -/
def finished : Transition :=
  ⟨1, .decided .pass, .done .pass,
    some ⟨[⟨0, "roof", "Is there a roof?", .decided .fail, some .no, []⟩,
        ⟨1, "door", "Is there a door?", .decided .pass, some .yes, []⟩], ⟨2, 1, 1, 0⟩⟩⟩

/-- With that answer the house is complete; reopening the roof takes that back, and the reply tells so. -/
theorem house_finished :
    (((new houseCatalog).run [.main 0 .no, .advance]).apply (.main 1 .yes)).result = .ok finished ∧
      TellsCompletion ((new houseCatalog).run [.main 0 .no, .advance, .main 1 .yes]) finished ∧
      (((new houseCatalog).run [.main 0 .no, .advance, .main 1 .yes, .navigate 0]).apply (.main 0 .yes)).result =
        .ok ⟨0, .pending, .subQuestion 0 0 1 "Is it whole?", none⟩ ∧
      ((new houseCatalog).run [.main 0 .no, .advance, .main 1 .yes, .navigate 0, .main 0 .yes]).isComplete = false := by
  have hdoor : (((new houseCatalog).run [.main 0 .no, .advance]).apply (.main 1 .yes)).result = .ok finished := by
    decide
  have hroof : (((new houseCatalog).run [.main 0 .no, .advance, .main 1 .yes, .navigate 0]).apply
      (.main 0 .yes)).result = .ok ⟨0, .pending, .subQuestion 0 0 1 "Is it whole?", none⟩ := by
    decide
  have htells := (completeness_agrees houseCatalog [.main 0 .no, .advance]).2 _ _ hdoor
  have hreopened := (completeness_agrees houseCatalog [.main 0 .no, .advance, .main 1 .yes, .navigate 0]).2 _ _ hroof
  refine ⟨hdoor, htells, hroof, Bool.eq_false_iff.2 fun hc => ?_⟩
  obtain ⟨_, hr⟩ := hreopened.complete_iff.2 hc
  cases hr

end Appraisal.Questionnaire
