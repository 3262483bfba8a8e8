import Appraisal.Proofs.Walk
import Mathlib.Tactic.SplitIfs
/-!
# Pruning chains

Some chains never lead on, whatever the answers: the condition of their layer does not look at a fallback, or the
fallback holds only where the condition has passed already (`ChainCondition.isIdle`). Dropping them, at whatever depth,
changes neither what a layer says nor where a walk comes to rest.
-/

namespace Appraisal

/-- Whether a fallback never leads on from a layer that is judged by `condition`. -/
def ChainCondition.isIdle (condition : Condition) (fallback : ChainCondition) : Bool :=
  fallback = .nextLayer || condition.isDirect || condition = .byExample || fallback.condition? = some condition

/-- The chain without the layers behind idle fallbacks. -/
def Layer.pruned : Layer → Layer
  | .last questions condition => .last questions condition
  | .chained questions condition fallback next =>
    if fallback.isIdle condition then .last questions condition
    else .chained questions condition fallback next.pruned

def Item.pruned (item : Item) : Item :=
  { item with onYes := item.onYes.pruned, onNo := item.onNo.pruned }

def Catalog.pruned (c : Catalog) : Catalog :=
  { c with items := c.items.map Item.pruned }

theorem Item.branch_pruned (item : Item) (a : Answer) : item.pruned.branch a = (item.branch a).pruned := by
  cases a <;> rfl

/-! ## The evaluator -/

/-- Where the condition fails on a tally, an idle fallback fails too. -/
theorem idle_test {test : CountTest} {fallback : ChainCondition} (h : fallback.isIdle (.count test) = true) {t : Tally}
    (ht : test.holds t = false) : fallback.test (.count test) t = false := by
  cases fallback with
  | nextLayer =>
    -- It only ever holds of a layer that wants all answers to be yes, and there it repeats the test that has failed.
    by_cases hall : test = .allYes
    · subst hall
      simp [ChainCondition.test, ht]
    · simp [ChainCondition.test, hall]
  | count other =>
    have hsame : other = test := by simpa [ChainCondition.isIdle, Condition.isDirect, ChainCondition.condition?] using h
    rw [ChainCondition.test, hsame, ht]

/-- An idle fallback might as well not be there. -/
theorem evaluate_idle {condition : Condition} {fallback : ChainCondition} (h : fallback.isIdle condition = true)
    (answers : List Answer) (questions : List SubQuestion) :
    evaluate condition (some fallback) answers questions = evaluate condition none answers questions := by
  cases condition with
  | direct v => rfl
  | byExample => rfl
  | count test =>
    have hsame : ∀ t, countOutcome test (some fallback) t = countOutcome test none t := by
      intro t
      by_cases ht : test.holds t = true
      · simp [countOutcome, ht]
      · simp [countOutcome, ht, idle_test h (Bool.eq_false_iff.2 ht)]
    simp only [evaluate, hsame]

namespace Layer

@[simp] theorem questions_pruned (l : Layer) : l.pruned.questions = l.questions := by
  cases l with
  | last qs c => rfl
  | chained qs c f next =>
    unfold pruned
    split <;> rfl

theorem evaluate_pruned (l : Layer) (answers : List Answer) :
    evaluate l.pruned.condition l.pruned.fallback? answers l.pruned.questions =
      evaluate l.condition l.fallback? answers l.questions := by
  cases l with
  | last qs c => rfl
  | chained qs c f next =>
    unfold pruned
    by_cases h : f.isIdle c = true
    · rw [if_pos h]
      exact (evaluate_idle h answers qs).symm
    · rw [if_neg h]
      rfl

theorem says_pruned {l : Layer} {answers : List Answer} {o : Outcome} :
    l.pruned.Says answers o ↔ l.Says answers o := by
  rw [Says, evaluate_pruned, questions_pruned, Says]

/-- A layer that leads on keeps its chain. -/
theorem next?_pruned {l next : Layer} {answers : List Answer} (h : l.Says answers .advance) (hn : l.next? = some next) :
    l.pruned.next? = some next.pruned := by
  cases l with
  | last qs c => cases hn
  | chained qs c f m =>
    cases hn
    by_cases hidle : f.isIdle c = true
    · -- Then the layer would say the same without its chain, where nothing leads on.
      have hadvance : evaluate c (some f) answers qs = .ok .advance := h.2
      rw [evaluate_idle hidle] at hadvance
      exact absurd hadvance evaluate_alone
    · simp [pruned, hidle, next?]

/-! ## Walks -/

theorem Leads.pruned {root l : Layer} {done : List (List Answer)} (h : Leads root done l) :
    Leads root.pruned done l.pruned := by
  induction h with
  | here l => exact .here _
  | on hs hn _ ih => exact .on (says_pruned.2 hs) (next?_pruned hs hn) ih

/-- Why answers cannot be judged does not depend on the chain. -/
theorem resolve_pruned_error {l : Layer} {answers : List Answer} {e : EvaluationError}
    (h : l.resolve answers = .error e) : l.pruned.resolve answers = .error e := by
  unfold resolve at h ⊢
  rw [evaluate_pruned, questions_pruned]
  split_ifs at h ⊢ with hgt hlt
  · exact h
  · cases he : evaluate l.condition l.fallback? answers l.questions with
    | error e' => simpa only [he] using h
    | ok o =>
      rw [he] at h
      cases o with
      | found f => cases h
      | advance => cases hn : l.next? <;> simp only [hn] at h <;> cases h

theorem settle_pruned_of_next {l : Layer} (depth : Nat) (answers : List Answer)
    (hnext : ∀ next, l.next? = some next → ∀ depth answers,
      next.pruned.settle depth answers = next.settle depth answers) :
    l.pruned.settle depth answers = l.settle depth answers := by
  cases hr : l.resolve answers with
  | error e =>
    unfold settle
    simp only [hr, resolve_pruned_error hr]
  | ok r =>
    rcases resolve_cases hr with ⟨hlt, -⟩ | ⟨f, hs, -⟩ | ⟨next, hs, hn, -⟩
    · rw [settle_awaiting depth hlt, settle_awaiting depth (by rwa [questions_pruned])]
    · rw [settle_found depth hs, settle_found depth (says_pruned.2 hs)]
    · rw [settle_advance depth hs hn, settle_advance depth (says_pruned.2 hs) (next?_pruned hs hn), hnext next hn]

/-- A walk comes to rest where it did with all chains in place. -/
theorem settle_pruned (l : Layer) : ∀ depth answers, l.pruned.settle depth answers = l.settle depth answers := by
  induction l with
  | last qs c => exact fun _ _ => rfl
  | chained qs c f next ih =>
    refine fun depth answers => settle_pruned_of_next depth answers fun m hm => ?_
    cases hm
    exact ih

/-- The first layer leads on when it is denied. The second one falls back on the test that it has failed already, so the
layers below it are dropped. -/
example :
    pruned (.chained [⟨"Is it dry?", .pass⟩] (.count .allYes) (.count .anyNo)
      (.chained [⟨"Is it sealed?", .pass⟩] (.count .anyYes) (.count .anyYes)
        (.chained [⟨"Is it vented?", .pass⟩] .byExample (.count .allNo) (.last [] (.direct .pass))))) =
      .chained [⟨"Is it dry?", .pass⟩] (.count .allYes) (.count .anyNo)
        (.last [⟨"Is it sealed?", .pass⟩] (.count .anyYes)) := by
  decide

end Layer

end Appraisal
