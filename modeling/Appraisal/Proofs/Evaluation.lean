import Appraisal.Evaluation
import Mathlib.Data.Finset.Card
/-!
# The condition table

`Judged` lists what a condition makes of the answers to the questions of a layer. It speaks of the answers and of
where they stand, and knows neither tallies nor flags. `condition_table` says that the evaluator does what is listed
and nothing else.
-/

namespace Appraisal

/-! ## What a count means -/

/-- Where the answer is `a`. -/
def positions (answers : List Answer) (a : Answer) : Finset Nat :=
  (Finset.range answers.length).filter fun i => answers[i]? = some a

/-- What a count says about the answers. -/
def CountTest.Means (answers : List Answer) : CountTest → Prop
  | .allYes => ∀ a ∈ answers, a = .yes
  | .allNo => ∀ a ∈ answers, a = .no
  | .anyYes => .yes ∈ answers
  | .anyNo => .no ∈ answers
  | .maxYes => (positions answers .no).card ≤ (positions answers .yes).card
  | .maxNo => (positions answers .yes).card ≤ (positions answers .no).card
  | .yesToOneOrLess => ∀ i j : Nat, answers[i]? = some .yes → answers[j]? = some .yes → i = j
  | .yesToTwoOrMore => ∃ i j : Nat, answers[i]? = some .yes ∧ answers[j]? = some .yes ∧ i ≠ j

theorem mem_positions {answers : List Answer} {a : Answer} {i : Nat} :
    i ∈ positions answers a ↔ answers[i]? = some a := by
  rw [positions, Finset.mem_filter, Finset.mem_range, and_iff_right_iff_imp]
  intro h
  exact (List.getElem?_eq_some_iff.1 h).1

/-- An answer is given as often as there are positions that hold it. -/
theorem card_positions (answers : List Answer) (a : Answer) : (positions answers a).card = answers.count a := by
  -- From the back: an answer at the end leaves the positions of the others as they are.
  induction answers using List.reverseRecOn with
  | nil => rfl
  | append_singleton answers b ih =>
    have hfront : (Finset.range answers.length).filter (fun i => (answers ++ [b])[i]? = some a) =
        positions answers a := by
      refine Finset.filter_congr fun i hi => ?_
      rw [List.getElem?_append_left (Finset.mem_range.1 hi)]
    have hlast : (answers ++ [b])[answers.length]? = some b := by simp
    rw [List.count_append, List.count_singleton', ← ih, positions, List.length_append, List.length_singleton,
      Finset.range_add_one, Finset.filter_insert, hfront, hlast]
    by_cases hb : b = a
    · have hnew : answers.length ∉ positions answers a := by simp [mem_positions]
      rw [if_pos (congrArg some hb), if_pos hb, Finset.card_insert_of_notMem hnew]
    · rw [if_neg (fun h => hb (Option.some.inj h)), if_neg hb, Nat.add_zero]

theorem count_eq_zero_iff (answers : List Answer) {a b : Answer} (hab : a ≠ b) :
    answers.count a = 0 ↔ ∀ x ∈ answers, x = b := by
  have hother : ∀ x : Answer, x ≠ a ↔ x = b := by
    intro x
    cases x <;> cases a <;> cases b <;> simp at hab ⊢
  rw [List.count_eq_zero]
  constructor
  · intro h x hx
    exact (hother x).1 fun hxa => h (hxa ▸ hx)
  · intro h ha
    exact (hother a).2 (h a ha) rfl

/-- A count holds of a tally when it holds of the answers that are tallied. -/
theorem CountTest.holds_iff (test : CountTest) (answers : List Answer) :
    test.holds (Tally.of answers) = true ↔ test.Means answers := by
  cases test with
  | allYes =>
    rw [CountTest.Means, ← count_eq_zero_iff answers (a := .no) (b := .yes) (by decide)]
    simp [CountTest.holds, Tally.of, Tally.total]
  | allNo =>
    rw [CountTest.Means, ← count_eq_zero_iff answers (a := .yes) (b := .no) (by decide)]
    simp [CountTest.holds, Tally.of, Tally.total]
  | anyYes => simp [CountTest.holds, CountTest.Means, Tally.of]
  | anyNo => simp [CountTest.holds, CountTest.Means, Tally.of]
  | maxYes =>
    rw [CountTest.Means, card_positions, card_positions]
    exact decide_eq_true_iff
  | maxNo =>
    rw [CountTest.Means, card_positions, card_positions]
    exact decide_eq_true_iff
  | yesToOneOrLess =>
    have hone : (positions answers .yes).card ≤ 1 ↔ CountTest.yesToOneOrLess.Means answers := by
      simp only [Finset.card_le_one, mem_positions, CountTest.Means]
      exact ⟨fun h i j hi hj => h i hi j hj, fun h i hi j hj => h i j hi hj⟩
    rw [← hone, card_positions]
    exact decide_eq_true_iff
  | yesToTwoOrMore =>
    have htwo : 1 < (positions answers .yes).card ↔ CountTest.yesToTwoOrMore.Means answers := by
      simp only [Finset.one_lt_card, mem_positions, CountTest.Means]
      constructor
      · rintro ⟨i, hi, j, hj, hij⟩
        exact ⟨i, j, hi, hj, hij⟩
      · rintro ⟨i, j, hi, hj, hij⟩
        exact ⟨i, hi, j, hj, hij⟩
    rw [← htwo, card_positions]
    exact decide_eq_true_iff

/-! ## What the examples mean -/

/-- A question that speaks for `v` is answered yes. -/
def SpeaksFor (answers : List Answer) (questions : List SubQuestion) (v : Verdict) : Prop :=
  ∃ (i : Nat) (question : SubQuestion),
    questions[i]? = some question ∧ question.favours = v ∧ answers[i]? = some .yes

/-- The entries that stand where an answer is yes. -/
theorem mem_saidYes {α : Type} {l : List α} {answers : List Answer} {p : α × Answer} :
    p ∈ (l.zip answers).filter (·.2 = .yes) ↔ ∃ i : Nat, l[i]? = some p.1 ∧ answers[i]? = some .yes ∧ p.2 = .yes := by
  rw [List.mem_filter, decide_eq_true_iff, List.mem_iff_getElem?]
  constructor
  · rintro ⟨⟨i, hi⟩, hp⟩
    obtain ⟨hl, ha⟩ := List.getElem?_zip_eq_some.1 hi
    exact ⟨i, hl, hp ▸ ha, hp⟩
  · rintro ⟨i, hl, ha, hp⟩
    exact ⟨⟨i, List.getElem?_zip_eq_some.2 ⟨hl, hp ▸ ha⟩⟩, hp⟩

theorem mem_yesExamples {answers : List Answer} {questions : List SubQuestion} {v : Verdict} :
    v ∈ yesExamples answers questions ↔ SpeaksFor answers questions v := by
  constructor
  · intro h
    obtain ⟨p, hp, rfl⟩ := List.mem_map.1 h
    obtain ⟨i, hq, ha, -⟩ := mem_saidYes.1 hp
    exact ⟨i, p.1, hq, rfl, ha⟩
  · rintro ⟨i, question, hq, rfl, ha⟩
    exact List.mem_map.2 ⟨(question, .yes), mem_saidYes.2 ⟨i, hq, ha, rfl⟩, rfl⟩

theorem SpeaksFor.contains {answers : List Answer} {questions : List SubQuestion} {v : Verdict}
    (h : SpeaksFor answers questions v) : (yesExamples answers questions).contains v = true :=
  List.contains_iff_mem.2 (mem_yesExamples.2 h)

theorem yesExamples_not_contains {answers : List Answer} {questions : List SubQuestion} {v : Verdict}
    (h : ¬ SpeaksFor answers questions v) : (yesExamples answers questions).contains v = false :=
  Bool.eq_false_iff.2 fun hc => h (mem_yesExamples.1 (List.contains_iff_mem.1 hc))

/-! ## The table -/

/-- What a condition, with or without a chain condition, makes of the answers to the questions. -/
inductive Judged (answers : List Answer) (questions : List SubQuestion) :
    Condition → Option ChainCondition → Except EvaluationError Outcome → Prop
  | direct (v : Verdict) (chain : Option ChainCondition) :
      Judged answers questions (.direct v) chain (.ok (.found (.decided v)))
  | unanswered {condition : Condition} (chain : Option ChainCondition) :
      (∀ v, condition ≠ .direct v) → answers = [] →
      Judged answers questions condition chain (.error (.emptyAnswers condition))
  | mismatch (chain : Option ChainCondition) :
      answers ≠ [] → answers.length ≠ questions.length →
      Judged answers questions .byExample chain (.error (.contextMismatch answers.length questions.length))
  | passExamples (chain : Option ChainCondition) :
      answers ≠ [] → answers.length = questions.length →
      SpeaksFor answers questions .pass → ¬ SpeaksFor answers questions .fail →
      Judged answers questions .byExample chain (.ok (.found (.decided .pass)))
  | failExamples (chain : Option ChainCondition) :
      answers ≠ [] → answers.length = questions.length →
      SpeaksFor answers questions .fail → ¬ SpeaksFor answers questions .pass →
      Judged answers questions .byExample chain (.ok (.found (.decided .fail)))
  | bothOrNeither (chain : Option ChainCondition) :
      answers ≠ [] → answers.length = questions.length →
      (SpeaksFor answers questions .pass ↔ SpeaksFor answers questions .fail) →
      Judged answers questions .byExample chain (.ok (.found .ambiguous))
  | holds {test : CountTest} (chain : Option ChainCondition) :
      answers ≠ [] → test.Means answers →
      Judged answers questions (.count test) chain (.ok (.found (.decided .pass)))
  | fallsBack {test fallback : CountTest} :
      answers ≠ [] → ¬ test.Means answers → fallback.Means answers →
      Judged answers questions (.count test) (some (.count fallback)) (.ok .advance)
  | fails {test : CountTest} {chain : Option ChainCondition} :
      answers ≠ [] → ¬ test.Means answers →
      (∀ fallback : CountTest, chain = some (.count fallback) → ¬ fallback.Means answers) →
      Judged answers questions (.count test) chain (.ok (.found (.decided .fail)))

section Table
variable {answers : List Answer} {questions : List SubQuestion}

theorem evaluate_byExample (hne : answers ≠ []) (chain : Option ChainCondition) :
    evaluate .byExample chain answers questions = (findingByExample answers questions).map .found := by
  simp [evaluate, hne]

theorem evaluate_count (hne : answers ≠ []) (test : CountTest) (chain : Option ChainCondition) :
    evaluate (.count test) chain answers questions = .ok (countOutcome test chain (Tally.of answers)) := by
  simp [evaluate, hne]

/-- A fallback on a count leads on when the count holds of the answers; `nextLayer` never does once the layer's own
condition has failed. -/
theorem chain_test_iff {test : CountTest} (hfails : ¬ test.Means answers) (chain : Option ChainCondition) :
    chain.any (·.test (.count test) (Tally.of answers)) = true ↔
      ∃ fallback : CountTest, chain = some (.count fallback) ∧ fallback.Means answers := by
  cases chain with
  | none => simp
  | some f =>
    cases f with
    | nextLayer =>
      have hidle : ChainCondition.test (.count test) (Tally.of answers) .nextLayer = false := by
        by_cases hall : test = .allYes
        · subst hall
          simp [ChainCondition.test, Bool.eq_false_iff.2 (mt (CountTest.holds_iff .allYes answers).1 hfails)]
        · simp [ChainCondition.test, hall]
      simp [hidle]
    | count fallback => simp [ChainCondition.test, CountTest.holds_iff]

/-- Every row of the table is what the evaluator does. -/
theorem Judged.evaluate_eq {condition : Condition} {chain : Option ChainCondition}
    {result : Except EvaluationError Outcome} (h : Judged answers questions condition chain result) :
    evaluate condition chain answers questions = result := by
  cases h with
  | direct v chain => rfl
  | unanswered chain hindirect hnil =>
    subst hnil
    cases condition with
    | direct v => exact absurd rfl (hindirect v)
    | count test => rfl
    | byExample => rfl
  | mismatch chain hne hlen =>
    rw [evaluate_byExample hne, findingByExample, if_neg hlen]
    rfl
  | passExamples chain hne hlen hp hf =>
    simp only [evaluate_byExample hne, findingByExample, if_pos hlen, hp.contains, yesExamples_not_contains hf]
    rfl
  | failExamples chain hne hlen hf hp =>
    simp only [evaluate_byExample hne, findingByExample, if_pos hlen, hf.contains, yesExamples_not_contains hp]
    rfl
  | bothOrNeither chain hne hlen hpf =>
    by_cases hp : SpeaksFor answers questions .pass
    · simp only [evaluate_byExample hne, findingByExample, if_pos hlen, hp.contains, (hpf.1 hp).contains]
      rfl
    · have hf : ¬ SpeaksFor answers questions .fail := fun hf => hp (hpf.2 hf)
      simp only [evaluate_byExample hne, findingByExample, if_pos hlen, yesExamples_not_contains hp,
        yesExamples_not_contains hf]
      rfl
  | holds chain hne hmeans =>
    rw [evaluate_count hne, countOutcome, if_pos ((CountTest.holds_iff _ _).2 hmeans)]
  | fallsBack hne hfails hback =>
    rw [evaluate_count hne, countOutcome, if_neg (mt (CountTest.holds_iff _ _).1 hfails),
      if_pos ((chain_test_iff hfails _).2 ⟨_, rfl, hback⟩)]
  | @fails test chain hne hfails hnone =>
    have hstays : ¬ chain.any (·.test (.count test) (Tally.of answers)) = true := by
      rw [chain_test_iff hfails]
      rintro ⟨fallback, hchain, hback⟩
      exact hnone fallback hchain hback
    rw [evaluate_count hne, countOutcome, if_neg (mt (CountTest.holds_iff _ _).1 hfails), if_neg hstays]

/-- The table leaves nothing open. -/
theorem judged_total (condition : Condition) (chain : Option ChainCondition) (answers : List Answer)
    (questions : List SubQuestion) : ∃ result, Judged answers questions condition chain result := by
  cases condition with
  | direct v => exact ⟨_, .direct v chain⟩
  | count test =>
    by_cases hnil : answers = []
    · exact ⟨_, .unanswered chain (fun v => nofun) hnil⟩
    by_cases hmeans : test.Means answers
    · exact ⟨_, .holds chain hnil hmeans⟩
    by_cases hback : ∃ fallback : CountTest, chain = some (.count fallback) ∧ fallback.Means answers
    · obtain ⟨fallback, rfl, hback⟩ := hback
      exact ⟨_, .fallsBack hnil hmeans hback⟩
    · exact ⟨_, .fails hnil hmeans fun fallback hchain hmeans => hback ⟨fallback, hchain, hmeans⟩⟩
  | byExample =>
    by_cases hnil : answers = []
    · exact ⟨_, .unanswered chain (fun v => nofun) hnil⟩
    by_cases hlen : answers.length = questions.length
    · by_cases hp : SpeaksFor answers questions .pass <;> by_cases hf : SpeaksFor answers questions .fail
      · exact ⟨_, .bothOrNeither chain hnil hlen (iff_of_true hp hf)⟩
      · exact ⟨_, .passExamples chain hnil hlen hp hf⟩
      · exact ⟨_, .failExamples chain hnil hlen hf hp⟩
      · exact ⟨_, .bothOrNeither chain hnil hlen (iff_of_false hp hf)⟩
    · exact ⟨_, .mismatch chain hnil hlen⟩

theorem evaluate_iff_judged {condition : Condition} {chain : Option ChainCondition}
    {result : Except EvaluationError Outcome} :
    evaluate condition chain answers questions = result ↔ Judged answers questions condition chain result := by
  constructor
  · rintro rfl
    obtain ⟨result, h⟩ := judged_total condition chain answers questions
    rwa [h.evaluate_eq]
  · exact Judged.evaluate_eq

theorem Judged.byExample_of_ambiguous {condition : Condition} {chain : Option ChainCondition}
    (h : Judged answers questions condition chain (.ok (.found .ambiguous))) : condition = .byExample := by
  cases h with
  | bothOrNeither => rfl

/-- A layer that passes does so whatever it falls back on. -/
theorem Judged.pass_rechained {condition : Condition} {chain : Option ChainCondition}
    (h : Judged answers questions condition chain (.ok (.found (.decided .pass)))) (chain' : Option ChainCondition) :
    Judged answers questions condition chain' (.ok (.found (.decided .pass))) := by
  cases h with
  | direct => exact .direct _ chain'
  | passExamples _ hne hlen hp hf => exact .passExamples chain' hne hlen hp hf
  | holds _ hne hmeans => exact .holds chain' hne hmeans

end Table

/-- The evaluator does what the table lists, and nothing else. So only the examples leave an outcome open, and the
chain condition has no say in whether a layer passes. -/
theorem condition_table (condition : Condition) (chain : Option ChainCondition) (answers : List Answer)
    (questions : List SubQuestion) :
    (∀ result, evaluate condition chain answers questions = result ↔
      Judged answers questions condition chain result) ∧
    (evaluate condition chain answers questions = .ok (.found .ambiguous) → condition = .byExample) ∧
    ∀ chain', evaluate condition chain answers questions = .ok (.found (.decided .pass)) ↔
      evaluate condition chain' answers questions = .ok (.found (.decided .pass)) := by
  refine ⟨fun result => evaluate_iff_judged, fun h => (evaluate_iff_judged.1 h).byExample_of_ambiguous, ?_⟩
  intro chain'
  simp only [evaluate_iff_judged]
  exact ⟨fun h => h.pass_rechained chain', fun h => h.pass_rechained chain⟩

end Appraisal
