import Appraisal.Proofs.Session.Acceptance
/-!
# What a session asks

A session that agrees with its trail asks the main question, the next question of its active layer or for a
selection, or it is done: the four cases of `Asks`. The prompt never falls back on the main question or on an empty
title, and it names the kind of state that the session is in.
-/

namespace Appraisal

namespace State

@[simp] theorem standing_unstarted : unstarted.standing = .pending := rfl

@[simp] theorem standing_selecting (s : Selection) : (selecting s).standing = .ambiguous := rfl

@[simp] theorem standing_resolved (v : Verdict) (s : Option Selection) : (resolved v s).standing = .decided v := rfl

@[simp] theorem standing_waiting (depth : Nat) (answers : List Answer) :
    (waiting depth answers).standing = .pending := by
  rcases waiting_eq depth answers with h | h <;> rw [h.1] <;> rfl

end State

namespace Session
variable {item : Item} {index : Nat} {a : Answer} {done : List (List Answer)} {answers : List Answer} {l : Layer}
  {s : Session} {p : Prompt}

/-- What a session asks, by the kind of its state. -/
inductive Asks (item : Item) (index : Nat) : Session → Prompt → Prop
  | main : Asks item index (.new index) (mainPrompt item)
  | question {a : Answer} {done : List (List Answer)} {answers : List Answer} {l : Layer} {question : SubQuestion} :
      (item.branch a).Leads done l → l.questions[answers.length]? = some question →
      Asks item index ⟨index, .on a done answers, .waiting done.length answers⟩
        (.subQuestion done.length answers.length l.questions.length question.title)
  | selection {a : Answer} {done : List (List Answer)} {answers : List Answer} {l : Layer} {sel : Selection} :
      (item.branch a).Leads done l → l.questions ≠ [] → sel.cleared = .start l.questions answers →
      (∀ v, sel.standing ≠ .decided v) →
      Asks item index ⟨index, .on a done answers, .selecting sel⟩ (.selection (choices l.questions sel) sel.standing)
  | done {a : Answer} {done : List (List Answer)} {answers : List Answer} {v : Verdict} {sel? : Option Selection} :
      Asks item index ⟨index, .on a done answers, .resolved v sel?⟩ (.done v)

/-! ## Every session asks something -/

theorem prompt_waiting (hl : (item.branch a).Leads done l) {question : SubQuestion}
    (hq : l.questions[answers.length]? = some question) :
    prompt ⟨index, .on a done answers, .waiting done.length answers⟩ item =
      .subQuestion done.length answers.length l.questions.length question.title := by
  have hplace : (Trail.on a done answers).layer? = some ⟨a, done.length⟩ := rfl
  rcases State.waiting_eq done.length answers with h | h <;>
    simp only [prompt, h.1, hplace, activeLayer_on hl.descend, Trail.on_cursor, hq, Option.map_some, Option.getD_some]

theorem prompt_selecting (hl : (item.branch a).Leads done l) (sel : Selection) :
    prompt ⟨index, .on a done answers, .selecting sel⟩ item =
      .selection (choices l.questions sel) sel.standing := by
  simp only [prompt, activeLayer_on hl.descend, Except.toOption, Option.map_some, Option.getD_some]

theorem Agrees.asks (h : s.Agrees item index) : Asks item index s (s.prompt item) := by
  cases h with
  | unstarted => exact .main
  | @started a done answers l state hl hf =>
    cases hf with
    | waiting hlt =>
      have hq := List.getElem?_eq_getElem hlt
      rw [prompt_waiting hl hq]
      exact .question hl hq
    | decided _ => exact .done
    | @selection sel hamb hc =>
      have hq : l.questions ≠ [] := hamb.asks fun v hv => by cases hv
      unfold State.ofSelection
      cases hst : sel.standing with
      | decided v => exact .done
      | pending | ambiguous =>
        simp only [prompt_selecting hl]
        exact .selection hl hq hc (by simp [hst])

/-! ## The kind of prompt -/

namespace Asks

theorem main_iff (h : Asks item index s p) :
    (∃ title description yesHint noHint, p = .mainQuestion title description yesHint noHint) ↔
      s.trail.main = none := by
  cases h <;> simp [mainPrompt, new, Trail.empty]

theorem question_iff (h : Asks item index s p) :
    (∃ depth k count title, p = .subQuestion depth k count title) ↔
      (∃ a, s.trail.main = some a) ∧ s.standing = .pending := by
  cases h <;> simp [mainPrompt, new, Trail.empty, standing]

theorem selection_iff (h : Asks item index s p) :
    (∃ choices running, p = .selection choices running) ↔ s.standing = .ambiguous := by
  cases h <;> simp [mainPrompt, new, standing]

theorem done_iff (h : Asks item index s p) (v : Verdict) : p = .done v ↔ s.verdict? = some v := by
  cases h <;> simp [mainPrompt, new, verdict?, standing, Standing.verdict?]

end Asks

/-! ## What is asked for -/

/-- The choices of a selection stand in ascending order, and each has the title of its question. -/
theorem choices_ascending {sel : Selection} (hc : sel.cleared = .start l.questions answers) :
    (choices l.questions sel).Pairwise (·.subIndex < ·.subIndex) := by
  have h := Selection.ascending hc
  rw [Selection.indices, List.pairwise_map] at h
  exact List.pairwise_map.2 h

theorem choices_titles {sel : Selection} (hc : sel.cleared = .start l.questions answers) {c : Choice}
    (h : c ∈ choices l.questions sel) :
    c.subIndex ∈ sel.indices ∧ ∃ question, l.questions[c.subIndex]? = some question ∧ c.title = question.title := by
  obtain ⟨candidate, hcand, rfl⟩ := List.mem_map.1 h
  have hi : candidate.subIndex ∈ sel.indices := List.mem_map_of_mem hcand
  have hq := List.getElem?_eq_getElem (Selection.index_lt hc hi)
  exact ⟨hi, _, hq, by simp only [hq, Option.map_some, Option.getD_some]⟩

/-- While the layer waits, an answer to another question than the next one is no new answer. -/
theorem no_other_question (hl : (item.branch a).Leads done l) (hlt : answers.length < l.questions.length)
    {depth k : Nat} {x : Answer} (hne : ¬(depth = done.length ∧ k = answers.length)) {step : SessionStep}
    (h : take ⟨index, .on a done answers, .waiting done.length answers⟩ item (.sub depth k x) = .ok step) :
    step.session.trail.completed = done ∧ step.session.trail.current.length = answers.length := by
  have hchange := take_change (.started hl (.waiting hlt)) h
  generalize step.session = t at hchange
  cases hchange with
  | none => exact ⟨rfl, rfl⟩
  | @entry b _ done' answers' m _ _ htrail _ _ hc _ ht =>
    simp only [Trail.on, Trail.mk.injEq, Option.some.injEq] at htrail
    obtain ⟨rfl, rfl, rfl, -⟩ := htrail
    -- An earlier answer is replaced, and the layer goes on waiting for the same question.
    have hput : (put answers k x).length = answers.length := by
      rw [put, if_neg (fun hk => hne ⟨rfl, hk⟩), List.length_set]
    rw [ht.unique (lands_awaiting hl.descend (hput ▸ hlt))]
    exact ⟨rfl, hput⟩

end Session

end Appraisal
