import Appraisal.Proofs.Pruning
import Appraisal.Proofs.Session.Prompts
/-!
# Sessions over pruned chains

A session never gets to see a chain that is dropped, so it takes the same events in the same way and asks the same
whether the branches of its item are pruned or not.
-/

namespace Appraisal.Session
variable {item : Item} {index : Nat} {a : Answer} {done : List (List Answer)} {answers : List Answer} {l : Layer}

theorem leads_pruned (hl : (item.branch a).Leads done l) : (item.pruned.branch a).Leads done l.pruned := by
  rw [Item.branch_pruned]
  exact hl.pruned

/-- The state behind a walk looks at a layer only for its questions. -/
theorem stateOf_pruned (hl : (item.branch a).Leads done l) {settled : Settled}
    (hs : l.settle done.length answers = .ok settled) :
    (moveTo ⟨index, .on a done answers, .unstarted⟩ ⟨a, done.length⟩ settled.depth).session.stateOf item.pruned
        settled =
      (moveTo ⟨index, .on a done answers, .unstarted⟩ ⟨a, done.length⟩ settled.depth).session.stateOf item settled := by
  have awaiting : ∀ (s : Session) depth k,
      s.stateOf item.pruned (.awaiting depth k) = s.stateOf item (.awaiting depth k) := by
    intro s depth k
    cases depth <;> cases k <;> rfl
  rcases Layer.settle_cases hs with ⟨-, rfl⟩ | ⟨f, -, rfl⟩ | ⟨next, -, -, hnext⟩
  · exact awaiting _ _ _
  · cases f with
    | decided v => rfl
    | ambiguous =>
      -- The walk rests where it set out, so the session has not moved.
      simp only [Settled.depth, moveTo, Nat.lt_irrefl, if_false, unchanged, stateOf, activeLayer_on hl.descend,
        activeLayer_on (leads_pruned hl).descend, Except.map, Layer.questions_pruned]
  · rcases Layer.settle_nil hnext with ⟨-, rfl⟩ | ⟨v, -, rfl⟩
    · exact awaiting _ _ _
    · rfl

theorem land_pruned (hl : (item.branch a).Leads done l) (state : State) :
    land ⟨index, .on a done answers, state⟩ item.pruned = land ⟨index, .on a done answers, state⟩ item := by
  rw [land_unstarted, land_unstarted _ item]
  simp only [land_on hl.descend, land_on (leads_pruned hl).descend, Layer.settle_pruned]
  cases hs : l.settle done.length answers with
  | error e => rfl
  | ok settled => simp only [stateOf_pruned hl hs]

/-- A session takes an event alike over pruned branches. -/
theorem take_pruned {s : Session} (h : s.Agrees item index) (e : SessionEvent) :
    s.take item.pruned e = s.take item e := by
  cases e with
  | main b =>
    simp only [take, answerMain]
    by_cases hm : s.trail.main = some b
    · rw [if_pos hm, if_pos hm]
    · rw [if_neg hm, if_neg hm]
      exact land_pruned (.here _) .unstarted
  | sub depth k x =>
    cases h with
    | unstarted => rfl
    | @started b done answers l state hl hf =>
      simp only [take, answerSub_on hl.descend, answerSub_on (leads_pruned hl).descend, Layer.questions_pruned,
        land_pruned hl]
  | toggle k b => rfl

/-- A prompt shows no more of a layer than its questions. -/
theorem prompt_pruned {s : Session} (h : s.Agrees item index) : s.prompt item.pruned = s.prompt item := by
  cases h with
  | unstarted => rfl
  | @started b done answers l state hl hf =>
    have hl' := leads_pruned hl
    cases hf with
    | waiting hlt =>
      have hq := List.getElem?_eq_getElem hlt
      rw [prompt_waiting hl hq, prompt_waiting hl' (by rwa [Layer.questions_pruned]), Layer.questions_pruned]
    | decided _ => rfl
    | @selection sel _ _ =>
      rcases State.ofSelection_eq sel with hst | ⟨v, hst⟩
      · rw [hst, prompt_selecting hl, prompt_selecting hl', Layer.questions_pruned]
      · rw [hst]
        rfl

end Appraisal.Session
