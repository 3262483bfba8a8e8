import Appraisal.Proofs.Picks
import Appraisal.Proofs.Session.Landing
import Appraisal.Proofs.Session.Runs
/-!
# A session agrees with its trail

`Agrees` says that the trail of a session is one that the evaluator leads along and that the state is what the
evaluator makes of the answers at its end. Every accepted event is one of the four kinds of `Change`, and each
keeps `Agrees`, so it holds in every state that a session reaches.
-/

namespace Appraisal

/-- The states that the evaluator allows while the layer `l`, at `depth`, has `answers`. -/
inductive Fits (l : Layer) (depth : Nat) (answers : List Answer) : State → Prop
  | waiting : answers.length < l.questions.length → Fits l depth answers (.waiting depth answers)
  | decided {v : Verdict} : l.Says answers (.found (.decided v)) → Fits l depth answers (.resolved v none)
  | selection {s : Selection} :
      l.Says answers (.found .ambiguous) → s.cleared = .start l.questions answers →
      Fits l depth answers (.ofSelection s)

theorem Fits.length_le {l : Layer} {depth : Nat} {answers : List Answer} {state : State}
    (h : Fits l depth answers state) : answers.length ≤ l.questions.length := by
  cases h with
  | waiting hlt => exact Nat.le_of_lt hlt
  | decided hs => exact Nat.le_of_eq hs.1
  | selection hs _ => exact Nat.le_of_eq hs.1

namespace State

theorem ofSelection_eq (s : Selection) :
    ofSelection s = selecting s ∨ ∃ v, ofSelection s = resolved v (some s) := by
  unfold ofSelection
  cases s.standing with
  | decided v => exact .inr ⟨v, rfl⟩
  | pending => exact .inl rfl
  | ambiguous => exact .inl rfl

@[simp] theorem selection?_ofSelection (s : Selection) : (ofSelection s).selection? = some s := by
  rcases ofSelection_eq s with h | ⟨v, h⟩ <;> rw [h] <;> rfl

/-- Nothing is decided by a selection in which nothing is picked. -/
theorem ofSelection_cleared {s : Selection} : ofSelection s.cleared = selecting s.cleared := by
  simp [ofSelection, s.standing_cleared]

theorem waiting_eq (depth : Nat) (answers : List Answer) :
    (waiting depth answers = mainAnswered ∧ depth = 0 ∧ answers = []) ∨
    (waiting depth answers = inProgress ∧ ¬(depth = 0 ∧ answers = [])) := by
  unfold waiting
  by_cases h : depth = 0 ∧ answers = []
  · exact .inl ⟨if_pos h, h⟩
  · exact .inr ⟨if_neg h, h⟩

@[simp] theorem selection?_waiting (depth : Nat) (answers : List Answer) :
    (waiting depth answers).selection? = none := by
  rcases waiting_eq depth answers with h | h <;> rw [h.1] <;> rfl

end State

namespace Session

/-- The state of the session is what the evaluator makes of its trail. -/
inductive Agrees (item : Item) (index : Nat) : Session → Prop
  | unstarted : Agrees item index (.new index)
  | started {a : Answer} {done : List (List Answer)} {answers : List Answer} {l : Layer} {state : State} :
      (item.branch a).Leads done l → Fits l done.length answers state →
      Agrees item index ⟨index, .on a done answers, state⟩

theorem Agrees.index_eq {item : Item} {index : Nat} {s : Session} (h : s.Agrees item index) :
    s.index = index := by
  cases h <;> rfl

/-! ## Accepted events -/

/-- What an accepted event makes of a session. -/
inductive Change (item : Item) (s : Session) : SessionEvent → Session → Prop
  | none {e : SessionEvent} : Change item s e s
  | restart {a : Answer} {t : Session} :
      s.trail.main ≠ some a → Lands item s.index (.on a [] []) t → Change item s (.main a) t
  | entry {a x : Answer} {done : List (List Answer)} {answers : List Answer} {l : Layer} {k : Nat} {t : Session} :
      s.trail = .on a done answers → (item.branch a).Leads done l → k < l.questions.length →
      k ≤ answers.length → answers[k]? ≠ some x → Lands item s.index (.on a done (put answers k x)) t →
      Change item s (.sub done.length k x) t
  | revision {selection : Selection} {k : Nat} {b : Bool} :
      s.state.selection? = some selection → k ∈ selection.indices →
      Change item s (.toggle k b) { s with state := .ofSelection (selection.set k b) }

theorem answerMain_change {item : Item} {s : Session} {a : Answer} {step : SessionStep}
    (h : s.answerMain item a = .ok step) : Change item s (.main a) step.session := by
  unfold answerMain at h
  by_cases hm : s.trail.main = some a
  · rw [if_pos hm] at h
    cases h
    exact .none
  · rw [if_neg hm] at h
    exact .restart hm (lands_iff.2 ⟨step, h, rfl⟩)

theorem answerSub_change {item : Item} {s : Session} {index depth k : Nat} {x : Answer} {step : SessionStep}
    (hs : s.Agrees item index) (h : s.answerSub item depth k x = .ok step) :
    Change item s (.sub depth k x) step.session := by
  cases hs with
  | unstarted => cases h
  | @started a done answers l state hl hf =>
    rw [answerSub_on hl.descend] at h
    by_cases hd : depth = done.length
    · -- The active layer takes the next answer, or another one for a question answered before.
      subst hd
      by_cases h0 : l.questions.length = 0
      · simp [h0] at h
      by_cases hk : l.questions.length ≤ k
      · simp [h0, hk] at h
      by_cases hc : answers.length < k
      · simp [h0, hk, hc] at h
      by_cases hx : answers[k]? = some x
      · simp only [ne_eq, not_true_eq_false, if_false, h0, hk, hc, hx, if_true] at h
        cases h
        exact .none
      · simp only [ne_eq, not_true_eq_false, if_false, h0, hk, hc, hx] at h
        have ht := lands_iff.2 ⟨step, h, rfl⟩
        exact .entry rfl hl (Nat.lt_of_not_le hk) (Nat.le_of_not_lt hc) hx ht
    · -- A layer that was left takes only what it has been told already.
      rw [if_pos hd] at h
      by_cases hr : repeatsLeft ⟨index, .on a done answers, state⟩ depth k x = true
      · rw [if_pos hr] at h
        cases h
        exact .none
      · rw [if_neg hr] at h
        cases h

/-- A candidate that is offered can be picked and dropped. -/
theorem toggle_offered {s : Session} {selection : Selection} {k : Nat} (hs : s.state.selection? = some selection)
    (hk : k ∈ selection.indices) (b : Bool) :
    s.toggle k b =
      .ok ⟨{ s with state := .ofSelection (selection.set k b) },
        [.selectionChanged s.index (State.ofSelection (selection.set k b)).name (selection.set k b).standing]⟩ := by
  have hok : selection.toggle k b = .ok (selection.set k b) := Selection.toggle_ok.2 ⟨hk, rfl⟩
  simp only [toggle, hs, hok]

theorem toggle_change {item : Item} {s : Session} {k : Nat} {b : Bool} {step : SessionStep}
    (h : s.toggle k b = .ok step) : Change item s (.toggle k b) step.session := by
  unfold toggle at h
  cases hs : s.state.selection? with
  | none => simp [hs] at h
  | some selection =>
    cases ht : selection.toggle k b with
    | error e => simp [hs, ht] at h
    | ok revised =>
      simp only [hs, ht] at h
      cases h
      obtain ⟨hk, rfl⟩ := Selection.toggle_ok.1 ht
      exact .revision hs hk

theorem take_change {item : Item} {s : Session} {index : Nat} {e : SessionEvent} {step : SessionStep}
    (hs : s.Agrees item index) (h : s.take item e = .ok step) : Change item s e step.session := by
  cases e with
  | main a => exact answerMain_change h
  | sub depth k x => exact answerSub_change hs h
  | toggle k b => exact toggle_change h

/-! ## Agreement is kept -/

/-- Wherever a session lands, it agrees with its trail. -/
theorem lands_agrees {item : Item} {index : Nat} {a : Answer} {done : List (List Answer)} {answers : List Answer}
    {l : Layer} {s : Session} (hl : (item.branch a).Leads done l) (h : Lands item index (.on a done answers) s) :
    s.Agrees item index := by
  rcases lands_cases hl h with ⟨hlt, rfl⟩ | ⟨v, hs, rfl⟩ | ⟨hs, rfl⟩ | ⟨next, hs, hn, h'⟩
  · exact .started hl (.waiting hlt)
  · exact .started hl (.decided hs)
  · rw [← Selection.cleared_start l.questions answers, ← State.ofSelection_cleared]
    exact .started hl (.selection hs (by rw [Selection.cleared_cleared, Selection.cleared_start]))
  · -- The next layer has no answers, so it does not lead on in its turn.
    rcases lands_entered (hl.snoc hs hn) h' with ⟨rfl, hq⟩ | ⟨v, rfl, hv⟩
    · exact .started (hl.snoc hs hn) (.waiting (List.length_pos_of_ne_nil hq))
    · exact .started (hl.snoc hs hn) (.decided hv)

theorem Change.agrees {item : Item} {s t : Session} {index : Nat} {e : SessionEvent}
    (hs : s.Agrees item index) (h : Change item s e t) : t.Agrees item index := by
  have hi := hs.index_eq
  cases h with
  | none => exact hs
  | restart _ ht => exact lands_agrees (.here _) (hi ▸ ht)
  | entry _ hl _ _ _ ht => exact lands_agrees hl (hi ▸ ht)
  | @revision selection k b hsel _ =>
    -- The trail stays, and so do the candidates; only picks change.
    cases hs with
    | unstarted => cases hsel
    | @started a done answers l state hl hf =>
      refine .started hl ?_
      cases hf with
      | waiting hlt => simp at hsel
      | decided hv => cases hsel
      | @selection sel hamb hc =>
        simp only [State.selection?_ofSelection, Option.some.injEq] at hsel
        subst hsel
        exact .selection hamb (by rw [Selection.cleared_set, hc])

theorem after_agrees {item : Item} {s : Session} {index : Nat} (h : s.Agrees item index) (e : SessionEvent) :
    (s.after item e).Agrees item index :=
  after_induction h fun _ hstep => (take_change h hstep).agrees h

/-- Every session that is reached agrees with its trail. -/
theorem run_agrees (item : Item) (index : Nat) (es : List SessionEvent) :
    ((new index).run item es).Agrees item index :=
  run_induction (P := fun s => s.Agrees item index) (fun _ e h => after_agrees h e) .unstarted es

end Session

/-! ## The state, read off the trail -/

namespace Fits
variable {l : Layer} {depth : Nat} {answers : List Answer} {state : State}

theorem not_unstarted (h : Fits l depth answers state) : state ≠ .unstarted := by
  rintro rfl
  generalize hst : State.unstarted = state at h
  cases h with
  | waiting => rcases State.waiting_eq depth answers with h | h <;> rw [h.1] at hst <;> cases hst
  | decided => cases hst
  | @selection sel => rcases State.ofSelection_eq sel with h | ⟨v, h⟩ <;> rw [h] at hst <;> cases hst

theorem mainAnswered_iff (h : Fits l depth answers state) :
    state = .mainAnswered ↔ depth = 0 ∧ l.questions ≠ [] ∧ answers = [] := by
  -- Once a layer is complete, it asks nothing or something has been answered.
  have complete : answers.length = l.questions.length → ¬(depth = 0 ∧ l.questions ≠ [] ∧ answers = []) := by
    rintro hlen ⟨-, hq, rfl⟩
    exact hq (List.eq_nil_of_length_eq_zero hlen.symm)
  cases h with
  | waiting hlt =>
    have hq : l.questions ≠ [] := List.ne_nil_of_length_pos (Nat.lt_of_le_of_lt (Nat.zero_le _) hlt)
    rcases State.waiting_eq depth answers with ⟨hw, hd, ha⟩ | ⟨hw, hn⟩
    · exact iff_of_true hw ⟨hd, hq, ha⟩
    · simp only [hw, reduceCtorEq, false_iff]
      exact fun h => hn ⟨h.1, h.2.2⟩
  | decided hs => simpa using complete hs.1
  | @selection sel hs _ =>
    rcases State.ofSelection_eq sel with h | ⟨v, h⟩ <;> rw [h] <;> simpa using complete hs.1

theorem inProgress_iff (h : Fits l depth answers state) :
    state = .inProgress ↔ answers.length < l.questions.length ∧ ¬(depth = 0 ∧ answers = []) := by
  have complete : answers.length = l.questions.length →
      ¬(answers.length < l.questions.length ∧ ¬(depth = 0 ∧ answers = [])) := fun hlen h => by omega
  cases h with
  | waiting hlt =>
    rcases State.waiting_eq depth answers with ⟨hw, hd, ha⟩ | ⟨hw, hn⟩
    · exact iff_of_false (by simp [hw]) (fun h => h.2 ⟨hd, ha⟩)
    · exact iff_of_true hw ⟨hlt, hn⟩
  | decided hs => simpa using complete hs.1
  | @selection sel hs _ =>
    rcases State.ofSelection_eq sel with h | ⟨v, h⟩ <;> rw [h] <;> simpa using complete hs.1

theorem decided_iff (h : Fits l depth answers state) (v : Verdict) :
    state = .resolved v none ↔ l.Says answers (.found (.decided v)) := by
  cases h with
  | waiting hlt =>
    have hn : ¬ l.Says answers (.found (.decided v)) := fun hs => by have := hs.1; omega
    rcases State.waiting_eq depth answers with h | h <;> rw [h.1] <;> simpa using hn
  | @decided w hs =>
    refine ⟨fun h => by cases h; exact hs, fun h => ?_⟩
    cases h.unique hs
    rfl
  | @selection sel hs _ =>
    have hn : ¬ l.Says answers (.found (.decided v)) := fun h => by cases h.unique hs
    rcases State.ofSelection_eq sel with h | ⟨w, h⟩ <;> rw [h] <;> simpa using hn

theorem selection_iff (h : Fits l depth answers state) :
    (∃ s, state = .selecting s ∨ ∃ v, state = .resolved v (some s)) ↔ l.Says answers (.found .ambiguous) := by
  cases h with
  | waiting hlt =>
    have hn : ¬ l.Says answers (.found .ambiguous) := fun hs => by have := hs.1; omega
    rcases State.waiting_eq depth answers with h | h <;> rw [h.1] <;> simpa using hn
  | decided hs =>
    have hn : ¬ l.Says answers (.found .ambiguous) := fun h => by cases h.unique hs
    simpa using hn
  | @selection sel hs _ => exact iff_of_true ⟨sel, State.ofSelection_eq sel⟩ hs

/-- A selection offers what the answers at hand make it offer, and decides the state. -/
theorem of_selection (h : Fits l depth answers state) {s : Selection} (hs : state.selection? = some s) :
    s.cleared = .start l.questions answers ∧ state = .ofSelection s := by
  cases h with
  | waiting hlt => simp at hs
  | decided _ => cases hs
  | @selection sel _ hc =>
    simp only [State.selection?_ofSelection, Option.some.injEq] at hs
    subst hs
    exact ⟨hc, rfl⟩

end Fits

namespace Session

/-- A session whose main answer is `a` and whose active layer is `l`, in the state in which the evaluator
leaves it. -/
structure Evaluated (item : Item) (s : Session) (a : Answer) (depth : Nat) (l : Layer) : Prop where
  main : s.trail.main = some a
  layer : s.trail.layer? = some ⟨a, depth⟩
  completed : s.trail.completed.length = depth
  /-- Every layer above asks questions, which are all answered, and leads on. -/
  left : ∀ k < depth, ∃ m answers, (item.branch a).descend k = some m ∧ s.trail.completed[k]? = some answers ∧
    m.questions ≠ [] ∧ answers.length = m.questions.length ∧
    evaluate m.condition m.fallback? answers m.questions = .ok .advance
  active : (item.branch a).descend depth = some l
  length_le : s.trail.current.length ≤ l.questions.length
  started : s.state ≠ .unstarted
  mainAnswered : s.state = .mainAnswered ↔ depth = 0 ∧ l.questions ≠ [] ∧ s.trail.current = []
  inProgress : s.state = .inProgress ↔
    s.trail.current.length < l.questions.length ∧ ¬(depth = 0 ∧ s.trail.current = [])
  decided : ∀ v, s.state = .resolved v none ↔ s.trail.current.length = l.questions.length ∧
    evaluate l.condition l.fallback? s.trail.current l.questions = .ok (.found (.decided v))
  selecting : (∃ sel, s.state = .selecting sel ∨ ∃ v, s.state = .resolved v (some sel)) ↔
    s.trail.current.length = l.questions.length ∧
      evaluate l.condition l.fallback? s.trail.current l.questions = .ok (.found .ambiguous)
  candidates : ∀ sel, s.state.selection? = some sel → sel.cleared = .start l.questions s.trail.current

theorem Agrees.evaluated {item : Item} {index : Nat} {s : Session} (h : s.Agrees item index) :
    (s.trail = .empty ∧ s.state = .unstarted) ∨ ∃ a depth l, Evaluated item s a depth l := by
  cases h with
  | unstarted => exact .inl ⟨rfl, rfl⟩
  | @started a done answers l state hl hf =>
    right
    refine ⟨a, done.length, l, rfl, rfl, rfl, fun k hk => ?_, hl.descend, hf.length_le, hf.not_unstarted,
      hf.mainAnswered_iff, hf.inProgress_iff, hf.decided_iff, hf.selection_iff, fun sel hs => (hf.of_selection hs).1⟩
    obtain ⟨m, hm, hs⟩ := hl.left hk
    exact ⟨m, done[k], hm, List.getElem?_eq_getElem hk, hs.leads_on.1, hs⟩

/-- In every state that a session reaches, nothing is recorded or the state is what the evaluator says about
the trail, whatever events came and however the item is built. -/
theorem state_as_evaluated (item : Item) (index : Nat) (es : List SessionEvent) :
    (((new index).run item es).trail = .empty ∧ ((new index).run item es).state = .unstarted) ∨
    ∃ a depth l, Evaluated item ((new index).run item es) a depth l :=
  (run_agrees item index es).evaluated

end Session

end Appraisal
