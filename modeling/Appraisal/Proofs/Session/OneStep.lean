import Appraisal.Proofs.Walk
import Appraisal.Session
/-!
# One step at most

A walk goes on as long as layers lead on, and a session that moves fills up the layers in between. But only answers can
lead on, and the walk has none for a second step: it rests where it starts or on the next layer (`StepsOnce`). So an
advance never leads past the end of a chain, and a session never skips a layer (`Moves`). Nothing is assumed of the
layers for this, not even that they can be judged.
-/

namespace Appraisal

namespace Layer

/-! ## The walk as a loop -/

/-- The walk as a loop of at most `n` rounds, each of which looks at one layer. There is no result while the walk has
not come to rest. -/
def walk : Nat → Layer → Nat → List Answer → Option (Except EvaluationError Settled)
  | 0, _, _, _ => none
  | n + 1, l, depth, answers =>
    match l.resolve answers with
    | .error e => some (.error e)
    | .ok (.awaiting index) => some (.ok (.awaiting depth index))
    | .ok (.found f) => some (.ok (.found depth f))
    | .ok (.advance next) => walk n next (depth + 1) []

/-- A look at one layer, where an advance past the end of the chain has the result `exhausted`. -/
def look (exhausted : Except EvaluationError Resolution) (l : Layer) (answers : List Answer) :
    Except EvaluationError Resolution :=
  if l.questions.length < answers.length then
    .error (.tooManyAnswers answers.length l.questions.length)
  else if answers.length < l.questions.length then
    .ok (.awaiting answers.length)
  else
    match evaluate l.condition l.fallback? answers l.questions, l.next? with
    | .error e, _ => .error e
    | .ok (.found f), _ => .ok (.found f)
    | .ok .advance, some next => .ok (.advance next)
    | .ok .advance, none => exhausted

theorem resolve_eq_look (l : Layer) (answers : List Answer) :
    l.resolve answers = l.look (.ok (.found (.decided .fail))) answers :=
  rfl

/-- Nothing comes of an advance past the end of the chain, because there is none. -/
theorem look_eq (exhausted : Except EvaluationError Resolution) (l : Layer) (answers : List Answer) :
    l.look exhausted answers = l.resolve answers := by
  unfold look resolve
  split
  · rfl
  split
  · rfl
  cases he : evaluate l.condition l.fallback? answers l.questions with
  | error e => rfl
  | ok o =>
    cases o with
    | found f => rfl
    | advance =>
      have hs : l.Says answers .advance := ⟨by omega, he⟩
      obtain ⟨-, next, hn⟩ := hs.leads_on
      rw [hn]

/-- A round in which nothing leads on is the last one. -/
theorem walk_succ_of_rests {l : Layer} {answers : List Answer} (h : ∀ next, l.resolve answers ≠ .ok (.advance next))
    (n depth : Nat) : l.walk (n + 1) depth answers = some (l.settle depth answers) := by
  unfold walk settle
  cases hr : l.resolve answers with
  | error e => rfl
  | ok r =>
    cases r with
    | awaiting index => rfl
    | found f => rfl
    | advance next => exact absurd hr (h next)

/-- Without answers nothing leads on. -/
theorem resolve_nil_ne (l next : Layer) : l.resolve [] ≠ .ok (.advance next) := by
  intro h
  rcases resolve_cases h with ⟨-, hr⟩ | ⟨f, -, hr⟩ | ⟨_, hs, -, -⟩
  · cases hr
  · cases hr
  · obtain ⟨-, v, hv⟩ := hs.of_nil
    cases hv

theorem walk_eq_settle (n : Nat) (l : Layer) (depth : Nat) (answers : List Answer) :
    l.walk (n + 2) depth answers = some (l.settle depth answers) := by
  by_cases h : ∃ next, l.resolve answers = .ok (.advance next)
  · obtain ⟨next, hr⟩ := h
    rcases resolve_cases hr with ⟨-, hr'⟩ | ⟨f, -, hr'⟩ | ⟨_, hs, hn, hr'⟩
    · cases hr'
    · cases hr'
    · cases hr'
      rw [settle_advance depth hs hn, walk, hr]
      exact walk_succ_of_rests next.resolve_nil_ne n (depth + 1)
  · exact walk_succ_of_rests (not_exists.1 h) (n + 1) depth

/-! ## Where the walk rests -/

/-- The walk from `l`, which stands at `depth`, takes no step or one. -/
structure StepsOnce (l : Layer) (depth : Nat) (answers : List Answer) : Prop where
  /-- The loop comes to rest in its second round, if not in its first. -/
  rests : ∀ n, l.walk (n + 2) depth answers = some (l.settle depth answers)
  near : ∀ settled, l.settle depth answers = .ok settled → settled.depth = depth ∨ settled.depth = depth + 1
  steps_iff : ∀ settled, l.settle depth answers = .ok settled →
    (settled.depth = depth + 1 ↔ l.questions ≠ [] ∧ answers.length = l.questions.length ∧
      evaluate l.condition l.fallback? answers l.questions = .ok .advance)
  /-- After a step the next layer waits for its first answer, or has a direct verdict. -/
  lands : ∀ settled, l.settle depth answers = .ok settled → settled.depth = depth + 1 →
    ∃ next, l.next? = some next ∧ next.settle (depth + 1) [] = .ok settled ∧
      ((next.questions ≠ [] ∧ settled = .awaiting (depth + 1) 0) ∨
        (next.questions = [] ∧ ∃ v, next.condition = .direct v ∧ settled = .found (depth + 1) (.decided v)))

/-- Where a layer without answers rests. -/
theorem settle_nil_depth {l : Layer} {depth : Nat} {settled : Settled} (h : l.settle depth [] = .ok settled) :
    (l.questions ≠ [] ∧ settled = .awaiting depth 0) ∨
      (l.questions = [] ∧ ∃ v, l.condition = .direct v ∧ settled = .found depth (.decided v)) := by
  rcases settle_nil h with h | ⟨v, hs, rfl⟩
  · exact .inl h
  · obtain ⟨v', hc, hv⟩ := evaluate_nil hs.2
    cases hv
    exact .inr ⟨hs.of_nil.1, v, hc, rfl⟩

theorem stepsOnce (l : Layer) (depth : Nat) (answers : List Answer) : StepsOnce l depth answers := by
  -- The three ways in which a walk goes, and how deep it gets in each of them.
  have hcases : ∀ {settled}, l.settle depth answers = .ok settled →
      (settled.depth = depth ∧ ¬l.Says answers .advance) ∨
        (settled.depth = depth + 1 ∧ l.Says answers .advance ∧
          ∃ next, l.next? = some next ∧ next.settle (depth + 1) [] = .ok settled) := by
    intro settled h
    rcases settle_cases h with ⟨hlt, rfl⟩ | ⟨f, hs, rfl⟩ | ⟨next, hs, hn, hnext⟩
    · exact .inl ⟨rfl, fun hs => by have := hs.1; omega⟩
    · exact .inl ⟨rfl, fun hs' => by cases hs.unique hs'⟩
    · refine .inr ⟨?_, hs, next, hn, hnext⟩
      rcases settle_nil hnext with ⟨-, rfl⟩ | ⟨v, -, rfl⟩ <;> rfl
  constructor
  · exact fun n => walk_eq_settle n l depth answers
  · intro settled h
    exact (hcases h).imp And.left And.left
  · intro settled h
    rcases hcases h with ⟨hd, hs⟩ | ⟨hd, hs, -⟩
    · exact iff_of_false (by omega) fun ⟨_, hs'⟩ => hs hs'
    · exact iff_of_true hd ⟨hs.leads_on.1, hs⟩
  · intro settled h hd
    rcases hcases h with ⟨hd', -⟩ | ⟨-, -, next, hn, hnext⟩
    · omega
    · exact ⟨next, hn, hnext, settle_nil_depth hnext⟩

end Layer

/-! ## Sessions that move -/

/-- A session moves from `place` to where the walk rests: it stays, or it leaves one layer, with the answers given
there, for the next one. There is no layer in between. -/
structure Moves (s : Session) (place : LayerRef) (settled : Settled) : Prop where
  between : List.range' (place.depth + 1) (settled.depth - (place.depth + 1)) = []
  stays : settled.depth = place.depth → (s.moveTo place settled.depth).session = s
  leaves : settled.depth ≠ place.depth → s.trail.current ≠ [] ∧ (s.moveTo place settled.depth).session =
    { s with trail :=
      { s.trail with
        completed := s.trail.completed ++ [s.trail.current]
        current := []
        layer? := some { place with depth := place.depth + 1 } } }

theorem Session.moves {s : Session} {place : LayerRef} {l : Layer} {settled : Settled}
    (h : l.settle place.depth s.trail.current = .ok settled) : Moves s place settled := by
  have hsteps := l.stepsOnce place.depth s.trail.current
  have hnear := hsteps.near settled h
  constructor
  · rw [List.range'_eq_nil_iff]
    omega
  · intro hd
    rw [hd, moveTo, if_neg (Nat.lt_irrefl _), unchanged]
  · intro hd
    have hd : settled.depth = place.depth + 1 := by omega
    obtain ⟨hq, hlen, -⟩ := (hsteps.steps_iff settled h).1 hd
    refine ⟨fun hnil => ?_, ?_⟩
    · rw [hnil] at hlen
      exact hq (List.eq_nil_of_length_eq_zero hlen.symm)
    · rw [hd, moveTo, if_pos (Nat.lt_succ_self _), Trail.leaveFor, Nat.add_sub_cancel_left]
      rfl

/-- Whatever the layers are, a walk takes one step at most. So an advance never leads past the end of a chain, whatever
were to come of it, and a session never skips a layer. -/
theorem walks_take_one_step :
    (∀ l depth answers, Layer.StepsOnce l depth answers) ∧
      (∀ exhausted l answers, Layer.look exhausted l answers = l.resolve answers) ∧
      ∀ (s : Session) (item : Item) place l settled, s.trail.layer? = some place → s.activeLayer item = .ok l →
        l.settle place.depth s.trail.current = .ok settled → Moves s place settled :=
  ⟨Layer.stepsOnce, Layer.look_eq, fun _ _ _ _ _ _ _ h => Session.moves h⟩

end Appraisal
