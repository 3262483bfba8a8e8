import Appraisal.Proofs.Walk
import Appraisal.Session
/-!
# Landing

What `Session.land` makes of a session depends on its trail alone. `Lands` says so, and the lemmas below give
its cases: a session that waits, one with a verdict, one that selects, and one that goes on with the next layer
and lands there without answers.
-/

namespace Appraisal

/-- The trail on the branch of `main` when the layers answered by `completed` are left. -/
def Trail.on (main : Answer) (completed : List (List Answer)) (current : List Answer) : Trail :=
  ⟨some main, completed, current, some ⟨main, completed.length⟩⟩

/-- The answers when question `k` is answered by `x`: the next one, or one given before. -/
def put (answers : List Answer) (k : Nat) (x : Answer) : List Answer :=
  if k = answers.length then answers ++ [x] else answers.set k x

section On
variable (a : Answer) (done : List (List Answer)) (answers : List Answer)

@[simp] theorem Trail.on_main : (Trail.on a done answers).main = some a := rfl

@[simp] theorem Trail.on_completed : (Trail.on a done answers).completed = done := rfl

@[simp] theorem Trail.on_current : (Trail.on a done answers).current = answers := rfl

@[simp] theorem Trail.on_depth : (Trail.on a done answers).depth = done.length := rfl

@[simp] theorem Trail.on_cursor : (Trail.on a done answers).cursor = answers.length := rfl

@[simp] theorem Trail.on_full_nil : (Trail.on a done []).full = done := rfl

variable {answers} in
theorem Trail.on_full (h : answers ≠ []) : (Trail.on a done answers).full = done ++ [answers] := by
  simp [Trail.full, h]

theorem Trail.on_answer (k : Nat) (x : Answer) :
    (Trail.on a done answers).answer k x = .on a done (put answers k x) := by
  by_cases h : k = answers.length <;> simp [Trail.answer, Trail.cursor, put, Trail.on, h]

end On

/-- The state of an item that waits for the next answer of the layer at `depth`. -/
def State.waiting (depth : Nat) (answers : List Answer) : State :=
  if depth = 0 ∧ answers = [] then .mainAnswered else .inProgress

namespace Session

/-- Landing with the trail `t` makes the session `s`. -/
def Lands (item : Item) (index : Nat) (t : Trail) (s : Session) : Prop :=
  (land ⟨index, t, .unstarted⟩ item).map SessionStep.session = .ok s

theorem Lands.unique {item : Item} {index : Nat} {t : Trail} {s s' : Session} (h : Lands item index t s)
    (h' : Lands item index t s') : s = s' := by
  simpa using h.symm.trans h'

/-- The state before does not matter. -/
theorem land_unstarted (s : Session) (item : Item) : s.land item = land ⟨s.index, s.trail, .unstarted⟩ item := by
  unfold land
  cases h : s.trail.layer? with
  | none => rfl
  | some place =>
    have ha : (⟨s.index, s.trail, .unstarted⟩ : Session).activeLayer item = s.activeLayer item := rfl
    simp only [ha]
    cases s.activeLayer item with
    | error e => rfl
    | ok l =>
      -- Neither the walk nor the move that follows looks at the state.
      cases hs : l.settle place.depth s.trail.current with
      | error e => simp [hs]
      | ok settled =>
        simp only [hs, moveTo, unchanged]
        by_cases hm : place.depth < settled.depth
        · simp only [if_pos hm]
          rfl
        · simp only [if_neg hm]
          rfl

theorem lands_iff {s s' : Session} {item : Item} :
    Lands item s.index s.trail s' ↔ ∃ step, s.land item = .ok step ∧ step.session = s' := by
  unfold Lands
  rw [← land_unstarted]
  cases s.land item with
  | error e => simp [Except.map]
  | ok step => simp [Except.map]

section On
variable {item : Item} {index : Nat} {a : Answer} {done : List (List Answer)} {answers : List Answer} {l : Layer}

theorem activeLayer_on (hl : (item.branch a).descend done.length = some l) (state : State) :
    activeLayer ⟨index, .on a done answers, state⟩ item = .ok l := by
  simp [activeLayer, Trail.activeLayer, LayerRef.layer, Trail.on, hl]

/-- Answering a question, when the active layer is `l`. -/
theorem answerSub_on (hl : (item.branch a).descend done.length = some l) (state : State) (depth k : Nat)
    (x : Answer) :
    answerSub ⟨index, .on a done answers, state⟩ item depth k x =
      if depth ≠ done.length then
        if repeatsLeft ⟨index, .on a done answers, state⟩ depth k x then
          .ok (unchanged ⟨index, .on a done answers, state⟩)
        else .error (.inactiveLayer index depth done.length)
      else if l.questions.length = 0 then .error (.noActiveLayer index)
      else if l.questions.length ≤ k then .error (.subIndexOutOfRange index k l.questions.length)
      else if answers.length < k then .error (.outOfSequence index k answers.length)
      else if answers[k]? = some x then .ok (unchanged ⟨index, .on a done answers, state⟩)
      else land ⟨index, .on a done (put answers k x), state⟩ item := by
  simp only [answerSub, activeLayer_on hl, Trail.on_answer, Trail.on_current, Trail.on_depth, Trail.on_cursor]

/-- Landing, when the active layer is `l`. -/
theorem land_on (hl : (item.branch a).descend done.length = some l) :
    land ⟨index, .on a done answers, .unstarted⟩ item =
      match l.settle done.length answers with
      | .error e => .error (.evaluation e)
      | .ok settled =>
        let moved := moveTo ⟨index, .on a done answers, .unstarted⟩ ⟨a, done.length⟩ settled.depth
        (moved.session.stateOf item settled).map fun state =>
          ⟨{ moved.session with state := state },
            moved.notices ++ [.itemTransition index state.name moved.session.trail.cursor]⟩ := by
  have hplace : (Trail.on a done answers).layer? = some ⟨a, done.length⟩ := rfl
  cases hs : l.settle done.length answers with
  | error e => simp only [land, hplace, activeLayer_on hl, Trail.on_current, hs]
  | ok settled => simp only [land, hplace, activeLayer_on hl, Trail.on_current, hs]

/-- A walk that rests on the active layer leaves the trail as it is. -/
theorem lands_here (hl : (item.branch a).descend done.length = some l) {settled : Settled} {state : State}
    (hs : l.settle done.length answers = .ok settled) (hd : settled.depth = done.length)
    (hst : stateOf ⟨index, .on a done answers, .unstarted⟩ item settled = .ok state) :
    Lands item index (.on a done answers) ⟨index, .on a done answers, state⟩ := by
  simp [Lands, land_on hl, hs, moveTo, hd, unchanged, hst, Except.map]

theorem lands_awaiting (hl : (item.branch a).descend done.length = some l)
    (h : answers.length < l.questions.length) :
    Lands item index (.on a done answers) ⟨index, .on a done answers, .waiting done.length answers⟩ := by
  refine lands_here hl (l.settle_awaiting done.length h) rfl ?_
  unfold State.waiting stateOf
  by_cases hw : done.length = 0 ∧ answers = []
  · simp [hw.1, hw.2]
  · rw [if_neg hw]
    cases hd : done.length <;> cases ha : answers <;> simp_all

theorem lands_decided (hl : (item.branch a).descend done.length = some l) {v : Verdict}
    (h : l.Says answers (.found (.decided v))) :
    Lands item index (.on a done answers) ⟨index, .on a done answers, .resolved v none⟩ :=
  lands_here hl (l.settle_found done.length h) rfl rfl

theorem lands_ambiguous (hl : (item.branch a).descend done.length = some l)
    (h : l.Says answers (.found .ambiguous)) :
    Lands item index (.on a done answers)
      ⟨index, .on a done answers, .selecting (.start l.questions answers)⟩ := by
  refine lands_here hl (l.settle_found done.length h) rfl ?_
  simp only [stateOf, activeLayer_on hl]
  rfl

/-- A layer that leads on is left, and the next one has no answers. -/
theorem lands_advance {next : Layer} (hl : (item.branch a).Leads done l) (h : l.Says answers .advance)
    (hn : l.next? = some next) {s : Session} :
    Lands item index (.on a done answers) s ↔ Lands item index (.on a (done ++ [answers]) []) s := by
  have hl' := hl.descend
  have hm := (hl.snoc h hn).descend
  have hlen : (done ++ [answers]).length = done.length + 1 := by simp
  simp only [Lands, land_on hl', land_on hm, l.settle_advance done.length h hn, hlen]
  cases hs : next.settle (done.length + 1) [] with
  | error e => rfl
  | ok settled =>
    have hd : settled.depth = done.length + 1 := by
      rcases Layer.settle_nil hs with ⟨-, rfl⟩ | ⟨v, -, rfl⟩ <;> rfl
    have ht : (Trail.on a done answers).leaveFor ⟨a, done.length⟩ (done.length + 1) =
        .on a (done ++ [answers]) [] := by
      simp [Trail.leaveFor, Trail.on]
    simp only [hd, moveTo, Nat.lt_succ_self, if_true, Nat.lt_irrefl, if_false, ht, unchanged]
    cases stateOf ⟨index, .on a (done ++ [answers]) [], .unstarted⟩ item settled <;> rfl

/-- The ways to land. -/
theorem lands_cases (hl : (item.branch a).Leads done l) {s : Session}
    (h : Lands item index (.on a done answers) s) :
    (answers.length < l.questions.length ∧ s = ⟨index, .on a done answers, .waiting done.length answers⟩) ∨
    (∃ v, l.Says answers (.found (.decided v)) ∧ s = ⟨index, .on a done answers, .resolved v none⟩) ∨
    (l.Says answers (.found .ambiguous) ∧
      s = ⟨index, .on a done answers, .selecting (.start l.questions answers)⟩) ∨
    (∃ next, l.Says answers .advance ∧ l.next? = some next ∧
      Lands item index (.on a (done ++ [answers]) []) s) := by
  have hl' := hl.descend
  cases hs : l.settle done.length answers with
  | error e => simp [Lands, land_on hl', hs, Except.map] at h
  | ok settled =>
    rcases Layer.settle_cases hs with ⟨hlt, -⟩ | ⟨f, hf, -⟩ | ⟨next, hadv, hn, -⟩
    · exact .inl ⟨hlt, h.unique (lands_awaiting hl' hlt)⟩
    · cases f with
      | decided v => exact .inr (.inl ⟨v, hf, h.unique (lands_decided hl' hf)⟩)
      | ambiguous => exact .inr (.inr (.inl ⟨hf, h.unique (lands_ambiguous hl' hf)⟩))
    · exact .inr (.inr (.inr ⟨next, hadv, hn, (lands_advance hl hadv hn).1 h⟩))

/-- A session that lands without answers stays where it lands: it waits for answers there, or has a verdict. -/
theorem lands_entered (hl : (item.branch a).Leads done l) {s : Session} (h : Lands item index (.on a done []) s) :
    s = ⟨index, .on a done [], .waiting done.length []⟩ ∧ l.questions ≠ [] ∨
    ∃ v, s = ⟨index, .on a done [], .resolved v none⟩ ∧ l.Says [] (.found (.decided v)) := by
  rcases lands_cases hl h with ⟨hlt, rfl⟩ | ⟨v, hs, rfl⟩ | ⟨hs, -⟩ | ⟨next, hs, -, -⟩
  · exact .inl ⟨rfl, List.ne_nil_of_length_pos hlt⟩
  · exact .inr ⟨v, rfl, hs⟩
  · obtain ⟨-, v, hv⟩ := hs.of_nil
    cases hv
  · obtain ⟨-, v, hv⟩ := hs.of_nil
    cases hv

/-- A session lands with the trail at hand, or leaves the layer for the next one and waits there for answers. -/
theorem lands_trail (hl : (item.branch a).Leads done l) {s : Session}
    (h : Lands item index (.on a done answers) s) :
    s.trail = .on a done answers ∨ s.trail = .on a (done ++ [answers]) [] := by
  rcases lands_cases hl h with ⟨-, rfl⟩ | ⟨v, -, rfl⟩ | ⟨-, rfl⟩ | ⟨next, hs, hn, h'⟩
  · exact .inl rfl
  · exact .inl rfl
  · exact .inl rfl
  · rcases lands_entered (hl.snoc hs hn) h' with ⟨rfl, -⟩ | ⟨v, rfl, -⟩
    · exact .inr rfl
    · exact .inr rfl

theorem lands_main (hl : (item.branch a).Leads done l) {s : Session}
    (h : Lands item index (.on a done answers) s) : s.trail.main = some a := by
  rcases lands_trail hl h with htrail | htrail <;> rw [htrail, Trail.on_main]

end On

end Session

end Appraisal
