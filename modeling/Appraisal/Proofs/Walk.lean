import Appraisal.Resolution
/-!
# Where a walk comes to rest

`Layer.Says` is what the evaluator makes of a complete layer, and `Layer.Leads` follows layers that each lead
on to the next. `settle_cases` lists the ways in which a walk ends: it rests where it starts, or it takes one
step and rests on the next layer, which has no answers yet.
-/

namespace Appraisal

/-! ## The evaluator -/

/-- Without a chain condition nothing leads on. -/
theorem evaluate_alone {c : Condition} {answers : List Answer} {questions : List SubQuestion} :
    evaluate c none answers questions ≠ .ok .advance := by
  intro h
  cases c with
  | direct v => cases h
  | count test =>
    by_cases hn : answers.isEmpty = true
    · simp [evaluate, hn] at h
    · by_cases ht : test.holds (Tally.of answers) = true <;> simp [evaluate, hn, countOutcome, ht] at h
  | byExample =>
    by_cases hn : answers.isEmpty = true
    · simp [evaluate, hn] at h
    · cases hf : findingByExample answers questions <;> simp [evaluate, hn, hf, Except.map] at h

/-- Only a direct condition judges a layer without answers. -/
theorem evaluate_nil {c : Condition} {chain : Option ChainCondition} {questions : List SubQuestion}
    {outcome : Outcome} (h : evaluate c chain [] questions = .ok outcome) :
    ∃ v, c = .direct v ∧ outcome = .found (.decided v) := by
  cases c with
  | direct v =>
    simp only [evaluate, Except.ok.injEq] at h
    exact ⟨v, rfl, h.symm⟩
  | count test => simp [evaluate] at h
  | byExample => simp [evaluate] at h

/-- Complete answers are judged, by whatever condition. -/
theorem evaluate_total {c : Condition} (chain : Option ChainCondition) {answers : List Answer}
    {questions : List SubQuestion} (hl : answers.length = questions.length)
    (hd : questions = [] → c.isDirect = true) : ∃ outcome, evaluate c chain answers questions = .ok outcome := by
  by_cases hn : answers = []
  · -- Without answers there are no questions either, and then the condition is direct.
    subst hn
    have hq : questions = [] := List.eq_nil_of_length_eq_zero (by simpa using hl.symm)
    cases c with
    | direct v => exact ⟨_, rfl⟩
    | count test => cases hd hq
    | byExample => cases hd hq
  · have he : answers.isEmpty = false := by simpa using hn
    cases c with
    | direct v => exact ⟨_, rfl⟩
    | count test => exact ⟨countOutcome test chain (Tally.of answers), by simp [evaluate, he]⟩
    | byExample =>
      have hf : ∃ f, findingByExample answers questions = .ok f := by
        simp only [findingByExample, if_pos hl]
        split <;> exact ⟨_, rfl⟩
      obtain ⟨f, hf⟩ := hf
      exact ⟨.found f, by simp [evaluate, he, hf, Except.map]⟩

namespace Layer

/-! ## One layer -/

/-- Every question of the layer is answered, and the evaluator makes `outcome` of the answers. -/
def Says (l : Layer) (answers : List Answer) (outcome : Outcome) : Prop :=
  answers.length = l.questions.length ∧ evaluate l.condition l.fallback? answers l.questions = .ok outcome

theorem Says.unique {l : Layer} {answers : List Answer} {o o' : Outcome} (h : l.Says answers o)
    (h' : l.Says answers o') : o = o' := by
  simpa using h.2.symm.trans h'.2

/-- What a layer says without answers is a verdict. -/
theorem Says.of_nil {l : Layer} {o : Outcome} (h : l.Says [] o) :
    l.questions = [] ∧ ∃ v, o = .found (.decided v) := by
  obtain ⟨v, -, rfl⟩ := evaluate_nil h.2
  exact ⟨List.eq_nil_of_length_eq_zero h.1.symm, v, rfl⟩

theorem Says.asks {l : Layer} {answers : List Answer} {o : Outcome} (h : l.Says answers o)
    (ho : ∀ v, o ≠ .found (.decided v)) : l.questions ≠ [] := by
  intro hq
  have hn : answers = [] := List.eq_nil_of_length_eq_zero (by rw [h.1, hq]; rfl)
  subst hn
  obtain ⟨-, v, rfl⟩ := h.of_nil
  exact ho v rfl

/-- A layer that leads on has questions and a next layer. -/
theorem Says.leads_on {l : Layer} {answers : List Answer} (h : l.Says answers .advance) :
    l.questions ≠ [] ∧ ∃ next, l.next? = some next := by
  refine ⟨h.asks (fun v hv => by cases hv), ?_⟩
  cases l with
  | last qs c => exact absurd h.2 evaluate_alone
  | chained qs c f next => exact ⟨next, rfl⟩

theorem resolve_awaiting {l : Layer} {answers : List Answer} (h : answers.length < l.questions.length) :
    l.resolve answers = .ok (.awaiting answers.length) := by
  simp [resolve, h, Nat.not_lt_of_lt h]

theorem resolve_found {l : Layer} {answers : List Answer} {f : Finding} (h : l.Says answers (.found f)) :
    l.resolve answers = .ok (.found f) := by
  simp [resolve, h.1, h.2]

theorem resolve_advance {l next : Layer} {answers : List Answer} (h : l.Says answers .advance)
    (hn : l.next? = some next) : l.resolve answers = .ok (.advance next) := by
  simp [resolve, h.1, h.2, hn]

/-- A layer waits, or has a finding, or leads on. -/
theorem resolve_cases {l : Layer} {answers : List Answer} {r : Resolution} (h : l.resolve answers = .ok r) :
    (answers.length < l.questions.length ∧ r = .awaiting answers.length) ∨
    (∃ f, l.Says answers (.found f) ∧ r = .found f) ∨
    (∃ next, l.Says answers .advance ∧ l.next? = some next ∧ r = .advance next) := by
  by_cases hgt : l.questions.length < answers.length
  · simp [resolve, hgt] at h
  by_cases hlt : answers.length < l.questions.length
  · rw [resolve_awaiting hlt] at h
    exact .inl ⟨hlt, by simpa using h.symm⟩
  -- Every question is answered, so the evaluator has the word.
  have hlen : answers.length = l.questions.length := by omega
  cases he : evaluate l.condition l.fallback? answers l.questions with
  | error e => simp [resolve, hgt, hlt, he] at h
  | ok o =>
    have hs : l.Says answers o := ⟨hlen, he⟩
    cases o with
    | found f =>
      rw [resolve_found hs] at h
      exact .inr (.inl ⟨f, hs, by simpa using h.symm⟩)
    | advance =>
      obtain ⟨-, next, hn⟩ := hs.leads_on
      rw [resolve_advance hs hn] at h
      exact .inr (.inr ⟨next, hs, hn, by simpa using h.symm⟩)

/-! ## Walks -/

theorem settle_awaiting {l : Layer} (depth : Nat) {answers : List Answer}
    (h : answers.length < l.questions.length) :
    l.settle depth answers = .ok (.awaiting depth answers.length) := by
  unfold settle
  rw [resolve_awaiting h]

theorem settle_found {l : Layer} (depth : Nat) {answers : List Answer} {f : Finding}
    (h : l.Says answers (.found f)) : l.settle depth answers = .ok (.found depth f) := by
  unfold settle
  rw [resolve_found h]

theorem settle_advance {l next : Layer} (depth : Nat) {answers : List Answer} (h : l.Says answers .advance)
    (hn : l.next? = some next) : l.settle depth answers = next.settle (depth + 1) [] := by
  conv => lhs; unfold settle
  rw [resolve_advance h hn]
  cases l with
  | last qs c => cases hn
  | chained qs c f m => cases hn; rfl

/-- A walk rests where it starts, or goes on from the next layer. -/
theorem settle_cases {l : Layer} {depth : Nat} {answers : List Answer} {settled : Settled}
    (h : l.settle depth answers = .ok settled) :
    (answers.length < l.questions.length ∧ settled = .awaiting depth answers.length) ∨
    (∃ f, l.Says answers (.found f) ∧ settled = .found depth f) ∨
    (∃ next, l.Says answers .advance ∧ l.next? = some next ∧ next.settle (depth + 1) [] = .ok settled) := by
  cases hr : l.resolve answers with
  | error e =>
    unfold settle at h
    simp [hr] at h
  | ok r =>
    rcases resolve_cases hr with ⟨hlt, -⟩ | ⟨f, hs, -⟩ | ⟨next, hs, hn, -⟩
    · rw [settle_awaiting depth hlt] at h
      exact .inl ⟨hlt, by simpa using h.symm⟩
    · rw [settle_found depth hs] at h
      exact .inr (.inl ⟨f, hs, by simpa using h.symm⟩)
    · rw [settle_advance depth hs hn] at h
      exact .inr (.inr ⟨next, hs, hn, h⟩)

/-- A walk from a layer without answers rests there: nothing has been answered that could lead on. -/
theorem settle_nil {l : Layer} {depth : Nat} {settled : Settled} (h : l.settle depth [] = .ok settled) :
    (l.questions ≠ [] ∧ settled = .awaiting depth 0) ∨
    (∃ v, l.Says [] (.found (.decided v)) ∧ settled = .found depth (.decided v)) := by
  rcases settle_cases h with ⟨hlt, rfl⟩ | ⟨f, hs, rfl⟩ | ⟨next, hs, -, -⟩
  · exact .inl ⟨List.ne_nil_of_length_pos hlt, rfl⟩
  · obtain ⟨-, v, hv⟩ := hs.of_nil
    cases hv
    exact .inr ⟨v, hs, rfl⟩
  · obtain ⟨-, v, hv⟩ := hs.of_nil
    cases hv

/-! ## Layers left behind -/

/-- The answers of `done` lead from `root` down to `l`, layer by layer. -/
inductive Leads : Layer → List (List Answer) → Layer → Prop
  | here (l : Layer) : Leads l [] l
  | on {root next l : Layer} {answers : List Answer} {done : List (List Answer)} :
      root.Says answers .advance → root.next? = some next → Leads next done l → Leads root (answers :: done) l

theorem Leads.snoc {root l next : Layer} {done : List (List Answer)} {answers : List Answer}
    (h : Leads root done l) (hs : l.Says answers .advance) (hn : l.next? = some next) :
    Leads root (done ++ [answers]) next := by
  induction h with
  | here l => exact .on hs hn (.here next)
  | on hr hm _ ih => exact .on hr hm (ih hs hn)

theorem descend_succ {l next : Layer} (h : l.next? = some next) (depth : Nat) :
    l.descend (depth + 1) = next.descend depth := by
  cases l with
  | last qs c => cases h
  | chained qs c f m => cases h; rfl

theorem descend_zero (l : Layer) : l.descend 0 = some l := by
  cases l <;> rfl

theorem Leads.descend {root l : Layer} {done : List (List Answer)} (h : Leads root done l) :
    root.descend done.length = some l := by
  induction h with
  | here l => exact l.descend_zero
  | on _ hn _ ih => rw [List.length_cons, descend_succ hn, ih]

/-- Every layer on the way is complete and leads on. -/
theorem Leads.left {root l : Layer} {done : List (List Answer)} (h : Leads root done l) {k : Nat}
    (hk : k < done.length) : ∃ m, root.descend k = some m ∧ m.Says done[k] .advance := by
  induction h generalizing k with
  | here l => simp at hk
  | @on root next l answers done hs hn _ ih =>
    cases k with
    | zero => exact ⟨root, root.descend_zero, hs⟩
    | succ k =>
      obtain ⟨m, hm, hsm⟩ := ih (k := k) (by simpa using hk)
      exact ⟨m, by rw [descend_succ hn, hm], by simpa using hsm⟩

end Layer

end Appraisal
