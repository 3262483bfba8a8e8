import Appraisal.Proofs.Questionnaire.Refusals
/-!
# Moving about and answering

A visit and an advance change nothing but the current item (`SameButCurrent`), and an answer changes nothing but the
session and the record of the current item (`SameElsewhere`), however many of them are sent and whether they are
accepted or not. Before they go, a visit asks the store about its target and an advance asks the session of the
current item. Since the store follows the sessions, what each of them waits for can be told in terms of the store
(`Gated`).
-/

namespace Appraisal

/-- The event goes to an item and answers nothing. -/
def Event.isMove : Event → Bool
  | .navigate _ => true
  | .advance => true
  | _ => false

@[simp] theorem Event.isMove_ofSession (i : Nat) (f : SessionEvent) : (ofSession i f).isMove = false := by
  cases f <;> rfl

namespace Questionnaire
variable {q q' q'' : Questionnaire}

/-- Nothing differs but the current item. -/
structure SameButCurrent (q q' : Questionnaire) : Prop where
  catalog : q'.catalog = q.catalog
  session : ∀ i, q'.session? i = q.session? i
  record : ∀ i, q'.store.get? i = q.store.get? i
  results : q'.results = q.results

/-- Nothing differs but the session and the record of the current item, and with them its row. -/
structure SameElsewhere (q q' : Questionnaire) : Prop where
  catalog : q'.catalog = q.catalog
  current : q'.current = q.current
  session : ∀ i ≠ q.current, q'.session? i = q.session? i
  record : ∀ i ≠ q.current, q'.store.get? i = q.store.get? i
  row : ∀ i ≠ q.current, q'.results[i]? = q.results[i]?

/-- The move `e` is accepted when `can` holds, and makes `target` the current item. Otherwise it is refused, with the
one error for which there is a reason `why`, and changes nothing. -/
structure Gated (q : Questionnaire) (e : Event) (can : Prop) (why : SessionError → Prop) (target : Nat) : Prop where
  accepted : (∃ t, (q.apply e).result = .ok t) ↔ can
  refused : ∀ error, (q.apply e).result = .error error ↔ why error
  lands : can → q.after e = { q with current := target }
  stays : ¬can → q.after e = q

/-- Why a visit is refused. -/
inductive VisitRefusal (q : Questionnaire) (target : Nat) : SessionError → Prop
  | unknown : q.catalog.items.length ≤ target → VisitRefusal q target (.unknownItem target q.catalog.items.length)
  | unreachable : target < q.catalog.items.length → q.canNavigate target = false →
      VisitRefusal q target (.unreachable target q.current)

/-- The current item has a record, and there is an item behind it. -/
def CanAdvance (q : Questionnaire) : Prop :=
  (∃ r, q.store.get? q.current = some r) ∧ q.current + 1 < q.catalog.items.length

/-- Why an advance is refused. -/
inductive AdvanceRefusal (q : Questionnaire) : SessionError → Prop
  | nowhere : q.catalog.items = [] → AdvanceRefusal q (.unknownItem q.current 0)
  | undecided : q.catalog.items ≠ [] → q.store.get? q.current = none → AdvanceRefusal q (.notResolved q.current)
  | last {r : Record} : q.store.get? q.current = some r → q.catalog.items.length ≤ q.current + 1 →
      AdvanceRefusal q (.endOfCatalog q.current)

/-! ## What stays the same -/

theorem SameButCurrent.refl (q : Questionnaire) : SameButCurrent q q :=
  ⟨rfl, fun _ => rfl, fun _ => rfl, rfl⟩

theorem SameButCurrent.trans (h : SameButCurrent q q') (h' : SameButCurrent q' q'') : SameButCurrent q q'' where
  catalog := h'.catalog.trans h.catalog
  session i := (h'.session i).trans (h.session i)
  record i := (h'.record i).trans (h.record i)
  results := h'.results.trans h.results

theorem SameElsewhere.refl (q : Questionnaire) : SameElsewhere q q :=
  ⟨rfl, rfl, fun _ _ => rfl, fun _ _ => rfl, fun _ _ => rfl⟩

theorem SameElsewhere.trans (h : SameElsewhere q q') (h' : SameElsewhere q' q'') : SameElsewhere q q'' where
  catalog := h'.catalog.trans h.catalog
  current := h'.current.trans h.current
  session i hi := (h'.session i (h.current ▸ hi)).trans (h.session i hi)
  record i hi := (h'.record i (h.current ▸ hi)).trans (h.record i hi)
  row i hi := (h'.row i (h.current ▸ hi)).trans (h.row i hi)

/-- An item with the same session has the same row. -/
theorem Sound.row_congr (h : q.Sound) (h' : q'.Sound) (hc : q'.catalog = q.catalog) {i : Nat}
    (hs : q'.session? i = q.session? i) : q'.results[i]? = q.results[i]? := by
  cases hi : q.catalog.items[i]? with
  | none =>
    have hle : q.catalog.items.length ≤ i := List.getElem?_eq_none_iff.1 hi
    have hlen : q'.results.length = q.catalog.items.length := by rw [h'.results_length, hc]
    rw [List.getElem?_eq_none (hlen ▸ hle), List.getElem?_eq_none (h.results_length.symm ▸ hle)]
  | some item =>
    obtain ⟨s, hqs, hrow⟩ := h.results_eq hi
    obtain ⟨s', hqs', hrow'⟩ := h'.results_eq (hc ▸ hi)
    cases hqs'.symm.trans (hs.trans hqs)
    rw [hrow, hrow']

theorem Effect.same_but_current {e : Event} (he : Effect q e q') (hm : e.isMove = true) : SameButCurrent q q' := by
  cases he with
  | answer _ _ _ => simp at hm
  | visit _ _ => exact ⟨rfl, fun _ => rfl, fun _ => rfl, rfl⟩
  | next _ _ _ => exact ⟨rfl, fun _ => rfl, fun _ => rfl, rfl⟩

theorem Effect.same_elsewhere {e : Event} (h : q.Sound) (he : Effect q e q') (hm : e.isMove = false) :
    SameElsewhere q q' := by
  have h' := he.sound h
  cases he with
  | @answer _ _ _ step hi hs _ =>
    have hlt := (List.getElem?_eq_some_iff.1 hs).1
    have hsession : ∀ i ≠ q.current, (q.putSession q.current step.session).session? i = q.session? i :=
      fun i hne => session?_putSession_ne q (Ne.symm hne) _
    refine ⟨putSession_catalog _ _ _, putSession_current _ _ _, hsession, fun i hne => ?_, fun i hne => ?_⟩
    · rw [get?_putSession hi hlt, if_neg hne]
    · exact h.row_congr h' (putSession_catalog _ _ _) (hsession i hne)
  | visit _ _ => cases hm
  | next _ _ _ => cases hm

/-- However much one moves about, only the current item changes. -/
theorem Sound.moves (h : q.Sound) (es : List Event) (hm : ∀ e ∈ es, e.isMove = true) :
    SameButCurrent q (q.run es) := by
  induction es generalizing q with
  | nil => exact .refl q
  | cons e es ih =>
    have hstep : SameButCurrent q (q.after e) :=
      after_induction h.length_eq (.refl q) fun _ he => he.same_but_current (hm e List.mem_cons_self)
    exact hstep.trans (ih (h.after e) fun f hf => hm f (List.mem_cons_of_mem e hf))

/-- However much one answers, nothing but the current item is affected. -/
theorem Sound.answers (h : q.Sound) (es : List Event) (hm : ∀ e ∈ es, e.isMove = false) :
    SameElsewhere q (q.run es) := by
  induction es generalizing q with
  | nil => exact .refl q
  | cons e es ih =>
    have hstep : SameElsewhere q (q.after e) :=
      after_induction h.length_eq (.refl q) fun _ he => he.same_elsewhere h (hm e List.mem_cons_self)
    exact hstep.trans (ih (h.after e) fun f hf => hm f (List.mem_cons_of_mem e hf))

/-! ## Gates -/

/-- A gate stands when there is always a way or a reason, a way leads on, and a reason is told. -/
theorem Sound.gated (h : q.Sound) {e : Event} {can : Prop} {why : SessionError → Prop} {target : Nat}
    (hcases : can ∨ ∃ error, why error)
    (hok : can → (∃ t, (q.apply e).result = .ok t) ∧ q.after e = { q with current := target })
    (hno : ∀ error, why error → (q.apply e).result = .error error) : Gated q e can why target := by
  rcases hcases with hcan | ⟨error, hwhy⟩
  · obtain ⟨⟨t, ht⟩, hafter⟩ := hok hcan
    refine ⟨⟨fun _ => hcan, fun _ => ⟨t, ht⟩⟩, fun error => ⟨fun he => ?_, hno error⟩, fun _ => hafter,
      fun hnot => absurd hcan hnot⟩
    rw [ht] at he
    cases he
  · have he := hno error hwhy
    have hnot : ¬can := by
      intro hcan
      obtain ⟨⟨t, ht⟩, -⟩ := hok hcan
      cases ht.symm.trans he
    refine ⟨⟨fun ⟨t, ht⟩ => ?_, fun hcan => absurd hcan hnot⟩, fun error' => ⟨fun he' => ?_, hno error'⟩,
      fun hcan => absurd hcan hnot, fun _ => (h.refused he).1⟩
    · cases ht.symm.trans he
    · cases he.symm.trans he'
      exact hwhy

/-! ## Visits -/

theorem Sound.canNavigate_iff (h : q.Sound) {target : Nat} :
    q.canNavigate target = true ↔
      target < q.catalog.items.length ∧ (target = q.current ∨ q.store.contains target = true) := by
  simp only [canNavigate, Bool.and_eq_true, decide_eq_true_eq, Bool.or_eq_true, h.length_eq]

theorem visit_or_refusal (q : Questionnaire) (target : Nat) :
    q.canNavigate target = true ∨ ∃ error, VisitRefusal q target error := by
  by_cases hlt : target < q.catalog.items.length
  · cases hn : q.canNavigate target with
    | true => exact .inl rfl
    | false => exact .inr ⟨_, .unreachable hlt hn⟩
  · exact .inr ⟨_, .unknown (Nat.le_of_not_lt hlt)⟩

theorem VisitRefusal.told {target : Nat} {error : SessionError} (hr : VisitRefusal q target error) :
    (q.apply (.navigate target)).result = .error error := by
  cases hr with
  | unknown hle => simp only [Questionnaire.apply, navigate, Questionnaire.item, List.getElem?_eq_none hle]
  | unreachable hlt hn => simp [Questionnaire.apply, navigate, Questionnaire.item, hlt, hn]

theorem Sound.visit_gated (h : q.Sound) (target : Nat) :
    Gated q (.navigate target) (q.canNavigate target = true) (VisitRefusal q target) target := by
  refine h.gated (q.visit_or_refusal target) (fun hn => ?_) fun _ => VisitRefusal.told
  obtain ⟨hlt, hc⟩ := h.canNavigate_iff.1 hn
  exact (Effect.visit (h.length_eq ▸ hlt) hc).after h.length_eq

/-! ## Advances -/

theorem advance_or_refusal (q : Questionnaire) : q.CanAdvance ∨ ∃ error, AdvanceRefusal q error := by
  by_cases hempty : q.catalog.items = []
  · exact .inr ⟨_, .nowhere hempty⟩
  cases hget : q.store.get? q.current with
  | none => exact .inr ⟨_, .undecided hempty hget⟩
  | some r =>
    by_cases hlt : q.current + 1 < q.catalog.items.length
    · exact .inl ⟨⟨r, hget⟩, hlt⟩
    · exact .inr ⟨_, .last hget (Nat.le_of_not_lt hlt)⟩

theorem Sound.advance_told (h : q.Sound) {error : SessionError} (hr : AdvanceRefusal q error) :
    (q.apply .advance).result = .error error := by
  cases hr with
  | nowhere hempty =>
    have hsessions : q.sessions = [] := List.eq_nil_of_length_eq_zero (by rw [h.length_eq, hempty]; rfl)
    simp [Questionnaire.apply, advance, Questionnaire.session, hsessions]
  | undecided hne hget =>
    obtain ⟨item, hi⟩ := item_of_lt (h.current_lt_items hne)
    obtain ⟨s, hs, hagrees, hrec⟩ := h.session hi
    have hs' : q.sessions[q.current]? = some s := hs
    have hv : s.verdict? = none := (recordOf_none hagrees).1 (hrec.symm.trans hget)
    simp [Questionnaire.apply, advance, Questionnaire.session, hs', hv]
  | last hget hle =>
    obtain ⟨item, s, -, hs, hrec⟩ := h.of_get? hget
    have hs' : q.sessions[q.current]? = some s := hs
    have hv := (recordOf_some.1 hrec).1
    simp [Questionnaire.apply, advance, Questionnaire.session, hs', hv, h.length_eq, hle]

theorem Sound.advance_gated (h : q.Sound) : Gated q .advance q.CanAdvance (AdvanceRefusal q) (q.current + 1) := by
  refine h.gated q.advance_or_refusal (fun hcan => ?_) fun _ => h.advance_told
  obtain ⟨⟨r, hget⟩, hlt⟩ := hcan
  obtain ⟨item, s, -, hs, hrec⟩ := h.of_get? hget
  exact (Effect.next hs (recordOf_some.1 hrec).1 (h.length_eq ▸ hlt)).after h.length_eq

/-- In every state that a questionnaire can be in, a visit is accepted exactly when its target can be visited, and an
advance when the current item has a record and is not the last. Neither ever changes a session, a record or a row of the
results. Answers, accepted or not, never change the current item, nor the session, the record or the row of another. -/
theorem moving_and_answering (c : Catalog) (es : List Event) :
    (∀ target, Gated ((new c).run es) (.navigate target) (((new c).run es).canNavigate target = true)
      (VisitRefusal ((new c).run es) target) target) ∧
    Gated ((new c).run es) .advance ((new c).run es).CanAdvance (AdvanceRefusal ((new c).run es))
      (((new c).run es).current + 1) ∧
    (∀ fs, (∀ e ∈ fs, e.isMove = true) → SameButCurrent ((new c).run es) (((new c).run es).run fs)) ∧
    ∀ fs, (∀ e ∈ fs, e.isMove = false) → SameElsewhere ((new c).run es) (((new c).run es).run fs) := by
  have h := (sound_new c).run es
  exact ⟨h.visit_gated, h.advance_gated, h.moves, h.answers⟩

end Questionnaire

end Appraisal
