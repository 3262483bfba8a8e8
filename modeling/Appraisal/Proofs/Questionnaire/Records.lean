import Appraisal.Proofs.Questionnaire.Runs
import Appraisal.Proofs.Session.Agreement
import Appraisal.Proofs.StoreMap
/-!
# The store follows the sessions

The store repeats what the sessions say. `Sound` states this of every index, together with what makes it last:
each session agrees with its item, so a verdict always comes with a main answer to record. An answer changes one
session and the record of the same item, and moving about changes neither.
-/

namespace Appraisal.Questionnaire

/-- The record that the session of item `index` calls for. -/
def record? (q : Questionnaire) (index : Nat) : Option Record :=
  match q.catalog.items[index]?, q.sessions[index]? with
  | some item, some s => recordOf index item s
  | _, _ => none

/-- What the session of an item says now: its verdict, or that it has none yet, and its answers. -/
def rowOf (index : Nat) (item : Item) (s : Session) : Row :=
  ⟨index, item.id, item.title, (s.verdict?.map Standing.decided).getD .pending, s.trail.main, s.trail.full⟩

structure Sound (q : Questionnaire) : Prop where
  length_eq : q.sessions.length = q.catalog.items.length
  current_lt : q.sessions ≠ [] → q.current < q.sessions.length
  agrees : ∀ {i : Nat} {item : Item} {s : Session}, q.catalog.items[i]? = some item → q.sessions[i]? = some s →
    s.Agrees item i
  records : ∀ i, q.store.get? i = q.record? i

/-! ## Records of sessions -/

/-- A verdict rests on a main answer. -/
theorem main_of_verdict {item : Item} {i : Nat} {s : Session} {v : Verdict} (h : s.Agrees item i)
    (hv : s.verdict? = some v) : ∃ a, s.trail.main = some a := by
  cases h with
  | unstarted => cases hv
  | @started a => exact ⟨a, rfl⟩

theorem recordOf_some {item : Item} {i : Nat} {s : Session} {r : Record} :
    recordOf i item s = some r ↔
      s.verdict? = some r.verdict ∧ s.trail.main = some r.main ∧
        r = ⟨i, item.id, item.title, r.verdict, r.main, s.trail.full⟩ := by
  unfold recordOf
  cases hv : s.verdict? with
  | none => simp
  | some v =>
    cases ha : s.trail.main with
    | none => simp
    | some a =>
      simp only [Option.some.injEq]
      constructor
      · rintro rfl
        exact ⟨rfl, rfl, rfl⟩
      · rintro ⟨rfl, rfl, hr⟩
        exact hr.symm

theorem recordOf_none {item : Item} {i : Nat} {s : Session} (h : s.Agrees item i) :
    recordOf i item s = none ↔ s.verdict? = none := by
  unfold recordOf
  cases hv : s.verdict? with
  | none => simp
  | some v =>
    obtain ⟨a, ha⟩ := main_of_verdict h hv
    simp [ha]

/-! ## One answer -/

theorem get?_putSession {q : Questionnaire} {i : Nat} {item : Item} (hi : q.catalog.items[i]? = some item)
    (hlt : i < q.sessions.length) (s : Session) (j : Nat) :
    (q.putSession i s).store.get? j = if j = i then recordOf i item s else q.store.get? j := by
  have hs : (q.sessions.set i s)[i]? = some s := by simp [hlt]
  simp only [putSession, sync, hs, hi]
  cases hr : recordOf i item s with
  | none => exact q.store.get?_retract i j
  | some r =>
    have hri : r.index = i := by rw [(recordOf_some.1 hr).2.2]
    simpa only [hri] using q.store.get?_record r j

theorem record?_putSession {q : Questionnaire} {i : Nat} {item : Item} (hi : q.catalog.items[i]? = some item)
    (hlt : i < q.sessions.length) (s : Session) (j : Nat) :
    (q.putSession i s).record? j = if j = i then recordOf i item s else q.record? j := by
  simp only [record?, putSession_catalog, putSession_sessions]
  by_cases h : j = i
  · subst h
    simp [hi, hlt]
  · rw [if_neg h, List.getElem?_set_ne (Ne.symm h)]

theorem Sound.putSession {q : Questionnaire} {i : Nat} {item : Item} {s : Session} (h : q.Sound)
    (hi : q.catalog.items[i]? = some item) (hlt : i < q.sessions.length) (hs : s.Agrees item i) :
    (q.putSession i s).Sound where
  length_eq := by simpa using h.length_eq
  current_lt := by simpa using h.current_lt
  agrees := by
    intro j other t hj ht
    rw [putSession_catalog] at hj
    rw [putSession_sessions] at ht
    by_cases hji : j = i
    · subst hji
      rw [List.getElem?_set_self hlt] at ht
      cases ht
      cases hi.symm.trans hj
      exact hs
    · rw [List.getElem?_set_ne (Ne.symm hji)] at ht
      exact h.agrees hj ht
  records := by
    intro j
    rw [get?_putSession hi hlt, record?_putSession hi hlt, h.records]

/-! ## Every run -/

theorem sound_new (c : Catalog) : (new c).Sound where
  length_eq := by simp [new]
  current_lt := fun h => List.length_pos_of_ne_nil h
  agrees := by
    intro i item s _ hs
    simp only [new, List.getElem?_map, Option.map_eq_some_iff] at hs
    obtain ⟨j, hj, rfl⟩ := hs
    obtain ⟨-, rfl⟩ := List.getElem?_eq_some_iff.1 hj
    rw [List.getElem_range]
    exact .unstarted
  records := by
    intro i
    simp only [record?, new, List.getElem?_map]
    cases c.items[i]? with
    | none => rfl
    | some item => cases (List.range c.items.length)[i]? <;> rfl

theorem Sound.move {q : Questionnaire} (h : q.Sound) {i : Nat} (hi : i < q.sessions.length) :
    ({ q with current := i } : Questionnaire).Sound :=
  ⟨h.length_eq, fun _ => hi, h.agrees, h.records⟩

theorem Sound.current_lt_items {q : Questionnaire} (h : q.Sound) (hne : q.catalog.items ≠ []) :
    q.current < q.catalog.items.length := by
  have hpos : 0 < q.sessions.length := h.length_eq ▸ List.length_pos_of_ne_nil hne
  exact h.length_eq ▸ h.current_lt (List.ne_nil_of_length_pos hpos)

theorem Effect.sound {q q' : Questionnaire} {e : Event} (h : q.Sound) (he : Effect q e q') : q'.Sound := by
  cases he with
  | answer hi hs ht =>
    have hlt := (List.getElem?_eq_some_iff.1 hs).1
    have hagrees := h.agrees hi hs
    exact h.putSession hi hlt ((Session.take_change hagrees ht).agrees hagrees)
  | visit hlt _ => exact h.move hlt
  | next _ _ hlt => exact h.move hlt

theorem Effect.catalog_eq {q q' : Questionnaire} {e : Event} (he : Effect q e q') : q'.catalog = q.catalog := by
  cases he with
  | answer _ _ _ => exact putSession_catalog _ _ _
  | visit _ _ => rfl
  | next _ _ _ => rfl

theorem Sound.after {q : Questionnaire} (h : q.Sound) (e : Event) : (q.after e).Sound :=
  after_induction h.length_eq h fun _ he => he.sound h

theorem Sound.run {q : Questionnaire} (h : q.Sound) (es : List Event) : (q.run es).Sound :=
  run_induction (P := Sound) (fun _ e h => h.after e) h es

/-- What every effect keeps, a run keeps. -/
theorem Sound.run_induction {P : Questionnaire → Prop} {q : Questionnaire} (h : q.Sound) (hq : P q)
    (hP : ∀ r r' e, P r → Effect r e r' → P r') (es : List Event) : P (q.run es) := by
  have hrun : (q.run es).Sound ∧ P (q.run es) := by
    refine Questionnaire.run_induction (P := fun r => r.Sound ∧ P r) (fun r e hr => ⟨hr.1.after e, ?_⟩) ⟨h, hq⟩ es
    exact after_induction hr.1.length_eq hr.2 fun r' he => hP r r' e hr.2 he
  exact hrun.2

theorem Sound.run_catalog {q : Questionnaire} (h : q.Sound) (es : List Event) :
    (q.run es).catalog = q.catalog :=
  h.run_induction (P := fun r => r.catalog = q.catalog) rfl (fun _ _ _ hr he => he.catalog_eq.trans hr) es

/-! ## What the store says -/

namespace Sound
variable {q : Questionnaire}

/-- The session of an item, and the record that it calls for. -/
theorem session (h : q.Sound) {i : Nat} {item : Item} (hi : q.catalog.items[i]? = some item) :
    ∃ s, q.session? i = some s ∧ s.Agrees item i ∧ q.store.get? i = recordOf i item s := by
  obtain ⟨s, hs⟩ := session_of_lt (h.length_eq ▸ (List.getElem?_eq_some_iff.1 hi).1)
  refine ⟨s, hs, h.agrees hi hs, ?_⟩
  rw [h.records, record?, hi, hs]

theorem of_get? (h : q.Sound) {i : Nat} {r : Record} (hr : q.store.get? i = some r) :
    ∃ item s, q.catalog.items[i]? = some item ∧ q.session? i = some s ∧ recordOf i item s = some r := by
  rw [h.records, record?] at hr
  cases hi : q.catalog.items[i]? with
  | none => simp [hi] at hr
  | some item =>
    cases hs : q.sessions[i]? with
    | none => simp [hi, hs] at hr
    | some s => exact ⟨item, s, rfl, hs, by simpa only [hi, hs] using hr⟩

/-- An item has a record exactly when its session has a verdict. -/
theorem contains_iff (h : q.Sound) {i : Nat} :
    q.store.contains i = true ↔ i < q.catalog.items.length ∧ ∃ s v, q.session? i = some s ∧ s.verdict? = some v := by
  rw [Store.contains_iff]
  constructor
  · rintro ⟨r, hr⟩
    obtain ⟨item, s, hi, hs, hrec⟩ := h.of_get? hr
    exact ⟨(List.getElem?_eq_some_iff.1 hi).1, s, r.verdict, hs, (recordOf_some.1 hrec).1⟩
  · rintro ⟨hlt, s, v, hs, hv⟩
    obtain ⟨item, hi⟩ := item_of_lt hlt
    obtain ⟨t, ht, hagrees, hrec⟩ := h.session hi
    cases hs.symm.trans ht
    rw [hrec, ← Option.ne_none_iff_exists']
    exact fun hn => by simp [(recordOf_none hagrees).1 hn] at hv

/-- The row of an item tells what its session says, also when it is read from the store. -/
theorem row_eq (h : q.Sound) {i : Nat} {item : Item} {s : Session} (hi : q.catalog.items[i]? = some item)
    (hs : q.session? i = some s) : q.row i item s = rowOf i item s := by
  obtain ⟨t, ht, hagrees, hrec⟩ := h.session hi
  cases hs.symm.trans ht
  unfold row
  rw [hrec]
  cases hr : recordOf i item s with
  | none => simp [rowOf, (recordOf_none hagrees).1 hr]
  | some r =>
    obtain ⟨hv, ha, hreq⟩ := recordOf_some.1 hr
    rw [hreq]
    simp [Record.row, rowOf, hv, ha]

theorem results_eq (h : q.Sound) {i : Nat} {item : Item} (hi : q.catalog.items[i]? = some item) :
    ∃ s, q.session? i = some s ∧ q.results[i]? = some (rowOf i item s) := by
  obtain ⟨s, hs, -, -⟩ := h.session hi
  have hs' : q.sessions[i]? = some s := hs
  refine ⟨s, hs, ?_⟩
  have hpair : (q.catalog.items.zip q.sessions)[i]? = some (item, s) := List.getElem?_zip_eq_some.2 ⟨hi, hs'⟩
  have hz : (q.catalog.items.zip q.sessions).zipIdx[i]? = some ((item, s), i) := by
    rw [List.getElem?_zipIdx, hpair, Option.map_some, Nat.zero_add]
  simp only [results, List.getElem?_map, hz, Option.map_some, h.row_eq hi hs]

theorem results_length (h : q.Sound) : q.results.length = q.catalog.items.length := by
  simp [results, h.length_eq]

/-- Every row of the results tells what the session of some item says. -/
theorem mem_results (h : q.Sound) {r : Row} (hr : r ∈ q.results) :
    ∃ i item s, q.catalog.items[i]? = some item ∧ q.session? i = some s ∧ r = rowOf i item s := by
  obtain ⟨i, hi, rfl⟩ := List.getElem_of_mem hr
  obtain ⟨item, hitem⟩ := item_of_lt (h.results_length ▸ hi)
  obtain ⟨s, hs, hrow⟩ := h.results_eq hitem
  rw [List.getElem?_eq_getElem hi, Option.some.injEq] at hrow
  exact ⟨i, item, s, hitem, hs, hrow⟩

/-- A questionnaire is complete when it has items and each of them is decided. -/
theorem isComplete_iff (h : q.Sound) :
    q.isComplete = true ↔ q.sessions ≠ [] ∧ ∀ i < q.sessions.length, q.store.contains i = true := by
  have hlt : ∀ i, q.store.contains i = true → i < q.sessions.length :=
    fun i hi => h.length_eq ▸ (h.contains_iff.1 hi).1
  simp [isComplete, Store.size_eq_iff hlt]

/-- Sessions determine the store, so two sound questionnaires with the same sessions differ at most in the current
item. -/
theorem eq_of_sessions {q' : Questionnaire} (h : q.Sound) (h' : q'.Sound) (hc : q'.catalog = q.catalog)
    (hs : q'.sessions = q.sessions) : q' = { q with current := q'.current } := by
  have hstore : q'.store = q.store := by
    refine Store.ext_get? fun i => ?_
    rw [h.records, h'.records, record?, record?, hc, hs]
  cases q'
  simp_all

/-- Putting a session where it is already changes nothing. -/
theorem putSession_self (h : q.Sound) {i : Nat} {item : Item} {s : Session} (hi : q.catalog.items[i]? = some item)
    (hs : q.session? i = some s) : q.putSession i s = q := by
  obtain ⟨hlt, rfl⟩ := List.getElem?_eq_some_iff.1 hs
  have hput := h.putSession hi hlt (h.agrees hi hs)
  rw [h.eq_of_sessions hput (putSession_catalog _ _ _) (by rw [putSession_sessions, List.set_getElem_self]),
    putSession_current]

end Sound

/-- The store of `q` holds what its sessions say about the items of `c`, and so do the results. -/
structure Coherent (c : Catalog) (q : Questionnaire) : Prop where
  contains_iff : ∀ i, q.store.contains i = true ↔
    i < c.items.length ∧ ∃ s v, q.session? i = some s ∧ s.verdict? = some v
  record : ∀ i r, q.store.get? i = some r → ∃ item s, c.items[i]? = some item ∧ q.session? i = some s ∧
    s.verdict? = some r.verdict ∧ s.trail.main = some r.main ∧
    r = ⟨i, item.id, item.title, r.verdict, r.main, s.trail.full⟩
  results_length : q.results.length = c.items.length
  row : ∀ i item, c.items[i]? = some item → ∃ s, q.session? i = some s ∧ q.results[i]? = some (rowOf i item s)

/-- Whatever events a questionnaire is sent, its store and its results tell exactly what its sessions say. -/
theorem store_coherent (c : Catalog) (es : List Event) : Coherent c ((new c).run es) := by
  have h := (sound_new c).run es
  have hc : ((new c).run es).catalog = c := (sound_new c).run_catalog es
  constructor
  · intro i
    rw [h.contains_iff, hc]
  · intro i r hr
    obtain ⟨item, s, hi, hs, hrec⟩ := h.of_get? hr
    exact ⟨item, s, hc ▸ hi, hs, recordOf_some.1 hrec⟩
  · rw [h.results_length, hc]
  · intro i item hi
    exact h.results_eq (hc.symm ▸ hi)

end Appraisal.Questionnaire
