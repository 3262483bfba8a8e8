import Appraisal.Proofs.Questionnaire.Records
import Appraisal.Proofs.Session.Progress
/-!
# Which questionnaires can be completed

Only the current item and items with a record can be visited, and advancing goes one item further. So an item
that is neither current nor recorded is reached again only from an item before it. When there is none, the item
is `Lost`, for good. Otherwise some accepted events lead to it, since the current item can always be decided.
-/

namespace Appraisal.Questionnaire

/-- Events that are accepted, each in its turn, lead from `q` to `q'`. -/
def Reaches (q q' : Questionnaire) : Prop :=
  ∃ es, q.Accepts es ∧ q.run es = q'

theorem Reaches.refl (q : Questionnaire) : q.Reaches q :=
  ⟨[], trivial, rfl⟩

theorem Reaches.trans {q q' q'' : Questionnaire} (h : q.Reaches q') (h' : q'.Reaches q'') : q.Reaches q'' := by
  obtain ⟨es, hes, rfl⟩ := h
  obtain ⟨fs, hfs, rfl⟩ := h'
  exact ⟨es ++ fs, accepts_append hes hfs, run_append q es fs⟩

theorem Effect.reaches {q q' : Questionnaire} {e : Event} (h : q.Sound) (he : Effect q e q') : q.Reaches q' := by
  obtain ⟨hok, hafter⟩ := he.after h.length_eq
  exact ⟨[e], ⟨hok, trivial⟩, hafter⟩

theorem Sound.of_reaches {q q' : Questionnaire} (h : q.Sound) (hr : q.Reaches q') :
    q'.Sound ∧ q'.catalog = q.catalog := by
  obtain ⟨es, -, rfl⟩ := hr
  exact ⟨h.run es, h.run_catalog es⟩

/-! ## Lost items -/

/-- Item `k` lies behind the current item, and nothing up to `k` has a record. -/
def Lost (q : Questionnaire) (k : Nat) : Prop :=
  k < q.current ∧ ∀ j ≤ k, q.store.contains j = false

/-- An item is lost, unless an item up to it can be visited. -/
theorem lost_or (q : Questionnaire) (k : Nat) :
    q.Lost k ∨ ∃ j ≤ k, j = q.current ∨ q.store.contains j = true := by
  by_cases h : ∃ j ≤ k, j = q.current ∨ q.store.contains j = true
  · exact .inr h
  · left
    have hj : ∀ j ≤ k, j ≠ q.current ∧ q.store.contains j = false := by
      intro j hjk
      refine ⟨fun hc => h ⟨j, hjk, .inl hc⟩, Bool.eq_false_iff.2 fun hc => h ⟨j, hjk, .inr hc⟩⟩
    refine ⟨Nat.lt_of_not_le fun hle => ?_, fun j hjk => (hj j hjk).2⟩
    exact (hj q.current hle).1 rfl

theorem contains_putSession {q : Questionnaire} {i : Nat} {item : Item} (hi : q.catalog.items[i]? = some item)
    (hlt : i < q.sessions.length) (s : Session) {j : Nat} (hj : j ≠ i) :
    (q.putSession i s).store.contains j = q.store.contains j := by
  rw [Bool.eq_iff_iff, Store.contains_iff, Store.contains_iff, get?_putSession hi hlt, if_neg hj]

theorem Effect.lost {q q' : Questionnaire} {e : Event} {k : Nat} (hl : q.Lost k) (he : Effect q e q') :
    q'.Lost k := by
  obtain ⟨hk, hno⟩ := hl
  cases he with
  | answer hi hs _ =>
    -- Only the record of the current item changes, and that item lies ahead of `k`.
    have hlt := (List.getElem?_eq_some_iff.1 hs).1
    refine ⟨by simpa using hk, fun j hj => ?_⟩
    rw [contains_putSession hi hlt _ (by omega)]
    exact hno j hj
  | @visit target _ hc =>
    -- A target up to `k` would have to be current or to have a record.
    refine ⟨Nat.lt_of_not_le fun hle => ?_, hno⟩
    rcases hc with rfl | hc
    · exact Nat.not_lt_of_le hle hk
    · exact absurd hc (by simp [hno target hle])
  | next _ _ _ => exact ⟨Nat.lt_succ_of_lt hk, hno⟩

/-- What is lost stays lost. -/
theorem Lost.run {q : Questionnaire} {k : Nat} (h : q.Sound) (hl : q.Lost k) (es : List Event) :
    (q.run es).Lost k :=
  h.run_induction hl (fun _ _ _ hr he => he.lost hr) es

/-- With a lost item a questionnaire is never complete. -/
theorem Lost.not_complete {q : Questionnaire} {k : Nat} (h : q.Sound) (hl : q.Lost k) : q.isComplete = false := by
  refine Bool.eq_false_iff.2 fun hc => ?_
  obtain ⟨hne, hall⟩ := h.isComplete_iff.1 hc
  have hk := hall k (Nat.lt_trans hl.1 (h.current_lt hne))
  simp [hl.2 k (Nat.le_refl k)] at hk

/-! ## Going on -/

/-- The current item takes the events that its session takes; the other records stay. -/
theorem reaches_of_play {item : Item} {t : Session} (es : List SessionEvent) :
    ∀ {q : Questionnaire} {s : Session}, q.Sound → q.catalog.items[q.current]? = some item →
      q.session? q.current = some s → s.play item es = .ok t →
      ∃ q', q.Reaches q' ∧ q'.current = q.current ∧ q'.session? q.current = some t ∧
        ∀ j ≠ q.current, q'.store.contains j = q.store.contains j := by
  induction es with
  | nil =>
    intro q s _ _ hs hp
    cases hp
    exact ⟨q, .refl q, rfl, hs, fun _ _ => rfl⟩
  | cons e es ih =>
    intro q s h hi hs hp
    have hlt := (List.getElem?_eq_some_iff.1 hs).1
    cases ht : s.take item e with
    | error error => simp [Session.play, ht] at hp
    | ok step =>
      rw [Session.play_cons ht] at hp
      have he := Effect.answer hi hs ht
      have hs' := session?_putSession hs step.session
      obtain ⟨q', hr, hc, hq', hstore⟩ := ih (he.sound h) (by simpa using hi) (by simpa using hs') hp
      rw [putSession_current] at hc hq' hstore
      refine ⟨q', (he.reaches h).trans hr, hc, hq', fun j hj => ?_⟩
      rw [hstore j hj, contains_putSession hi hlt _ hj]

section Judgeable
variable {q : Questionnaire} (h : q.Sound) (hj : ∀ item ∈ q.catalog.items, ∀ a, (item.branch a).Judgeable)
include h hj

/-- The current item can be decided, and no other record is touched. -/
theorem decide_current (hlt : q.current < q.catalog.items.length) :
    ∃ q', q.Reaches q' ∧ q'.current = q.current ∧ q'.store.contains q.current = true ∧
      ∀ j, q.store.contains j = true → q'.store.contains j = true := by
  obtain ⟨item, hi⟩ := item_of_lt hlt
  obtain ⟨s, hs, hagrees, -⟩ := h.session hi
  obtain ⟨es, t, v, hp, hv⟩ := hagrees.canDecide (hj item (List.mem_of_getElem? hi))
  obtain ⟨q', hr, hc, ht, hstore⟩ := reaches_of_play es h hi hs hp
  obtain ⟨h', hcat⟩ := h.of_reaches hr
  have hdone : q'.store.contains q.current = true := h'.contains_iff.2 ⟨by rwa [hcat], t, v, ht, hv⟩
  refine ⟨q', hr, hc, hdone, fun j hcj => ?_⟩
  by_cases hjc : j = q.current
  · rw [hjc, hdone]
  · rw [hstore j hjc, hcj]

/-- From the current item every later one is reached, with a record for each item on the way. -/
theorem walk (d : Nat) (hlt : q.current + d < q.catalog.items.length) :
    ∃ q', q.Reaches q' ∧ q'.current = q.current + d ∧
      ∀ j, q.current ≤ j → j < q.current + d → q'.store.contains j = true := by
  induction d with
  | zero => exact ⟨q, .refl q, rfl, fun j hle hlt' => by omega⟩
  | succ d ih =>
    obtain ⟨r, hr, hcur, hway⟩ := ih (by omega)
    -- `r` stands `d` items on; its current item is decided (`r'`) and then left for the next one.
    obtain ⟨hsound, hcat⟩ := h.of_reaches hr
    obtain ⟨r', hr', hcur', hdone, hkeep⟩ :=
      decide_current hsound (by rwa [hcat]) (by rw [hcat, hcur]; omega)
    obtain ⟨hsound', hcat'⟩ := hsound.of_reaches hr'
    obtain ⟨-, s, v, hs, hv⟩ := hsound'.contains_iff.1 hdone
    have hnext : r'.current + 1 < r'.sessions.length := by rw [hsound'.length_eq, hcat', hcat, hcur', hcur]; omega
    have he := Effect.next (by rwa [hcur']) hv hnext
    refine ⟨_, hr.trans (hr'.trans (he.reaches hsound')), by simp [hcur', hcur, Nat.add_assoc], fun j hle hlt' => ?_⟩
    by_cases hjd : j < q.current + d
    · exact hkeep j (hway j hle hjd)
    · have hjr : j = r.current := by omega
      exact hjr ▸ hdone

/-- Item `k` is reached from any item up to it that can be visited. -/
theorem reaches_item {j k : Nat} (hjk : j ≤ k) (hk : k < q.catalog.items.length)
    (hc : j = q.current ∨ q.store.contains j = true) :
    ∃ q', q.Reaches q' ∧ q'.current = k ∧ ∀ i, j ≤ i → i < k → q'.store.contains i = true := by
  obtain ⟨d, rfl⟩ := Nat.exists_eq_add_of_le hjk
  have he : Effect q (.navigate j) _ := .visit (by rw [h.length_eq]; omega) hc
  obtain ⟨q', hr, hcur, hway⟩ := walk (he.sound h) hj d hk
  exact ⟨q', (he.reaches h).trans hr, hcur, hway⟩

/-- Item `k` becomes current again exactly when an item up to it can be visited. -/
theorem current_again_iff {k : Nat} (hk : k < q.catalog.items.length) :
    (∃ q', q.Reaches q' ∧ q'.current = k) ↔ ∃ j ≤ k, j = q.current ∨ q.store.contains j = true := by
  constructor
  · rintro ⟨q', ⟨es, -, rfl⟩, hcur⟩
    rcases q.lost_or k with hl | hex
    · exact absurd hcur (Nat.ne_of_gt (hl.run h es).1)
    · exact hex
  · rintro ⟨j, hjk, hc⟩
    obtain ⟨q', hr, hcur, -⟩ := reaches_item h hj hjk hk hc
    exact ⟨q', hr, hcur⟩

/-- A questionnaire with items can be completed exactly when its first item can be visited. -/
theorem complete_iff (hne : q.catalog.items ≠ []) :
    (∃ q', q.Reaches q' ∧ q'.isComplete = true) ↔ 0 = q.current ∨ q.store.contains 0 = true := by
  have hpos : 0 < q.catalog.items.length := List.length_pos_of_ne_nil hne
  constructor
  · rintro ⟨q', ⟨es, hes, rfl⟩, hcomplete⟩
    rcases q.lost_or 0 with hl | ⟨j, hj0, hc⟩
    · rw [(hl.run h es).not_complete (h.run es)] at hcomplete
      cases hcomplete
    · cases Nat.le_zero.1 hj0
      exact hc
  · intro hc
    -- Walking to the last item records all items before it; deciding it completes the rest.
    obtain ⟨r, hr, hcur, hway⟩ := reaches_item h hj (Nat.zero_le (q.catalog.items.length - 1)) (by omega) hc
    obtain ⟨hsound, hcat⟩ := h.of_reaches hr
    obtain ⟨r', hr', -, hdone, hkeep⟩ := decide_current hsound (by rwa [hcat]) (by rw [hcat, hcur]; omega)
    obtain ⟨hsound', hcat'⟩ := hsound.of_reaches hr'
    refine ⟨r', hr.trans hr', hsound'.isComplete_iff.2 ⟨?_, fun i hi => ?_⟩⟩
    · rw [← List.length_pos_iff_ne_nil, hsound'.length_eq, hcat', hcat]
      exact hpos
    · rw [hsound'.length_eq, hcat', hcat] at hi
      by_cases hlast : i < q.catalog.items.length - 1
      · exact hkeep i (hway i (Nat.zero_le i) hlast)
      · have hir : i = r.current := by omega
        exact hir ▸ hdone

end Judgeable

/-! ## Catalogs that compile -/

/-- Whatever has happened to the questionnaire of a catalog that compiles: it can be completed exactly when the
first item is current or recorded, and item `k` becomes current again exactly when an item up to it is. -/
theorem completable_iff {d : CatalogDefinition} {c : Catalog} (hd : d.compile = .ok c) (es : List Event) :
    ((∃ q', ((new c).run es).Reaches q' ∧ q'.isComplete = true) ↔
      0 = ((new c).run es).current ∨ ((new c).run es).store.contains 0 = true) ∧
    ∀ k < c.items.length, (∃ q', ((new c).run es).Reaches q' ∧ q'.current = k) ↔
      ∃ j ≤ k, j = ((new c).run es).current ∨ ((new c).run es).store.contains j = true := by
  have h := (sound_new c).run es
  have hc : ((new c).run es).catalog = c := (sound_new c).run_catalog es
  obtain ⟨hne, hj⟩ := CatalogDefinition.compile_judgeable hd
  have hj' : ∀ item ∈ ((new c).run es).catalog.items, ∀ a, (item.branch a).Judgeable := by rwa [hc]
  exact ⟨complete_iff h hj' (by rwa [hc]), fun k hk => current_again_iff h hj' (by rwa [hc])⟩

/-- Two items that pass with a yes; a no to the first one asks on. -/
def pair : CatalogDefinition :=
  ⟨"pair", "1", none,
    [⟨"a", "First", none, none, none, .last [] "pass-direct" none, .last [⟨"Is it so?", .pass⟩] "all-yes" none⟩,
      ⟨"b", "Second", none, none, none, .last [] "pass-direct" none, .last [] "fail-direct" none⟩]⟩

def pairCatalog : Catalog :=
  ⟨"pair", "1", none,
    [⟨"a", "First", none, none, none, .last [] (.direct .pass), .last [⟨"Is it so?", .pass⟩] (.count .allYes)⟩,
      ⟨"b", "Second", none, none, none, .last [] (.direct .pass), .last [] (.direct .fail)⟩]⟩

theorem pair_compiles : pair.compile = .ok pairCatalog := by
  decide

/-- Both items are decided; then the first one is reopened, and left for the second. -/
def leaving : List Event :=
  [.main 0 .yes, .advance, .main 1 .yes, .navigate 0, .main 0 .no, .navigate 1]

/-- As long as the first item is not left, its new question can be answered. -/
theorem completable_before_leaving :
    pair.compile = .ok pairCatalog ∧
      ∃ q', ((new pairCatalog).run (leaving.take 5)).Reaches q' ∧ q'.isComplete = true :=
  ⟨pair_compiles, (completable_iff pair_compiles (leaving.take 5)).1.2 (.inl (by decide))⟩

/-- Once it is left, it is lost, and with it the questionnaire that was complete before. -/
theorem leaving_is_a_dead_end :
    pair.compile = .ok pairCatalog ∧ ((new pairCatalog).run (leaving.take 4)).isComplete = true ∧
      ∀ q', ((new pairCatalog).run leaving).Reaches q' → q'.current ≠ 0 ∧ q'.isComplete = false := by
  refine ⟨pair_compiles, by decide, ?_⟩
  rintro q' ⟨fs, -, rfl⟩
  have h := (sound_new pairCatalog).run leaving
  have hl : ((new pairCatalog).run leaving).Lost 0 := ⟨by decide, by decide⟩
  exact ⟨Nat.ne_of_gt (hl.run h fs).1, (hl.run h fs).not_complete (h.run fs)⟩

end Appraisal.Questionnaire
