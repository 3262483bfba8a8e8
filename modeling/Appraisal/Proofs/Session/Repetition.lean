import Appraisal.Proofs.Session.LeftLayers
/-!
# Repeating an event

Repeating an event finds a session that has taken it already. An answer that is on record is accepted and changes
nothing, whether its layer is the active one or has been left in the meantime, and a candidate that is picked or
dropped again stands as it stood.
-/

namespace Appraisal

theorem put_getElem? {answers : List Answer} {k : Nat} (hk : k ≤ answers.length) (x : Answer) :
    (put answers k x)[k]? = some x := by
  unfold put
  by_cases h : k = answers.length
  · rw [if_pos h, h, List.getElem?_concat_length]
  · rw [if_neg h, List.getElem?_set_self (Nat.lt_of_le_of_ne hk h)]

/-! ## Answers on record -/

/-- Question `k` of the layer at `depth` has been answered by `x`, and that is what counts. -/
def Trail.Records (t : Trail) (depth k : Nat) (x : Answer) : Prop :=
  ∃ answers, t.full[depth]? = some answers ∧ answers[k]? = some x

section On
variable {a : Answer} {done : List (List Answer)} {answers : List Answer}

/-- An answer on record is one of the active layer or one of a layer left before. -/
theorem Trail.Records.on {depth k : Nat} {x : Answer} (h : (Trail.on a done answers).Records depth k x) :
    (depth = done.length ∧ answers[k]? = some x) ∨
    ∃ given, done[depth]? = some given ∧ given[k]? = some x := by
  obtain ⟨given, hgiven, hx⟩ := h
  by_cases hnil : answers = []
  · rw [hnil, Trail.on_full_nil] at hgiven
    exact .inr ⟨given, hgiven, hx⟩
  · rw [Trail.on_full a done hnil] at hgiven
    rcases Nat.lt_trichotomy depth done.length with hlt | rfl | hgt
    · rw [List.getElem?_append_left hlt] at hgiven
      exact .inr ⟨given, hgiven, hx⟩
    · rw [List.getElem?_concat_length] at hgiven
      cases hgiven
      exact .inl ⟨rfl, hx⟩
    · rw [List.getElem?_eq_none (by rw [List.length_append]; exact hgt)] at hgiven
      cases hgiven

end On

namespace Session
variable {item : Item} {index : Nat} {a : Answer} {done : List (List Answer)} {answers : List Answer} {l : Layer}
  {s t : Session}

/-- Wherever a session lands, the answers that it landed with are on record. -/
theorem lands_records (hl : (item.branch a).Leads done l) (h : Lands item index (.on a done answers) t) {k : Nat}
    {x : Answer} (hx : answers[k]? = some x) : t.trail.Records done.length k x := by
  have hne : answers ≠ [] := by
    rintro rfl
    cases hx
  have hfull : t.trail.full = done ++ [answers] := by
    rcases lands_trail hl h with htrail | htrail
    · rw [htrail, Trail.on_full _ _ hne]
    · rw [htrail]
      rfl
  exact ⟨answers, by rw [hfull, List.getElem?_concat_length], hx⟩

/-- An answer that is on record is accepted, and changes nothing. -/
theorem answerSub_recorded (h : s.Agrees item index) {depth k : Nat} {x : Answer} (hx : s.trail.Records depth k x) :
    s.answerSub item depth k x = .ok s.unchanged := by
  cases h with
  | unstarted =>
    obtain ⟨_, hnone, -⟩ := hx
    cases hnone
  | @started a done answers l state hl hf =>
    rw [answerSub_on hl.descend]
    rcases hx.on with ⟨rfl, hk⟩ | ⟨given, hgiven, hk⟩
    · -- The active layer has as many questions as answers at least.
      have hlt : k < answers.length := (List.getElem?_eq_some_iff.1 hk).1
      have hle : answers.length ≤ l.questions.length := hf.length_le
      have h0 : l.questions.length ≠ 0 := by omega
      have hcount : ¬ l.questions.length ≤ k := by omega
      simp only [ne_eq, not_true_eq_false, if_false, h0, hcount, Nat.not_lt_of_lt hlt, hk, if_true]
    · have hlt : depth < done.length := (List.getElem?_eq_some_iff.1 hgiven).1
      have hrepeats : repeatsLeft ⟨index, .on a done answers, state⟩ depth k x = true := by
        simp only [repeatsLeft, Trail.on_depth, Trail.on_completed, hgiven, Option.bind_some, hk, hlt, decide_true,
          Bool.and_self]
      rw [if_pos (Nat.ne_of_lt hlt), if_pos hrepeats]

/-! ## Events -/

/-- An event that a session has taken is accepted again, and changes nothing. -/
theorem take_again (h : s.Agrees item index) {e : SessionEvent} {step : SessionStep} (ht : s.take item e = .ok step) :
    ∃ notices, step.session.take item e = .ok ⟨step.session, notices⟩ := by
  have hchange := take_change h ht
  have hagrees := hchange.agrees h
  obtain ⟨t, notices⟩ := step
  cases hchange with
  | none => exact ⟨notices, ht⟩
  | restart _ hland => exact ⟨[], if_pos (lands_main (.here _) hland)⟩
  | @entry b x done answers l k _ _ hl _ hk _ hland =>
    exact ⟨[], answerSub_recorded hagrees (lands_records hl hland (put_getElem? hk x))⟩
  | @revision selection k b _ hk =>
    -- The candidate is offered still, and stands as it has been set.
    have hoffered := toggle_offered (s := ⟨s.index, s.trail, .ofSelection (selection.set k b)⟩)
      (State.selection?_ofSelection _) ((selection.indices_set k b).symm ▸ hk) b
    rw [Selection.set_set] at hoffered
    exact ⟨_, hoffered⟩

end Session

end Appraisal
