import Appraisal.Dialogue
/-!
# Menus of a dialogue

What the entries of each screen stand for, and what a pick that a menu accepts can be.
-/

namespace Appraisal

/-- One item is picked from a menu that lets one be picked. -/
theorem Menu.accepts_single {prompt : String} {items : List String} {pick : Pick}
    (h : (single prompt items).accepts pick = true) : pick.first < items.length := by
  simp only [accepts, Menu.items, Bool.and_eq_true, List.all_eq_true, decide_eq_true_eq] at h
  obtain ⟨hall, hlen⟩ := h
  obtain ⟨i, rfl⟩ := List.length_eq_one_iff.1 hlen
  exact of_decide_eq_true (hall i List.mem_cons_self)

namespace Questionnaire
variable {q : Questionnaire} {e : Entry}

/-! ## Entries -/

theorem travel_action (h : e ∈ q.travelEntries) : e.action = .jump ∨ e.action = .finish := by
  rcases List.mem_append.1 h with h | h
  · split at h
    · cases h
    · exact .inl (by rw [List.mem_singleton.1 h])
  · exact .inr (by rw [List.mem_singleton.1 h])

theorem answer_action {yesHint noHint : Option String} (h : e ∈ answerEntries yesHint noHint ++ q.travelEntries) :
    (∃ a, e.action = .answer a) ∨ e.action = .jump ∨ e.action = .finish := by
  rcases List.mem_append.1 h with h | h
  · simp only [answerEntries, List.mem_cons, List.not_mem_nil, or_false] at h
    rcases h with rfl | rfl
    · exact .inl ⟨.yes, rfl⟩
    · exact .inl ⟨.no, rfl⟩
  · exact .inr (travel_action h)

theorem undecided_action (h : e ∈ q.entries .undecided) :
    e.action = .again ∨ e.action = .jump ∨ e.action = .finish := by
  rcases List.mem_cons.1 h with rfl | h
  · exact .inl rfl
  · exact .inr (travel_action h)

/-- Only an item that is not the last one has a next item. -/
theorem decided_action (h : e ∈ q.entries .decided) :
    (e.action = .next ∧ q.isLast = false) ∨ e.action = .revise ∨ e.action = .jump ∨ e.action = .finish := by
  rcases List.mem_append.1 h with h | h
  · rcases List.mem_append.1 h with h | h
    · split at h
      · cases h
      · next hlast => exact .inl ⟨by rw [List.mem_singleton.1 h], Bool.eq_false_iff.2 hlast⟩
    · exact .inr (.inl (by rw [List.mem_singleton.1 h]))
  · exact .inr (.inr (travel_action h))

/-- The screens that ask what to do. -/
inductive Listed : Screen → Prop
  | main (yesHint noHint : Option String) : Listed (.main yesHint noHint)
  | sub (depth k count : Nat) (title : String) : Listed (.sub depth k count title)
  | undecided : Listed .undecided
  | decided : Listed .decided

/-- A pick from a screen that asks what to do stands for one of its entries, and that is done. -/
theorem Listed.step {screen : Screen} (h : Listed screen) {d : Dialogue} {pick : Pick}
    (ha : (d.questionnaire.menu screen).accepts pick = true) :
    ∃ e ∈ d.questionnaire.entries screen, (d.questionnaire.entries screen)[pick.first]? = some e ∧
      d.stepAt screen pick =
        ({ d with told := [] } : Dialogue).act e.action (Dialogue.screenEvent d.questionnaire screen) := by
  have hlt : pick.first < (d.questionnaire.entries screen).length := by
    rw [← List.length_map (f := Entry.label)]
    cases h <;> exact Menu.accepts_single ha
  have he := List.getElem?_eq_getElem hlt
  refine ⟨_, List.getElem_mem hlt, he, ?_⟩
  cases h <;> simp only [Dialogue.stepAt, he]

/-! ## Selections -/

/-- Selecting only toggles choices of the current item. -/
theorem mem_selectionEvents {choices : List Choice} {pick : Pick} {event : Event}
    (h : event ∈ q.selectionEvents choices pick) :
    ∃ c ∈ choices, ∃ b, event = .toggle q.current c.subIndex b := by
  obtain ⟨⟨c, i⟩, hc, h⟩ := List.mem_filterMap.1 h
  dsimp only at h
  split at h
  · cases h
  · cases h
    exact ⟨c, List.fst_mem_of_mem_zipIdx hc, _, rfl⟩

/-- Only where there is something to select anew does a pick lie behind the answers. -/
theorem accepts_whichAnswer {pick : Pick} (h : (q.menu .whichAnswer).accepts pick = true) :
    (q.canReselect && pick.first = q.answerLabels.length) = decide (q.answerLabels.length ≤ pick.first) := by
  have hlt := Menu.accepts_single h
  rw [List.length_append] at hlt
  cases hr : q.canReselect with
  | false =>
    simp only [hr, Bool.false_eq_true, if_false, List.length_nil] at hlt
    simpa using hlt
  | true =>
    simp only [hr, if_true, List.length_singleton] at hlt
    simp only [Bool.true_and, decide_eq_decide]
    omega

end Questionnaire

end Appraisal
