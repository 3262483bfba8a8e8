import Appraisal.Proofs.Session.Selecting
/-!
# What is picked, by example

A layer can be asked once more, with yes to the picked questions and no to all others (`saying`). Its finding then
knows only whether there are picks of either tag, while the standing of the selection counts them. So the standing
says no less than the finding, and never anything else (`Refines`).
-/

namespace Appraisal

/-- The answers to `n` questions that say yes to those at `is` and no to all others. -/
def saying (n : Nat) (is : List Nat) : List Answer :=
  (List.range n).map fun i => if i ∈ is then .yes else .no

@[simp] theorem length_saying (n : Nat) (is : List Nat) : (saying n is).length = n := by
  simp [saying]

theorem saying_yes {n : Nat} {is : List Nat} {i : Nat} : (saying n is)[i]? = some .yes ↔ i < n ∧ i ∈ is := by
  by_cases hlt : i < n
  · by_cases hi : i ∈ is <;> simp [saying, hlt, hi]
  · simp [saying, hlt]

namespace Selection

/-! ## The finding, from the counts -/

section Finding
variable {questions : List SubQuestion} {is : List Nat}

theorem tagged_pos {v : Verdict} :
    0 < tagged questions is v ↔ ∃ i ∈ is, (questions[i]?).map SubQuestion.favours = some v := by
  simp [tagged, List.countP_pos_iff]

theorem speaksFor_saying {v : Verdict} :
    SpeaksFor (saying questions.length is) questions v ↔ 0 < tagged questions is v := by
  rw [tagged_pos]
  constructor
  · rintro ⟨i, question, hq, rfl, ha⟩
    exact ⟨i, (saying_yes.1 ha).2, by rw [hq, Option.map_some]⟩
  · rintro ⟨i, hi, hf⟩
    obtain ⟨question, hq, hv⟩ := Option.map_eq_some_iff.1 hf
    exact ⟨i, question, hq, hv, saying_yes.2 ⟨(List.getElem?_eq_some_iff.1 hq).1, hi⟩⟩

/-- What the examples say, from the numbers of picks of either tag. -/
def findingOf (passes fails : Nat) : Finding :=
  if fails = 0 then
    if passes = 0 then .ambiguous else .decided .pass
  else if passes = 0 then .decided .fail
  else .ambiguous

theorem finding_saying : findingByExample (saying questions.length is) questions =
    .ok (findingOf (tagged questions is .pass) (tagged questions is .fail)) := by
  have hcontains : ∀ v, (yesExamples (saying questions.length is) questions).contains v =
      decide (tagged questions is v ≠ 0) := by
    intro v
    rw [Bool.eq_iff_iff, List.contains_iff_mem, mem_yesExamples, speaksFor_saying, decide_eq_true_iff,
      Nat.pos_iff_ne_zero]
  simp only [findingByExample, if_pos (length_saying _ _), hcontains, findingOf]
  by_cases hf : tagged questions is .fail = 0 <;> by_cases hp : tagged questions is .pass = 0 <;> simp [hf, hp]

/-- A complete layer that its examples leave open goes by the examples again. -/
theorem says_saying {l : Layer} {answers : List Answer} (h : l.Says answers (.found .ambiguous)) (is : List Nat) :
    l.Says (saying l.questions.length is)
      (.found (findingOf (tagged l.questions is .pass) (tagged l.questions is .fail))) := by
  have hasks : l.questions ≠ [] := h.asks nofun
  have hne : saying l.questions.length is ≠ [] := by
    rw [← List.length_pos_iff, length_saying]
    exact List.length_pos_of_ne_nil hasks
  refine ⟨length_saying _ _, ?_⟩
  rw [(evaluate_iff_judged.1 h.2).byExample_of_ambiguous, evaluate_byExample hne, finding_saying]
  rfl

end Finding

/-! ## The standing refines the finding -/

/-- The standing of a selection among `questions`, beside the finding `f` on the answers that say yes to what is
picked. -/
structure Refines (questions : List SubQuestion) (s : Selection) (f : Finding) : Prop where
  nothing : s.picked = [] → s.standing = .pending ∧ f = .ambiguous
  decided : s.picked ≠ [] → ∀ v, f = .decided v → s.standing = .decided v
  outnumbered : s.picked ≠ [] → f = .ambiguous →
    tagged questions s.picked .pass < tagged questions s.picked .fail → s.standing = .decided .fail
  balanced : s.picked ≠ [] → f = .ambiguous →
    tagged questions s.picked .fail ≤ tagged questions s.picked .pass → s.standing = .ambiguous
  never_passes : ∀ i ∈ s.picked, (questions[i]?).map SubQuestion.favours = some .fail →
    s.standing ≠ .decided .pass

/-- The two tables, side by side. -/
theorem standing_findingOf (p f : Nat) :
    (p + f = 0 ∧ selectionStanding p f = .pending ∧ findingOf p f = .ambiguous) ∨
    (0 < p + f ∧ ∃ v, selectionStanding p f = .decided v ∧ findingOf p f = .decided v) ∨
    (0 < p + f ∧ selectionStanding p f = (if p < f then .decided .fail else .ambiguous) ∧
      findingOf p f = .ambiguous) := by
  by_cases hf : f = 0
  · by_cases hp : p = 0
    · exact .inl ⟨by omega, by simp [selectionStanding, hp, hf], by simp [findingOf, hp, hf]⟩
    · exact .inr (.inl ⟨by omega, .pass, by simp [selectionStanding, hp, hf], by simp [findingOf, hp, hf]⟩)
  · by_cases hp : p = 0
    · have hlt : p < f := by omega
      exact .inr (.inl ⟨by omega, .fail, by simp [selectionStanding, hf, hlt], by simp [findingOf, hp, hf]⟩)
    · exact .inr (.inr ⟨by omega, by simp [selectionStanding, hf], by simp [findingOf, hp, hf]⟩)

section Started
variable {questions : List SubQuestion} {answers : List Answer} {s : Selection}
  (h : s.cleared = start questions answers)
include h

/-- Every pick has a tag. -/
theorem picked_eq_nil_iff :
    s.picked = [] ↔ tagged questions s.picked .pass + tagged questions s.picked .fail = 0 := by
  constructor
  · intro hnil
    simp [hnil, tagged]
  · intro hzero
    refine List.eq_nil_iff_forall_not_mem.2 fun i hi => ?_
    have hlt : i < questions.length := index_lt h (picked_sub s i hi)
    have hpos : 0 < tagged questions s.picked questions[i].favours :=
      tagged_pos.2 ⟨i, hi, by rw [List.getElem?_eq_getElem hlt, Option.map_some]⟩
    cases hv : questions[i].favours <;> rw [hv] at hpos <;> omega

/-- The tags of the picks decide the standing and the finding alike, so far as the finding goes. -/
theorem refines_findingOf : Refines questions s
    (findingOf (tagged questions s.picked .pass) (tagged questions s.picked .fail)) := by
  have hpass : ∀ i ∈ s.picked, (questions[i]?).map SubQuestion.favours = some .fail →
      s.standing ≠ .decided .pass := by
    intro i hi hf hs
    have hpos : 0 < tagged questions s.picked .fail := tagged_pos.2 ⟨i, hi, hf⟩
    rw [standing_eq_tagged h, (selectionStanding_iff _ _).2.1] at hs
    omega
  have hnil := picked_eq_nil_iff h
  rcases standing_findingOf (tagged questions s.picked .pass) (tagged questions s.picked .fail) with
    ⟨hzero, hs, hf⟩ | ⟨hpos, v, hs, hf⟩ | ⟨hpos, hs, hf⟩
  · have hnone : s.picked = [] := hnil.2 hzero
    rw [← standing_eq_tagged h] at hs
    rw [hf]
    exact ⟨fun _ => ⟨hs, rfl⟩, fun hne => absurd hnone hne, fun hne => absurd hnone hne,
      fun hne => absurd hnone hne, hpass⟩
  · have hsome : s.picked ≠ [] := fun hnone => Nat.ne_of_gt hpos (hnil.1 hnone)
    rw [← standing_eq_tagged h] at hs
    rw [hf]
    refine ⟨fun hnone => absurd hnone hsome, fun _ w hw => ?_, fun _ hw => (nomatch hw), fun _ hw => (nomatch hw),
      hpass⟩
    cases hw
    exact hs
  · have hsome : s.picked ≠ [] := fun hnone => Nat.ne_of_gt hpos (hnil.1 hnone)
    rw [← standing_eq_tagged h] at hs
    rw [hf]
    exact ⟨fun hnone => absurd hnone hsome, fun _ w hw => (nomatch hw), fun _ _ hlt => by rw [hs, if_pos hlt],
      fun _ _ hle => by rw [hs, if_neg (Nat.not_lt_of_le hle)], hpass⟩

end Started

/-- Toggles that pick among the questions of a layer refine what the examples say of the picks alone. Where those speak
for one verdict the selection stands by it; where they speak for both, the selection fails when the fails among them
outnumber the passes, and stays open otherwise. When the layer is complete and left open by its examples, that is what
the layer itself says to the picks. -/
theorem standing_refines (l : Layer) (answers : List Answer) (toggles : List (Nat × Bool)) :
    ∃ f, findingByExample (saying l.questions.length ((start l.questions answers).run toggles).picked) l.questions =
        .ok f ∧
      Refines l.questions ((start l.questions answers).run toggles) f ∧
      (l.Says answers (.found .ambiguous) →
        l.Says (saying l.questions.length ((start l.questions answers).run toggles).picked) (.found f)) :=
  ⟨_, finding_saying, refines_findingOf (cleared_run_start l.questions answers toggles), fun h => says_saying h _⟩

def gutter : Layer :=
  .last [⟨"Is it clear?", .pass⟩, ⟨"Does it leak?", .fail⟩, ⟨"Is it cracked?", .fail⟩] .byExample

/-- Nothing is answered yes, so all three questions are offered. All are picked, and although the examples speak for
both verdicts, the two fails outnumber the pass. -/
theorem gutter_outnumbered :
    gutter.Says [.no, .no, .no] (.found .ambiguous) ∧
      ((start gutter.questions [.no, .no, .no]).run [(2, true), (0, true), (1, true)]).picked = [0, 1, 2] ∧
      saying 3 [0, 1, 2] = [.yes, .yes, .yes] ∧
      gutter.Says [.yes, .yes, .yes] (.found .ambiguous) ∧
      ((start gutter.questions [.no, .no, .no]).run [(2, true), (0, true), (1, true)]).standing = .decided .fail := by
  have hno : gutter.Says [.no, .no, .no] (.found .ambiguous) := ⟨rfl, by decide⟩
  have hpicked :
      ((start gutter.questions [.no, .no, .no]).run [(2, true), (0, true), (1, true)]).picked = [0, 1, 2] := by
    decide
  have hsaying : saying 3 [0, 1, 2] = [.yes, .yes, .yes] := by decide
  obtain ⟨f, hf, hrefines, hsays⟩ := standing_refines gutter [.no, .no, .no] [(2, true), (0, true), (1, true)]
  have hambiguous : findingByExample (saying 3 [0, 1, 2]) gutter.questions = .ok .ambiguous := by decide
  rw [hpicked] at hf
  cases hf.symm.trans hambiguous
  have hagain := hsays hno
  rw [hpicked] at hagain
  exact ⟨hno, hpicked, hsaying, hsaying ▸ hagain,
    hrefines.outnumbered (by rw [hpicked]; decide) rfl (by rw [hpicked]; decide)⟩

end Selection

end Appraisal
