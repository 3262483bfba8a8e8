import Appraisal.Proofs.Evaluation
import Appraisal.Proofs.Picks
import Mathlib.Data.List.Induction
/-!
# Runs of toggles

`run` takes toggles one after the other and skips what is refused. The candidates stay as they were offered
(`mem_start_iff`), each is picked as its last toggle says (`mem_picked_run`), and the picks determine the selection
(`ext_picked`).
-/

namespace Appraisal.Selection

/-! ## What is offered -/

/-- Question `i` is answered yes. -/
def SaysYes (questions : List SubQuestion) (answers : List Answer) (i : Nat) : Prop :=
  i < questions.length ∧ answers[i]? = some .yes

theorem getElem?_offers (questions : List SubQuestion) (i : Nat) :
    (offers questions)[i]? = (questions[i]?).map fun question => ⟨i, question.favours, false⟩ := by
  simp [offers, List.getElem?_zipIdx, Function.comp_def]

theorem getElem?_of_mem_offers {questions : List SubQuestion} {c : Candidate} (h : c ∈ offers questions) :
    (offers questions)[c.subIndex]? = some c := by
  obtain ⟨i, hi⟩ := List.mem_iff_getElem?.1 h
  obtain ⟨question, -, rfl⟩ := Option.map_eq_some_iff.1 ((getElem?_offers questions i).symm.trans hi)
  exact hi

/-- An offer is not picked and speaks for what its question speaks for. -/
theorem mem_offers {questions : List SubQuestion} {c : Candidate} :
    c ∈ offers questions ↔ c.picked = false ∧ (questions[c.subIndex]?).map SubQuestion.favours = some c.favours := by
  constructor
  · intro h
    have hc := getElem?_of_mem_offers h
    rw [getElem?_offers] at hc
    obtain ⟨question, hq, hquestion⟩ := Option.map_eq_some_iff.1 hc
    rw [hq, ← hquestion]
    exact ⟨rfl, rfl⟩
  · rintro ⟨hp, hf⟩
    obtain ⟨question, hq, hquestion⟩ := Option.map_eq_some_iff.1 hf
    refine List.mem_of_getElem? (i := c.subIndex) ?_
    rw [getElem?_offers, hq, Option.map_some, hquestion, ← hp]

/-- Among all questions, those answered yes. -/
theorem mem_yes_iff {questions : List SubQuestion} {answers : List Answer} {c : Candidate} :
    c ∈ (((offers questions).zip answers).filter (·.2 = .yes)).map (·.1) ↔
      c ∈ offers questions ∧ answers[c.subIndex]? = some .yes := by
  constructor
  · intro h
    obtain ⟨p, hp, rfl⟩ := List.mem_map.1 h
    obtain ⟨i, hc, ha, -⟩ := mem_saidYes.1 hp
    obtain ⟨question, -, hquestion⟩ := Option.map_eq_some_iff.1 ((getElem?_offers questions i).symm.trans hc)
    refine ⟨List.mem_of_getElem? hc, ?_⟩
    rwa [← hquestion]
  · rintro ⟨hc, ha⟩
    exact List.mem_map.2 ⟨(c, .yes), mem_saidYes.2 ⟨c.subIndex, getElem?_of_mem_offers hc, ha, rfl⟩, rfl⟩

theorem mem_offers_lt {questions : List SubQuestion} {c : Candidate} (h : c ∈ offers questions) :
    c.subIndex < questions.length := by
  have hi : c.subIndex ∈ (offers questions).map (·.subIndex) := List.mem_map_of_mem h
  rwa [offers_indices, List.mem_range] at hi

theorem exists_offer {questions : List SubQuestion} {i : Nat} (h : i < questions.length) :
    ∃ c ∈ offers questions, c.subIndex = i := by
  have hi : i ∈ (offers questions).map (·.subIndex) := by rwa [offers_indices, List.mem_range]
  exact List.mem_map.1 hi

/-- The questions answered yes are offered, or all of them when there is none. -/
theorem mem_start_iff {questions : List SubQuestion} {answers : List Answer} {c : Candidate} :
    c ∈ (start questions answers).candidates ↔
      c ∈ offers questions ∧
        (SaysYes questions answers c.subIndex ∨ ∀ i, ¬ SaysYes questions answers i) := by
  have hyes : ∀ c ∈ offers questions, SaysYes questions answers c.subIndex ↔ answers[c.subIndex]? = some .yes :=
    fun c hc => and_iff_right (mem_offers_lt hc)
  simp only [start]
  split
  · next hempty =>
    have hnone : ∀ i, ¬ SaysYes questions answers i := by
      rintro i ⟨hlt, ha⟩
      obtain ⟨c, hc, rfl⟩ := exists_offer hlt
      have hmem := mem_yes_iff.2 ⟨hc, ha⟩
      rw [List.isEmpty_iff.1 hempty] at hmem
      cases hmem
    exact (and_iff_left (.inr hnone)).symm
  · next hsome =>
    obtain ⟨d, hd⟩ := List.exists_mem_of_ne_nil _ (mt List.isEmpty_iff.2 hsome)
    obtain ⟨hd, had⟩ := mem_yes_iff.1 hd
    have hnot : ¬ ∀ i, ¬ SaysYes questions answers i := fun h => h _ ((hyes d hd).2 had)
    rw [mem_yes_iff]
    exact and_congr_right fun hc => ((or_iff_left hnot).trans (hyes c hc)).symm

theorem mem_indices_start {questions : List SubQuestion} {answers : List Answer} {i : Nat} :
    i ∈ (start questions answers).indices ↔
      i < questions.length ∧
        (SaysYes questions answers i ∨ ∀ j, ¬ SaysYes questions answers j) := by
  simp only [indices, List.mem_map, mem_start_iff]
  constructor
  · rintro ⟨c, ⟨hc, hsays⟩, rfl⟩
    exact ⟨mem_offers_lt hc, hsays⟩
  · rintro ⟨hlt, hsays⟩
    obtain ⟨c, hc, rfl⟩ := exists_offer hlt
    exact ⟨c, ⟨hc, hsays⟩, rfl⟩

/-! ## Toggles, accepted or refused -/

/-- The selection behind a toggle. A refused one leaves it as it is. -/
def after (s : Selection) (t : Nat × Bool) : Selection :=
  match s.toggle t.1 t.2 with
  | .ok revised => revised
  | .error _ => s

def run (s : Selection) (toggles : List (Nat × Bool)) : Selection :=
  toggles.foldl after s

/-- The toggles that are accepted. -/
def accepted (s : Selection) : List (Nat × Bool) → List (Nat × Bool)
  | [] => []
  | t :: toggles =>
    match s.toggle t.1 t.2 with
    | .ok revised => t :: revised.accepted toggles
    | .error _ => s.accepted toggles

theorem set_eq_self {s : Selection} {i : Nat} {b : Bool} (h : ∀ c ∈ s.candidates, c.subIndex = i → c.picked = b) :
    s.set i b = s := by
  have hc : ∀ c ∈ s.candidates, (if c.subIndex = i then { c with picked := b } else c) = c := by
    intro c hc
    by_cases hi : c.subIndex = i
    · rw [if_pos hi, ← h c hc hi]
    · exact if_neg hi
  rw [set, List.map_congr_left hc, List.map_id']

/-- Where nothing is offered there is nothing to set. -/
theorem set_not_offered {s : Selection} {i : Nat} (h : i ∉ s.indices) (b : Bool) : s.set i b = s :=
  set_eq_self fun c hc hi => absurd (List.mem_map.2 ⟨c, hc, hi⟩) h

theorem after_eq (s : Selection) (t : Nat × Bool) : s.after t = s.set t.1 t.2 := by
  unfold after
  cases h : s.toggle t.1 t.2 with
  | ok revised => exact (toggle_ok.1 h).2
  | error e =>
    have hi : t.1 ∉ s.indices := fun hi => by
      cases h.symm.trans (toggle_ok.2 ⟨hi, rfl⟩)
    exact (set_not_offered hi t.2).symm

theorem run_append (s : Selection) (ts us : List (Nat × Bool)) : s.run (ts ++ us) = (s.run ts).run us :=
  List.foldl_append

theorem run_snoc (s : Selection) (ts : List (Nat × Bool)) (t : Nat × Bool) :
    s.run (ts ++ [t]) = (s.run ts).set t.1 t.2 := by
  rw [run_append, ← after_eq]
  rfl

/-- The candidates never change. -/
@[simp] theorem cleared_run (s : Selection) (ts : List (Nat × Bool)) : (s.run ts).cleared = s.cleared := by
  induction ts generalizing s with
  | nil => rfl
  | cons t ts ih => rw [run, List.foldl_cons, ← run, ih, after_eq, cleared_set]

@[simp] theorem indices_run (s : Selection) (ts : List (Nat × Bool)) : (s.run ts).indices = s.indices := by
  rw [← indices_cleared, cleared_run, indices_cleared]

/-- Whether a toggle is accepted depends on what is offered alone. -/
theorem accepted_eq (s : Selection) (ts : List (Nat × Bool)) : s.accepted ts = ts.filter (·.1 ∈ s.indices) := by
  induction ts generalizing s with
  | nil => rfl
  | cons t ts ih =>
    by_cases hi : t.1 ∈ s.indices
    · have hok : s.toggle t.1 t.2 = .ok (s.set t.1 t.2) := toggle_ok.2 ⟨hi, rfl⟩
      rw [accepted, hok, List.filter_cons_of_pos (by simpa using hi)]
      dsimp only
      rw [ih, indices_set]
    · have hno : s.toggle t.1 t.2 = .error ⟨t.1⟩ := by
        rw [toggle, if_neg (mt (offered_iff s t.1).1 hi)]
      rw [accepted, hno, List.filter_cons_of_neg (by simpa using hi)]
      exact ih s

/-! ## What is picked -/

theorem mem_picked_set {s : Selection} {i j : Nat} {b : Bool} :
    i ∈ (s.set j b).picked ↔ if i = j then i ∈ s.indices ∧ b = true else i ∈ s.picked := by
  simp only [picked, set, indices, List.mem_map, List.mem_filter]
  by_cases hij : i = j
  · subst hij
    rw [if_pos rfl]
    constructor
    · rintro ⟨c, ⟨⟨d, hd, rfl⟩, hp⟩, hi⟩
      by_cases hdi : d.subIndex = i
      · simp only [if_pos hdi] at hp
        exact ⟨⟨d, hd, hdi⟩, hp⟩
      · simp only [if_neg hdi] at hi
        exact absurd hi hdi
    · rintro ⟨⟨d, hd, hdi⟩, rfl⟩
      exact ⟨{ d with picked := true }, ⟨⟨d, hd, if_pos hdi⟩, rfl⟩, hdi⟩
  · rw [if_neg hij]
    constructor
    · rintro ⟨c, ⟨⟨d, hd, rfl⟩, hp⟩, rfl⟩
      by_cases hdj : d.subIndex = j
      · simp only [if_pos hdj] at hij
        exact absurd hdj hij
      · simp only [if_neg hdj] at hp hij ⊢
        exact ⟨d, ⟨hd, hp⟩, rfl⟩
    · rintro ⟨d, ⟨hd, hp⟩, rfl⟩
      exact ⟨d, ⟨⟨d, hd, if_neg hij⟩, hp⟩, rfl⟩

/-- The last word on candidate `i`. -/
def last? (toggles : List (Nat × Bool)) (i : Nat) : Option Bool :=
  ((toggles.filter (·.1 = i)).getLast?).map (·.2)

theorem last?_snoc (ts : List (Nat × Bool)) (t : Nat × Bool) (i : Nat) :
    last? (ts ++ [t]) i = if t.1 = i then some t.2 else last? ts i := by
  by_cases h : t.1 = i <;> simp [last?, h]

/-- A candidate is picked when the last accepted toggle picked it. -/
theorem mem_picked_run {s : Selection} (hs : s.picked = []) (ts : List (Nat × Bool)) (i : Nat) :
    i ∈ (s.run ts).picked ↔ last? (s.accepted ts) i = some true := by
  rw [accepted_eq]
  -- From the back, where the last toggle stands.
  induction ts using List.reverseRecOn with
  | nil => simp [run, hs, last?]
  | append_singleton ts t ih =>
    rw [run_snoc, mem_picked_set, List.filter_append, indices_run]
    by_cases ht : t.1 ∈ s.indices
    · rw [List.filter_cons_of_pos (by simpa using ht), List.filter_nil, last?_snoc]
      by_cases hi : i = t.1
      · subst hi
        simp [ht]
      · rw [if_neg hi, if_neg (Ne.symm hi), ih]
    · rw [List.filter_cons_of_neg (by simpa using ht), List.filter_nil, List.append_nil]
      by_cases hi : i = t.1
      · -- Nothing has been said about what is not offered.
        subst hi
        have hpicked : t.1 ∉ (s.run ts).picked := fun h => ht (by simpa using picked_sub _ _ h)
        rw [if_pos rfl, ← ih]
        exact iff_of_false (fun h => ht h.1) hpicked
      · rw [if_neg hi, ih]

/-- Candidates and picks make a selection. -/
theorem ext_picked {s r : Selection} (hn : s.indices.Nodup) (hc : s.cleared = r.cleared)
    (hp : ∀ i, i ∈ s.picked ↔ i ∈ r.picked) : s = r := by
  have hr : r.indices.Nodup := by rwa [← indices_cleared, ← hc, indices_cleared]
  rw [← picked_again hn, ← picked_again hr, hc, setAll_eq, setAll_eq]
  simp only [hp]

/-- Every selection is reached by toggles from the one in which nothing is picked. -/
theorem run_picked {s : Selection} (hn : s.indices.Nodup) : s.cleared.run (s.picked.map (·, true)) = s := by
  have hrun : ∀ (is : List Nat) (r : Selection), r.run (is.map (·, true)) = r.setAll is fun _ => true := by
    intro is
    induction is with
    | nil => exact fun r => rfl
    | cons i is ih =>
      intro r
      rw [List.map_cons, run, List.foldl_cons, ← run, after_eq, ih]
      rfl
  rw [hrun, picked_again hn]

/-- Toggles of different candidates can change places. -/
theorem set_comm (s : Selection) {i j : Nat} (h : i ≠ j) (b b' : Bool) :
    (s.set i b).set j b' = (s.set j b').set i b := by
  simp only [set, List.map_map]
  congr 1
  refine List.map_congr_left fun c _ => ?_
  by_cases hi : c.subIndex = i
  · simp [hi, h]
  · by_cases hj : c.subIndex = j <;> simp [hi, hj, h.symm]

/-- Dropping what is not picked changes nothing. -/
theorem set_unpicked {s : Selection} (hn : s.indices.Nodup) {i : Nat} (h : i ∉ s.picked) : s.set i false = s := by
  refine set_eq_self fun c hc hi => ?_
  rw [← Bool.not_eq_true, ← mem_picked hn hc, hi]
  exact h

end Appraisal.Selection
